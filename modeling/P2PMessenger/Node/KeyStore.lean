import P2PMessenger.Node.OwnKeys

/-!
# The two key files over many launches

`saveKeyPair` writes the public key file and then the private one, each in place. Where the
first write goes through and the second file does not open, the new public key stands beside
whatever the private file held before, and the next launch loads the two as a pair.
-/

namespace P2PMessenger

open Text Crypto Run

namespace Crypto

theorem loadKeyPair_eq_ok_iff {files : KeyFiles} {keys : KeyPair} :
    loadKeyPair files = .ok keys ↔ loadedPair files = some keys := by
  obtain ⟨publicFile, privateFile⟩ := files
  cases publicFile with
  | absent => simp [loadKeyPair, loadedPair]
  | unreadable => simp [loadKeyPair, loadedPair]
  | content b64 =>
    cases hDecode : fromBase64 b64 with
    | none => cases privateFile <;> simp [loadKeyPair, loadedPair, hDecode]
    | some publicKey => cases privateFile <;> simp [loadKeyPair, loadedPair, hDecode]

/-- A completed save is read back. -/
theorem loadedPair_saveKeyPair (keys : KeyPair) (files : KeyFiles) :
    loadedPair (saveKeyPair keys true true files).2 = some keys :=
  loadedPair_eq_some_iff.mpr ⟨_, rfl, fromBase64_toBase64 keys.publicKey, rfl⟩

/-- After a save that stops between the two files, the new public key is loaded with the old
private key. -/
theorem loadedPair_half_saved (keys loaded : KeyPair) (files : KeyFiles) :
    loadedPair (saveKeyPair keys true false files).2 = some loaded ↔
      loaded.publicKey = keys.publicKey ∧ files.privateFile = .content loaded.privateKey := by
  rw [loadedPair_eq_some_iff]
  constructor
  · rintro ⟨b64, hPublic, hDecode, hPrivate⟩
    obtain rfl : toBase64 keys.publicKey = b64 := KeyFile.content.inj hPublic
    rw [fromBase64_toBase64, Option.some.injEq] at hDecode
    exact ⟨hDecode.symm, hPrivate⟩
  · rintro ⟨hPublic, hPrivate⟩
    refine ⟨toBase64 keys.publicKey, rfl, ?_, hPrivate⟩
    rw [fromBase64_toBase64, hPublic]

/-- What is loaded afterwards, if anything, was loaded before. -/
def LeavesPair (files files' : KeyFiles) : Prop :=
  ∀ keys, loadKeyPair files' = .ok keys → loadKeyPair files = .ok keys

/-- A failed save leaves the stored pair, unless it stopped between the two files of another
pair. -/
theorem leavesPair_saveKeyPair_iff {keys : KeyPair} {publicOpens privateOpens : Bool}
    {files : KeyFiles} (h : (saveKeyPair keys publicOpens privateOpens files).1 = false) :
    LeavesPair files (saveKeyPair keys publicOpens privateOpens files).2 ↔
      (publicOpens = true → ∀ privateKey, files.privateFile = .content privateKey →
        loadKeyPair files = .ok { publicKey := keys.publicKey, privateKey := privateKey }) := by
  cases publicOpens with
  | false =>
    refine iff_of_true ?_ ?_
    · intro loaded hLoaded
      exact hLoaded
    · intro hOpens
      cases hOpens
  | true =>
    cases privateOpens with
    | true => cases h
    | false =>
      constructor
      · intro hLeaves _ privateKey hPrivate
        apply hLeaves
        rw [loadKeyPair_eq_ok_iff, loadedPair_half_saved]
        exact ⟨rfl, hPrivate⟩
      · rintro hSame ⟨publicKey, privateKey⟩ hLoaded
        rw [loadKeyPair_eq_ok_iff, loadedPair_half_saved] at hLoaded
        obtain ⟨rfl, hPrivate⟩ := hLoaded
        exact hSame rfl privateKey hPrivate

end Crypto

/-! ## Launches under one id -/

/-- A launch with the pair it generates if it cannot load one, or what happens to the public
key file between launches. -/
inductive KeyEvent where
  | launch (generated : GeneratedKeys) (publicOpens privateOpens : Bool)
  | deletePublic
  | spoilPublic (data : Bytes) (undecodable : fromBase64 data = none)

/-- The key files of an id and the pairs that were generated for it. -/
structure KeyStore where
  files : KeyFiles := {}
  generated : List KeyPair := []

namespace KeyStore

/-- No key files, or a saved pair. -/
def initial : Option GeneratedKeys → KeyStore
  | none => {}
  | some saved => { files := (saveKeyPair saved.keys true true {}).2, generated := [saved.keys] }

def startInput (s : KeyStore) (generated : GeneratedKeys) (publicOpens privateOpens : Bool) :
    StartInput :=
  { files := s.files, generated, publicOpens, privateOpens }

def step (s : KeyStore) : KeyEvent → KeyStore
  | .launch generated publicOpens privateOpens =>
    { files := (initKeys (s.startInput generated publicOpens privateOpens)).2
      generated :=
        if (loadedPair s.files).isSome then s.generated else generated.keys :: s.generated }
  | .deletePublic => { s with files := { s.files with publicFile := .absent } }
  | .spoilPublic data _ => { s with files := { s.files with publicFile := .content data } }

/-- Every launch that loads a pair holds and publishes one that was generated as a pair. -/
def Paired (s : KeyStore) : Prop :=
  ∀ (n : P2PNode) (io : StartInput), n.running = false → io.files = s.files →
    ∀ keys, loadKeyPair s.files = .ok keys →
      (n.startNode io).myKeys = keys ∧
        (∀ profile, ((n.startNode io).profilePut profile).payload =
          profilePayload profile keys.publicKey) ∧
        keys ∈ s.generated

theorem paired_iff {s : KeyStore} :
    s.Paired ↔ ∀ keys, loadedPair s.files = some keys → keys ∈ s.generated := by
  constructor
  · intro h keys hLoaded
    exact (h {} (s.startInput (.constant 0) true true) rfl rfl keys
      (loadKeyPair_eq_ok_iff.mpr hLoaded)).2.2
  · intro h n io hStopped hFiles keys hLoaded
    rw [loadKeyPair_eq_ok_iff] at hLoaded
    have hKeys : (n.startNode io).myKeys = keys := by
      rw [P2PNode.myKeys_startNode hStopped, initKeys_eq, hFiles, hLoaded]
    refine ⟨hKeys, ?_, h keys hLoaded⟩
    intro profile
    rw [← hKeys]
    rfl

/-- A launch that generates a pair writes both files or leaves the public one alone, or the
private file belongs to the new public key anyway. -/
def SavesWhole (s : KeyStore) : KeyEvent → Prop
  | .launch generated publicOpens privateOpens =>
    loadedPair s.files = none → publicOpens = true → privateOpens = false →
      ∀ privateKey, s.files.privateFile = .content privateKey →
        { publicKey := generated.keys.publicKey, privateKey := privateKey } ∈
          generated.keys :: s.generated
  | _ => True

theorem paired_initial (saved : Option GeneratedKeys) : (initial saved).Paired := by
  rw [paired_iff]
  intro keys hLoaded
  cases saved with
  | none => cases hLoaded
  | some saved =>
    rw [initial, loadedPair_saveKeyPair, Option.some.injEq] at hLoaded
    exact List.mem_singleton.mpr hLoaded.symm

/-- A launch on a pair changes nothing. -/
theorem launch_of_loaded {s : KeyStore} {keys : KeyPair} (h : loadedPair s.files = some keys)
    (generated : GeneratedKeys) (publicOpens privateOpens : Bool) :
    s.step (.launch generated publicOpens privateOpens) = s := by
  simp [step, initKeys_eq, startInput, h]

theorem launch_of_unloaded {s : KeyStore} (h : loadedPair s.files = none)
    (generated : GeneratedKeys) (publicOpens privateOpens : Bool) :
    s.step (.launch generated publicOpens privateOpens) =
      { files := (saveKeyPair generated.keys publicOpens privateOpens s.files).2
        generated := generated.keys :: s.generated } := by
  simp [step, initKeys_eq, startInput, h]

/-- A launch that generates a pair. -/
theorem paired_launch_iff {s : KeyStore} (h : loadedPair s.files = none)
    (generated : GeneratedKeys) (publicOpens privateOpens : Bool) :
    (s.step (.launch generated publicOpens privateOpens)).Paired ↔
      s.SavesWhole (.launch generated publicOpens privateOpens) := by
  rw [launch_of_unloaded h, paired_iff]
  cases publicOpens with
  | false =>
    -- nothing was written
    refine iff_of_true ?_ ?_
    · intro keys hKeys
      exact absurd (h.symm.trans hKeys) (by simp)
    · intro _ hOpens
      cases hOpens
  | true =>
    cases privateOpens with
    | true =>
      refine iff_of_true ?_ ?_
      · intro keys hKeys
        rw [loadedPair_saveKeyPair, Option.some.injEq] at hKeys
        rw [← hKeys]
        exact List.mem_cons_self
      · intro _ _ hFails
        cases hFails
    | false =>
      constructor
      · intro hPaired _ _ _ privateKey hPrivate
        exact hPaired _ ((loadedPair_half_saved _ _ _).mpr ⟨rfl, hPrivate⟩)
      · rintro hWhole ⟨publicKey, privateKey⟩ hKeys
        obtain ⟨rfl, hPrivate⟩ := (loadedPair_half_saved _ _ _).mp hKeys
        exact hWhole h rfl rfl privateKey hPrivate

theorem paired_step_iff {s : KeyStore} (h : s.Paired) (e : KeyEvent) :
    (s.step e).Paired ↔ s.SavesWhole e := by
  cases e with
  | deletePublic =>
    refine iff_of_true ?_ trivial
    rw [paired_iff]
    intro keys hLoaded
    cases hLoaded
  | spoilPublic data undecodable =>
    refine iff_of_true ?_ trivial
    rw [paired_iff]
    intro keys hLoaded
    obtain ⟨b64, hPublic, hDecode, -⟩ := loadedPair_eq_some_iff.mp hLoaded
    obtain rfl : data = b64 := KeyFile.content.inj hPublic
    rw [undecodable] at hDecode
    cases hDecode
  | launch generated publicOpens privateOpens =>
    cases hLoaded : loadedPair s.files with
    | some keys =>
      rw [launch_of_loaded hLoaded]
      refine iff_of_true h ?_
      intro hNone
      rw [hLoaded] at hNone
      cases hNone
    | none => exact paired_launch_iff hLoaded generated publicOpens privateOpens

/-- The halves stay together through a sequence of launches if and only if no launch in it
saves half of its pair beside an older private key; and a failed save leaves the stored
pair under the same condition. -/
theorem halves_together_iff (saved : Option GeneratedKeys) (es : List KeyEvent) :
    ((∀ pre, pre <+: es → (run step (initial saved) pre).Paired) ↔
        Along step SavesWhole (initial saved) es) ∧
      ∀ keys publicOpens privateOpens files,
        (saveKeyPair keys publicOpens privateOpens files).1 = false →
          (LeavesPair files (saveKeyPair keys publicOpens privateOpens files).2 ↔
            (publicOpens = true → ∀ privateKey, files.privateFile = .content privateKey →
              loadKeyPair files =
                .ok { publicKey := keys.publicKey, privateKey := privateKey })) := by
  constructor
  · exact forall_prefix_iff_along (I := fun _ => True) (Q := Paired) (fun _ _ _ => trivial)
      (fun _ e _ hPaired => paired_step_iff hPaired e) trivial (paired_initial saved) es
  · intro keys publicOpens privateOpens files hFailed
    exact leavesPair_saveKeyPair_iff hFailed

/-- The public key file is deleted, and the next launch cannot open the private one. -/
theorem new_public_beside_old_private :
    ¬ (run step (initial (some (.constant 1)))
      [.deletePublic, .launch (.constant 2) true false]).Paired := by
  intro hPaired
  have hMixed : loadedPair (run step (initial (some (.constant 1)))
      [.deletePublic, .launch (.constant 2) true false]).files =
        some { publicKey := List.replicate 32 3, privateKey := List.replicate 32 1 } := by
    decide +kernel
  have hMem := paired_iff.mp hPaired _ hMixed
  revert hMem
  decide +kernel

end KeyStore

end P2PMessenger
