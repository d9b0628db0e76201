import P2PMessenger.Node.KeyStore

/-!
# The key initialisation, one access at a time

`startNode` looks for the two files, reads them, and writes them if that fails. Another program
may come between any two of these accesses, and it does not see what this one holds in memory.
Undisturbed, the accesses come to what `initKeys` says.
-/

namespace P2PMessenger.Crypto

open Text Run

/-- What the key initialisation does next. -/
inductive KeyStage where
  | findPublic
  | findPrivate
  | readPublic
  | readPrivate
  | openPublic
  | writePublic
  | openPrivate
  | writePrivate
  | done
  deriving DecidableEq

/-- The stages behind the decision to generate a pair. -/
def KeyStage.writes : KeyStage → Bool
  | .openPublic | .writePublic | .openPrivate | .writePrivate => true
  | _ => false

/-- A key initialisation under way; the files of `io` are what it has seen of them. -/
structure KeyInit where
  io : StartInput
  stage : KeyStage := .findPublic

namespace KeyInit

/-- Nothing is seen of the files yet. -/
def begin (io : StartInput) : KeyInit := { io := { io with files := {} } }

def seePublic (k : KeyInit) (file : KeyFile) (stage : KeyStage) : KeyInit :=
  { io := { k.io with files := { k.io.files with publicFile := file } }, stage := stage }

def seePrivate (k : KeyInit) (file : KeyFile) (stage : KeyStage) : KeyInit :=
  { io := { k.io with files := { k.io.files with privateFile := file } }, stage := stage }

/-- One access to the files. A stream that is opened for writing leaves its file empty until the
stream is closed. -/
def next (k : KeyInit) (files : KeyFiles) : KeyInit × KeyFiles :=
  match k.stage with
  | .findPublic =>
    (k.seePublic files.publicFile
      (if files.publicFile = .absent then .openPublic else .findPrivate), files)
  | .findPrivate =>
    (k.seePrivate files.privateFile
      (if files.privateFile = .absent then .openPublic else .readPublic), files)
  | .readPublic =>
    (k.seePublic files.publicFile
      (match files.publicFile with
        | .content b64 => if (fromBase64 b64).isSome then .readPrivate else .openPublic
        | _ => .openPublic), files)
  | .readPrivate =>
    (k.seePrivate files.privateFile
      (match files.privateFile with
        | .content _ => .done
        | _ => .openPublic), files)
  | .openPublic =>
    if k.io.publicOpens then
      ({ k with stage := .writePublic }, { files with publicFile := .content [] })
    else ({ k with stage := .done }, files)
  | .writePublic =>
    ({ k with stage := .openPrivate },
      { files with publicFile := .content (toBase64 k.io.generated.keys.publicKey) })
  | .openPrivate =>
    if k.io.privateOpens then
      ({ k with stage := .writePrivate }, { files with privateFile := .content [] })
    else ({ k with stage := .done }, files)
  | .writePrivate =>
    ({ k with stage := .done },
      { files with privateFile := .content k.io.generated.keys.privateKey })
  | .done => (k, files)

/-! ## Alone -/

/-- The initialisation and the files behind so many accesses with nobody else in between. -/
def accesses : Nat → KeyInit × KeyFiles → KeyInit × KeyFiles
  | 0, state => state
  | count + 1, state => accesses count (state.1.next state.2)

theorem accesses_of_done {k : KeyInit} (hDone : k.stage = .done) (files : KeyFiles) (count : Nat) :
    accesses count (k, files) = (k, files) := by
  induction count with
  | zero => rfl
  | succ count ih =>
    have hNext : k.next files = (k, files) := by
      unfold next
      rw [hDone]
    rw [accesses, hNext, ih]

/-- From the decision to generate on, four accesses save the pair. -/
theorem accesses_save {k : KeyInit} (hStage : k.stage = .openPublic) (files : KeyFiles) :
    accesses 4 (k, files) = ({ k with stage := .done },
      (saveKeyPair k.io.generated.keys k.io.publicOpens k.io.privateOpens files).2) := by
  obtain ⟨io, stage⟩ := k
  obtain rfl : stage = .openPublic := hStage
  cases hPublic : io.publicOpens with
  | false => simp [accesses, next, saveKeyPair, hPublic]
  | true =>
    cases hPrivate : io.privateOpens with
    | false => simp [accesses, next, saveKeyPair, hPublic, hPrivate]
    | true => simp [accesses, next, saveKeyPair, hPublic, hPrivate]

theorem accesses_add (count more : Nat) (state : KeyInit × KeyFiles) :
    accesses (count + more) state = accesses more (accesses count state) := by
  induction count generalizing state with
  | zero => rw [Nat.zero_add, accesses]
  | succ count ih => rw [Nat.succ_add, accesses, accesses, ih]

/-- Four accesses see a pair that is on disk. -/
theorem accesses_load {files : KeyFiles} {keys : KeyPair} (h : loadedPair files = some keys)
    (io : StartInput) :
    accesses 4 (begin io, files) = ({ io := { io with files := files }, stage := .done }, files) := by
  obtain ⟨publicFile, privateFile⟩ := files
  obtain ⟨b64, hPublic, hDecode, hPrivate⟩ := loadedPair_eq_some_iff.mp h
  obtain rfl : publicFile = .content b64 := hPublic
  obtain rfl : privateFile = .content keys.privateKey := hPrivate
  simp [accesses, begin, next, seePublic, seePrivate, hDecode]

/-- Without a pair on disk at most four accesses lead to the decision to generate one. -/
theorem accesses_miss {files : KeyFiles} (h : loadedPair files = none) (io : StartInput) :
    ∃ count seen, count ≤ 4 ∧ loadedPair seen = none ∧
      accesses count (begin io, files) =
        ({ io := { io with files := seen }, stage := .openPublic }, files) := by
  obtain ⟨publicFile, privateFile⟩ := files
  by_cases hPublic : publicFile = .absent
  · refine ⟨1, {}, by decide, rfl, ?_⟩
    simp [accesses, begin, next, seePublic, hPublic]
  by_cases hPrivate : privateFile = .absent
  · refine ⟨2, { publicFile := publicFile }, by decide, ?_, ?_⟩
    · simp [loadedPair]
    · simp [accesses, begin, next, seePublic, seePrivate, hPublic, hPrivate]
  cases publicFile with
  | absent => exact absurd rfl hPublic
  | unreadable =>
    refine ⟨3, { publicFile := .unreadable, privateFile := privateFile }, by decide, h, ?_⟩
    simp [accesses, begin, next, seePublic, seePrivate, hPrivate]
  | content b64 =>
    cases hDecode : fromBase64 b64 with
    | none =>
      refine ⟨3, { publicFile := .content b64, privateFile := privateFile }, by decide, h, ?_⟩
      simp [accesses, begin, next, seePublic, seePrivate, hPrivate, hDecode]
    | some publicKey =>
      cases privateFile with
      | absent => exact absurd rfl hPrivate
      | unreadable =>
        refine ⟨4, { publicFile := .content b64, privateFile := .unreadable }, by decide, h, ?_⟩
        simp [accesses, begin, next, seePublic, seePrivate, hDecode]
      | content privateKey =>
        simp [loadedPair, hDecode] at h

/-- Alone, eight accesses take the pair on disk, or generate and save one. -/
theorem accesses_begin (io : StartInput) (files : KeyFiles) :
    (accesses 8 (begin io, files)).1.stage = .done ∧
      (initKeys (accesses 8 (begin io, files)).1.io).1 = (initKeys { io with files := files }).1 ∧
      (accesses 8 (begin io, files)).2 = (initKeys { io with files := files }).2 := by
  cases hLoaded : loadedPair files with
  | some keys =>
    have hAll : accesses 8 (begin io, files) =
        ({ io := { io with files := files }, stage := .done }, files) := by
      rw [accesses_add 4 4, accesses_load hLoaded, accesses_of_done rfl]
    rw [hAll, initKeys_eq, hLoaded]
    exact ⟨rfl, rfl, rfl⟩
  | none =>
    obtain ⟨count, seen, hCount, hSeen, hMiss⟩ := accesses_miss hLoaded io
    have hAll : accesses 8 (begin io, files) =
        ({ io := { io with files := seen }, stage := .done },
          (saveKeyPair io.generated.keys io.publicOpens io.privateOpens files).2) := by
      have hSplit : 8 = count + (4 + (4 - count)) := by omega
      rw [hSplit, accesses_add, hMiss, accesses_add, accesses_save rfl, accesses_of_done rfl]
    rw [hAll, initKeys_eq, initKeys_eq, hLoaded, hSeen]
    exact ⟨rfl, rfl, rfl⟩

/-! ## Among others -/

/-- What the initialisation relies on: it can write where it finds no pair, it has decided to
generate one for want of a pair, and when it is done its pair is on disk. -/
def Sound (k : KeyInit) (files : KeyFiles) : Prop :=
  match k.stage with
  | .findPublic | .findPrivate | .readPublic =>
    loadedPair files = none → k.io.publicOpens = true ∧ k.io.privateOpens = true
  | .readPrivate =>
    k.io.files.publicFile = files.publicFile ∧
      (∃ b64 publicKey, files.publicFile = .content b64 ∧ fromBase64 b64 = some publicKey) ∧
      (loadedPair files = none → k.io.publicOpens = true ∧ k.io.privateOpens = true)
  | .openPublic | .writePublic =>
    loadedPair k.io.files = none ∧ k.io.publicOpens = true ∧ k.io.privateOpens = true
  | .openPrivate | .writePrivate =>
    loadedPair k.io.files = none ∧ k.io.privateOpens = true ∧
      files.publicFile = .content (toBase64 k.io.generated.keys.publicKey)
  | .done => loadedPair files = some (initKeys k.io).1

theorem sound_begin {io : StartInput} {files : KeyFiles}
    (hOpens : loadedPair files = none → io.publicOpens = true ∧ io.privateOpens = true) :
    (begin io).Sound files := hOpens

/-- Behind the decision to generate, the pair that is kept is the generated one. -/
theorem initKeys_of_missed {io : StartInput} (h : loadedPair io.files = none) :
    (initKeys io).1 = io.generated.keys := by
  rw [initKeys_eq, h]

theorem sound_next {k : KeyInit} {files : KeyFiles} (h : k.Sound files) :
    (k.next files).1.Sound (k.next files).2 := by
  obtain ⟨io, stage⟩ := k
  obtain ⟨publicFile, privateFile⟩ := files
  cases stage with
  | findPublic =>
    by_cases hAbsent : publicFile = .absent
    · obtain ⟨hPublic, hPrivate⟩ := h (by simp [loadedPair, hAbsent])
      simpa [next, seePublic, Sound, hAbsent, loadedPair] using ⟨hPublic, hPrivate⟩
    · simpa [next, seePublic, Sound, hAbsent] using h
  | findPrivate =>
    by_cases hAbsent : privateFile = .absent
    · obtain ⟨hPublic, hPrivate⟩ := h (by simp [loadedPair, hAbsent])
      simpa [next, seePrivate, Sound, hAbsent, loadedPair] using ⟨hPublic, hPrivate⟩
    · simpa [next, seePrivate, Sound, hAbsent] using h
  | readPublic =>
    cases publicFile with
    | content b64 =>
      cases hDecode : fromBase64 b64 with
      | some publicKey => simpa [next, seePublic, Sound, hDecode] using h
      | none =>
        have hNone (privateFile : KeyFile) :
            loadedPair { publicFile := .content b64, privateFile := privateFile } = none := by
          cases privateFile <;> simp [loadedPair, hDecode]
        simpa [next, seePublic, Sound, hDecode, hNone] using h (hNone privateFile)
    | _ => simpa [next, seePublic, Sound, loadedPair] using h rfl
  | readPrivate =>
    obtain ⟨hSeen, ⟨b64, publicKey, hContent, hDecode⟩, hOpens⟩ := h
    dsimp only at hSeen hContent hOpens
    subst hContent
    cases privateFile with
    | content privateKey =>
      have hLoaded : loadedPair { publicFile := .content b64, privateFile := .content privateKey } =
          some { publicKey := publicKey, privateKey := privateKey } := by
        simp [loadedPair, hDecode]
      show loadedPair { publicFile := .content b64, privateFile := .content privateKey } =
        some (initKeys { io with files := ⟨io.files.publicFile, .content privateKey⟩ }).1
      rw [hSeen, initKeys_eq, hLoaded]
    | _ => simpa [next, seePrivate, Sound, loadedPair, hSeen] using hOpens rfl
  | openPublic =>
    obtain ⟨hMissed, hPublic, hPrivate⟩ := h
    have hNow : loadedPair io.files = none ∧ io.privateOpens = true := ⟨hMissed, hPrivate⟩
    dsimp only at hPublic
    simpa [next, Sound, hPublic] using hNow
  | writePublic =>
    obtain ⟨hMissed, hPublic, hPrivate⟩ := h
    exact ⟨hMissed, hPrivate, rfl⟩
  | openPrivate =>
    obtain ⟨hMissed, hPrivate, hWritten⟩ := h
    dsimp only at hMissed hPrivate hWritten
    simp [next, Sound, hMissed, hPrivate, hWritten]
  | writePrivate =>
    obtain ⟨hMissed, -, hWritten⟩ := h
    show loadedPair { publicFile := publicFile, privateFile := _ } = some (initKeys io).1
    rw [initKeys_of_missed hMissed, loadedPair_eq_some_iff]
    exact ⟨_, hWritten, fromBase64_toBase64 _, rfl⟩
  | done => exact h

/-- A pair on disk is read and left there. -/
theorem next_of_loaded {k : KeyInit} {files : KeyFiles} {keys : KeyPair}
    (h : loadedPair files = some keys) (hReads : k.stage.writes = false) :
    (k.next files).1.stage.writes = false ∧ (k.next files).2 = files := by
  obtain ⟨b64, hPublic, hDecode, hPrivate⟩ := loadedPair_eq_some_iff.mp h
  unfold next
  cases hStage : k.stage with
  | findPublic => simp [seePublic, hPublic, KeyStage.writes]
  | findPrivate => simp [seePrivate, hPrivate, KeyStage.writes]
  | readPublic => simp [seePublic, hPublic, hDecode, KeyStage.writes]
  | readPrivate => simp [seePrivate, hPrivate, KeyStage.writes]
  | done => simp [hStage, KeyStage.writes]
  | _ =>
    rw [hStage] at hReads
    cases hReads

end KeyInit

end P2PMessenger.Crypto
