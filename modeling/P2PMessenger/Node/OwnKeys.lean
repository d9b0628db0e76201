import P2PMessenger.Node.Effect

/-!
# The lengths of the own keys

`loadKeyPair` throws where a file cannot be opened or the public key is not base64, and
`startNode` then generates a new pair. It tests no length: whatever the two files hold
otherwise is taken as a key pair and used until the next start.
-/

namespace P2PMessenger

open Text Crypto Run

/-- Both keys have the length that libsodium asks for. -/
def KeyPair.Full (keys : KeyPair) : Prop :=
  keys.publicKey.length = crypto_box_PUBLICKEYBYTES ∧
    keys.privateKey.length = crypto_box_SECRETKEYBYTES

namespace Crypto

/-- The pair that the key initialisation finds on disk. -/
def loadedPair (files : KeyFiles) : Option KeyPair :=
  match files.publicFile, files.privateFile with
  | .content b64, .content privateKey =>
    (fromBase64 b64).map fun publicKey => { publicKey := publicKey, privateKey := privateKey }
  | _, _ => none

theorem loadedPair_eq_some_iff {files : KeyFiles} {keys : KeyPair} :
    loadedPair files = some keys ↔
      ∃ b64, files.publicFile = .content b64 ∧ fromBase64 b64 = some keys.publicKey ∧
        files.privateFile = .content keys.privateKey := by
  unfold loadedPair
  split
  · rename_i b64 privateKey hPublic hPrivate
    rw [Option.map_eq_some_iff]
    constructor
    · rintro ⟨publicKey, hDecode, rfl⟩
      exact ⟨b64, hPublic, hDecode, hPrivate⟩
    · rintro ⟨b64', hPublic', hDecode, hPrivate'⟩
      obtain rfl := KeyFile.content.inj (hPublic.symm.trans hPublic')
      obtain rfl := KeyFile.content.inj (hPrivate.symm.trans hPrivate')
      exact ⟨keys.publicKey, hDecode, rfl⟩
  · rename_i hOther
    simp only [reduceCtorEq, false_iff]
    rintro ⟨b64, hPublic, -, hPrivate⟩
    exact hOther b64 keys.privateKey hPublic hPrivate

/-- The key initialisation takes the pair on disk, or generates and saves one. -/
theorem initKeys_eq (io : StartInput) :
    initKeys io =
      match loadedPair io.files with
      | some keys => (keys, io.files)
      | none => (io.generated.keys,
          (saveKeyPair io.generated.keys io.publicOpens io.privateOpens io.files).2) := by
  obtain ⟨⟨publicFile, privateFile⟩, generated, publicOpens, privateOpens⟩ := io
  unfold initKeys loadKeyPair loadedPair
  cases publicFile with
  | absent => simp
  | unreadable =>
    cases privateFile with
    | absent => simp
    | unreadable => simp
    | content privateKey => simp
  | content b64 =>
    cases privateFile with
    | absent => simp
    | unreadable => cases hDecode : fromBase64 b64 <;> simp [hDecode]
    | content privateKey => cases hDecode : fromBase64 b64 <;> simp [hDecode]

/-- If both files can be read and the public one is base64, they hold keys of full length. -/
def FullIfReadable (files : KeyFiles) : Prop :=
  ∀ b64 publicKey privateKey, files.publicFile = .content b64 →
    fromBase64 b64 = some publicKey → files.privateFile = .content privateKey →
      publicKey.length = crypto_box_PUBLICKEYBYTES ∧
        privateKey.length = crypto_box_SECRETKEYBYTES

theorem full_initKeys_iff (io : StartInput) :
    (initKeys io).1.Full ↔ FullIfReadable io.files := by
  rw [initKeys_eq]
  cases hLoaded : loadedPair io.files with
  | some keys =>
    obtain ⟨b64, hPublic, hDecode, hPrivate⟩ := loadedPair_eq_some_iff.mp hLoaded
    constructor
    · intro hFull b64' publicKey privateKey hPublic' hDecode' hPrivate'
      obtain rfl := KeyFile.content.inj (hPublic.symm.trans hPublic')
      obtain rfl := KeyFile.content.inj (hPrivate.symm.trans hPrivate')
      obtain rfl := Option.some.inj (hDecode.symm.trans hDecode')
      exact hFull
    · intro hFull
      exact hFull b64 keys.publicKey keys.privateKey hPublic hDecode hPrivate
  | none =>
    constructor
    · intro _ b64 publicKey privateKey hPublic hDecode hPrivate
      have hSome : loadedPair io.files = some { publicKey, privateKey } :=
        loadedPair_eq_some_iff.mpr ⟨b64, hPublic, hDecode, hPrivate⟩
      rw [hLoaded] at hSome
      cases hSome
    · intro _
      exact ⟨io.generated.publicKey_length, io.generated.privateKey_length⟩

end Crypto

/-- The own secret key that a box call is given. -/
def Crypto.BoxCall.secretKey : BoxCall → Bytes
  | easy _ _ _ secretKey _ => secretKey
  | openEasy _ _ _ secretKey _ => secretKey

/-- A profile holds a public key of full length. -/
def Put.HoldsFullKey (q : Put) : Prop :=
  ∀ profile, q.origin = .publishProfile profile →
    ∃ key : Bytes, key.length = crypto_box_PUBLICKEYBYTES ∧ q.payload = profilePayload profile key

namespace P2PNode

variable (S : Sodium)

/-- A start that loads keys finds files of full keys, or files it cannot read. -/
def StartsFull (n : P2PNode) : Event → Prop
  | .startNode io => n.running = false → FullIfReadable io.files
  | _ => True

theorem myKeys_startNode {n : P2PNode} (h : n.running = false) (io : StartInput) :
    (n.startNode io).myKeys = (initKeys io).1 := by
  rw [startNode_of_stopped h]
  rfl

/-- Only a start of a stopped node changes its keys and their owner. -/
theorem keys_step (n : P2PNode) (e : Event) :
    ((n.step S e).session = n.session ∧ (n.step S e).keyOwner = n.keyOwner ∧
        (n.step S e).myKeys = n.myKeys) ∨
      ∃ io, e = .startNode io ∧ n.running = false := by
  cases hKeeps : e.keeps with
  | true =>
    have hSame := step_sameSession S (n := n) hKeeps
    exact Or.inl ⟨hSame.session, hSame.keyOwner, hSame.myKeys⟩
  | false =>
    cases e with
    | setNodeConfig port id => exact Or.inl ⟨rfl, rfl, rfl⟩
    | startNode io =>
      cases hRunning : n.running with
      | true =>
        have hStep : n.step S (.startNode io) = n := startNode_of_running hRunning io
        rw [hStep]
        exact Or.inl ⟨rfl, rfl, rfl⟩
      | false => exact Or.inr ⟨io, rfl, rfl⟩
    | stopNode =>
      refine Or.inl ?_
      simp only [step, stopNode]
      split <;> exact ⟨rfl, rfl, rfl⟩
    | _ => cases hKeeps

/-- The exported key is not touched between a start and the next. -/
theorem publicKeyB64_step {n : P2PNode} {e : Event} (h : e.keeps = true) :
    (n.step S e).publicKeyB64 = n.publicKeyB64 := by
  cases e with
  | setNodeConfig port id => cases h
  | startNode io => cases h
  | stopNode => cases h
  | setBootstrapHost host =>
    simp only [step, setBootstrapHost]
    split <;> rfl
  | bootstrap ip port =>
    simp only [step, bootstrap, setBootstrapHost]
    split <;> rfl
  | sendMessage op toPeerId text =>
    simp only [step, sendMessage]
    split <;> rfl
  | publishProfile profile => rfl
  | profilePut profile success =>
    obtain ⟨ui, cache, hPut⟩ := onProfilePut_eq n profile success
    simp only [step, hPut]
    split <;> rfl
  | refreshProfile =>
    simp only [step, refreshProfile]
    split
    · split <;> rfl
    · rfl
  | findPeer op userId => rfl
  | inbox values expired =>
    simp only [step, onMessageReceived_eq]
    split
    · split <;> rfl
    · rfl
  | lookup op values io =>
    obtain ⟨ui, cache, hLookup⟩ := onLookup_eq S n op values io
    simp only [step, hLookup, showing, afterLookup]
    cases n.lookupAction op values with
    | ignore => rfl
    | giveUp => rfl
    | encrypt receiverId packet key => simp only [sendEncrypted_eq, raiseFlag]
    | decrypt senderId packet key =>
      simp only [decryptResult]
      split <;> rfl

theorem full_step {n : P2PNode} {e : Event} (h : n.myKeys.Full) (hStart : n.StartsFull e) :
    (n.step S e).myKeys.Full := by
  rcases keys_step S n e with ⟨-, -, hSame⟩ | ⟨io, rfl, hStopped⟩
  · rw [hSame]
    exact h
  · have hNew : (n.step S (.startNode io)).myKeys = (initKeys io).1 :=
      myKeys_startNode hStopped io
    rw [hNew]
    exact (full_initKeys_iff io).mpr (hStart hStopped)

theorem secretKey_newCalls {n : P2PNode} {e : Event} :
    ∀ call ∈ n.newCalls S e, call.secretKey = n.myKeys.privateKey := by
  intro call hCall
  unfold newCalls at hCall
  split at hCall
  · split at hCall
    · rw [List.mem_singleton.mp hCall]
      rfl
    · split at hCall
      · unfold CryptoService.openCalls at hCall
        split at hCall
        · split at hCall
          · cases hCall
          · rw [List.mem_singleton.mp hCall]
            rfl
        · cases hCall
      · cases hCall
    · cases hCall
  · cases hCall

theorem holdsFullKey_newPuts {n : P2PNode} (h : n.myKeys.Full) {e : Event} :
    ∀ q ∈ n.newPuts S e, q.HoldsFullKey := by
  have hProfile (profile : UserProfile) : (n.profilePut profile).HoldsFullKey := by
    intro profile' hOrigin
    obtain rfl := PutOrigin.publishProfile.inj hOrigin
    exact ⟨n.myKeys.publicKey, h.1, rfl⟩
  intro q hq
  unfold newPuts at hq
  split at hq
  · rw [List.mem_singleton.mp hq]
    exact hProfile _
  · split at hq
    · rw [List.mem_singleton.mp hq]
      exact hProfile _
    · cases hq
  · split at hq
    · split at hq
      · cases hq
      · rw [List.mem_singleton.mp hq]
        intro profile hOrigin
        cases hOrigin
    · cases hq
  · cases hq

/-- Along a run with full keys, every box call is made and every profile is put with one. -/
theorem full_run {n : P2PNode} (h : n.myKeys.Full) {es : List Event}
    (hStarts : Along (step S) StartsFull n es) :
    ∃ calls puts, (run (step S) n es).crypto.boxCalls = n.crypto.boxCalls ++ calls ∧
      (run (step S) n es).puts = n.puts ++ puts ∧
      (∀ call ∈ calls, call.secretKey.length = crypto_box_SECRETKEYBYTES) ∧
      ∀ q ∈ puts, q.HoldsFullKey := by
  induction es generalizing n with
  | nil => exact ⟨[], [], by simp, by simp, by simp, by simp⟩
  | cons e es ih =>
    obtain ⟨calls, puts, hCalls, hPuts, hSecret, hFull⟩ := ih (full_step S h hStarts.1) hStarts.2
    refine ⟨n.newCalls S e ++ calls, n.newPuts S e ++ puts, ?_, ?_, ?_, ?_⟩
    · rw [run_cons, hCalls, step_boxCalls, List.append_assoc]
    · rw [run_cons, hPuts, step_puts, List.append_assoc]
    · intro call hCall
      rcases List.mem_append.mp hCall with hNew | hLater
      · rw [secretKey_newCalls S call hNew]
        exact h.2
      · exact hSecret call hLater
    · intro q hq
      rcases List.mem_append.mp hq with hNew | hLater
      · exact holdsFullKey_newPuts S h q hNew
      · exact hFull q hLater

/-- A start leaves keys of full length if and only if the files hold such keys or cannot be
read as keys; and then all later box calls and profiles are made from such keys, as long as
the later starts meet the same condition. -/
theorem startNode_full_iff {n : P2PNode} (hStopped : n.running = false) (io : StartInput) :
    ((n.startNode io).myKeys.Full ↔ FullIfReadable io.files) ∧
      (FullIfReadable io.files → ∀ es, Along (step S) StartsFull (n.startNode io) es →
        ∃ calls puts,
          (run (step S) (n.startNode io) es).crypto.boxCalls =
              (n.startNode io).crypto.boxCalls ++ calls ∧
            (run (step S) (n.startNode io) es).puts = (n.startNode io).puts ++ puts ∧
            (∀ call ∈ calls, call.secretKey.length = crypto_box_SECRETKEYBYTES) ∧
            ∀ q ∈ puts, q.HoldsFullKey) := by
  have hIff : (n.startNode io).myKeys.Full ↔ FullIfReadable io.files := by
    rw [myKeys_startNode hStopped]
    exact full_initKeys_iff io
  refine ⟨hIff, ?_⟩
  intro hFiles es hStarts
  exact full_run S (hIff.mpr hFiles) hStarts

/-- A start as the first one of the program, on these contents of the key files. -/
def startOn (publicFile privateFile : Bytes) : P2PNode :=
  ({} : P2PNode).startNode
    { files := ⟨.content publicFile, .content privateFile⟩, generated := .constant 7 }

/-- A public key file that is not base64 is replaced. -/
theorem undecodable_key_replaced : (startOn (bytes "|") (bytes "secret")).myKeys.Full := by
  apply (startNode_full_iff (n := {}) Sodium.additive rfl _).1.mpr
  intro b64 publicKey privateKey hPublic hDecode _
  obtain rfl := KeyFile.content.inj hPublic
  have hFails : fromBase64 (bytes "|") = none := by decide +kernel
  rw [hFails] at hDecode
  cases hDecode

/-- Two empty files are taken for a pair of empty keys. -/
theorem empty_files_loaded : ¬ (startOn [] []).myKeys.Full := by
  intro hFull
  have hEmpty : (startOn [] []).myKeys.publicKey = [] := by decide +kernel
  have hLength := hFull.1
  rw [hEmpty] at hLength
  cases hLength

end P2PNode

end P2PMessenger
