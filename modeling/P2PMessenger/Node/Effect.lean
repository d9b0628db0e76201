import P2PMessenger.Node.Step

/-!
# What a step does

`lookupAction` says what a lookup callback goes on to do, and `step_effect` lists what any
event does to the members that sending and delivery depend on. The invariants of the later
files are proved from this list and never unfold the methods.
-/

namespace P2PMessenger

open Text Crypto Run

namespace P2PNode

/-! ## Starts and stops -/

theorem startNode_of_running {n : P2PNode} (h : n.running = true) (io : StartInput) :
    n.startNode io = n := by
  simp [startNode, h]

theorem startNode_of_stopped {n : P2PNode} (h : n.running = false) (io : StartInput) :
    n.startNode io = ((n.initNodeKeys io).cachePublicKey).runDht := by
  simp [startNode, h]

theorem stopNode_of_running {n : P2PNode} (h : n.running = true) :
    n.stopNode = ({ n with running := false, dht := {} } : P2PNode).notifyNetworkStatus
      (bytes "Node stopped") := by
  simp [stopNode, h]

theorem stopNode_of_stopped {n : P2PNode} (h : n.running = false) : n.stopNode = n := by
  simp [stopNode, h]

variable (S : Sodium)

/-! ## Lookup callbacks -/

/-- What a lookup callback does with its answer, apart from the window. -/
inductive LookupAction where
  /-- No such lookup, a second call behind a raised flag, or a lookup of `findPeer`. -/
  | ignore
  /-- The flag is raised, but no profile in the answer has a key. -/
  | giveUp
  | encrypt (receiverId : Bytes) (packet : EncryptedPacket) (receiverPublicKey : Bytes)
  | decrypt (senderId : Bytes) (packet : EncryptedPacket) (senderPublicKey : Bytes)
  deriving DecidableEq

def lookupAction (n : P2PNode) (op : Nat) (values : List Bytes) : LookupAction :=
  match n.pending op, profileKey values with
  | some ⟨_, .onProfileFound _ _, false⟩, none => .giveUp
  | some ⟨_, .onProfileFound receiverId packet, false⟩, some key => .encrypt receiverId packet key
  | some ⟨_, .onSenderProfileFound _ _, false⟩, none => .giveUp
  | some ⟨_, .onSenderProfileFound senderId packet, false⟩, some key => .decrypt senderId packet key
  | _, _ => .ignore

def afterLookup (n : P2PNode) (op : Nat) (values : List Bytes) (io : CallbackInput) : P2PNode :=
  match n.lookupAction op values with
  | .ignore => n
  | .giveUp => n.raiseFlag op
  | .encrypt receiverId packet key =>
    ((n.raiseFlag op).sendEncrypted S receiverId packet key io).2
  | .decrypt senderId packet key => (n.raiseFlag op).decryptResult S senderId packet key io

theorem onLookup_eq (n : P2PNode) (op : Nat) (values : List Bytes) (io : CallbackInput) :
    ∃ ui cache, n.onLookup S op values io = (n.afterLookup S op values io).showing ui cache := by
  unfold onLookup afterLookup lookupAction
  cases n.pending op with
  | none => exact ⟨_, _, rfl⟩
  | some g =>
    obtain ⟨op', callback, flag⟩ := g
    cases callback with
    | findPeer userId => exact onPeerFound_eq n userId values
    | onProfileFound receiverId packet =>
      cases flag with
      | true => exact ⟨_, _, rfl⟩
      | false =>
        obtain ⟨ui, cache, h⟩ := onProfileFound_eq S (n.raiseFlag op) receiverId packet values io
        refine ⟨ui, cache, h.trans ?_⟩
        cases profileKey values <;> rfl
    | onSenderProfileFound senderId packet =>
      cases flag with
      | true => exact ⟨_, _, rfl⟩
      | false =>
        obtain ⟨ui, cache, h⟩ := onSenderProfileFound_eq S (n.raiseFlag op) senderId packet values io
        refine ⟨ui, cache, h.trans ?_⟩
        cases profileKey values <;> rfl

theorem of_pending {n : P2PNode} {op : Nat} {g : Get} (h : n.pending op = some g) :
    n.dht.running = true ∧ g ∈ n.dht.gets ∧ g.op = op := by
  unfold pending at h
  split at h
  · rename_i hRunning
    exact ⟨hRunning, List.mem_of_find?_eq_some h, by simpa using List.find?_some h⟩
  · cases h

theorem pending_of_encrypt {n : P2PNode} {op : Nat} {values : List Bytes} {receiverId key : Bytes}
    {packet : EncryptedPacket} (h : n.lookupAction op values = .encrypt receiverId packet key) :
    n.pending op = some ⟨op, .onProfileFound receiverId packet, false⟩ ∧
      profileKey values = some key := by
  unfold lookupAction at h
  split at h <;> cases h
  rename_i op' hPending hKey
  obtain ⟨-, -, rfl⟩ := of_pending hPending
  exact ⟨hPending, hKey⟩

theorem pending_of_decrypt {n : P2PNode} {op : Nat} {values : List Bytes} {senderId key : Bytes}
    {packet : EncryptedPacket} (h : n.lookupAction op values = .decrypt senderId packet key) :
    n.pending op = some ⟨op, .onSenderProfileFound senderId packet, false⟩ ∧
      profileKey values = some key := by
  unfold lookupAction at h
  split at h <;> cases h
  rename_i op' hPending hKey
  obtain ⟨-, -, rfl⟩ := of_pending hPending
  exact ⟨hPending, hKey⟩

/-- Raising a flag leaves every unflagged lookup that remains as it was. -/
theorem mem_raiseFlag_gets {n : P2PNode} {op : Nat} {g : Get}
    (h : g ∈ (n.raiseFlag op).dht.gets) (hFlag : g.flag = false) :
    g ∈ n.dht.gets ∧ g.op ≠ op := by
  obtain ⟨g', hg', rfl⟩ := List.mem_map.mp h
  split at hFlag
  · cases hFlag
  · rename_i hOp
    rw [if_neg hOp]
    exact ⟨hg', hOp⟩

/-- The call of `decrypt` behind a usable sender key. -/
def decryption (n : P2PNode) (senderId : Bytes) (packet : EncryptedPacket) (key : Bytes)
    (io : CallbackInput) : Except Bytes Bytes × CryptoService :=
  n.crypto.decrypt S (n.inbound senderId packet) n.myKeys.privateKey key n.myId io.now

theorem decryptResult_of_error {n : P2PNode} {senderId : Bytes} {packet : EncryptedPacket}
    {key error : Bytes} {io : CallbackInput}
    (h : (n.decryption S senderId packet key io).1 = .error error) :
    n.decryptResult S senderId packet key io =
      { n with crypto := (n.decryption S senderId packet key io).2 } := by
  unfold decryptResult decryption at *
  split
  · rename_i hResult
    rw [hResult]
  · rename_i hResult
    rw [hResult] at h
    cases h

theorem decryptResult_of_ok {n : P2PNode} {senderId : Bytes} {packet : EncryptedPacket}
    {key plainText : Bytes} {io : CallbackInput}
    (h : (n.decryption S senderId packet key io).1 = .ok plainText) :
    n.decryptResult S senderId packet key io =
      { n with crypto := (n.decryption S senderId packet key io).2 }.delivered senderId packet
        plainText io.now := by
  unfold decryptResult decryption at *
  split
  · rename_i hResult
    rw [hResult] at h
    cases h
  · rename_i hResult
    rw [hResult] at h ⊢
    cases h
    rfl

theorem decryptResult_of_not_reaches {n : P2PNode} {senderId : Bytes} {packet : EncryptedPacket}
    {key : Bytes} {io : CallbackInput}
    (h : ¬ n.crypto.Reaches (n.inbound senderId packet) key n.myId io.now) :
    n.decryptResult S senderId packet key io = n := by
  obtain ⟨error, hError⟩ := CryptoService.decrypt_of_not_reaches S n.myKeys.privateKey h
  simp only [decryptResult, hError]

/-- Of a packet that reaches the replay state, the text decides what follows. -/
theorem decryptResult_of_reaches {n : P2PNode} {senderId : Bytes} {packet : EncryptedPacket}
    {key : Bytes} {io : CallbackInput}
    (h : n.crypto.Reaches (n.inbound senderId packet) key n.myId io.now) :
    ∃ crypto : CryptoService,
      crypto.seenMessageIds = (n.crypto.record senderId packet.messageId).seenMessageIds ∧
      n.decryptResult S senderId packet key io =
        match CryptoService.openedText S (n.inbound senderId packet) n.myKeys.privateKey key with
        | none => { n with crypto := crypto }
        | some text => { n with crypto := crypto }.delivered senderId packet text io.now := by
  refine ⟨(n.decryption S senderId packet key io).2, ?_, ?_⟩
  · rw [decryption, CryptoService.decrypt_seenMessageIds, if_pos h]
    rfl
  · have hOk (text : Bytes) : (n.decryption S senderId packet key io).1 = .ok text ↔
        CryptoService.openedText S (n.inbound senderId packet) n.myKeys.privateKey key =
          some text :=
      (CryptoService.decrypt_ok_iff S _ _ _ _ _ _).trans (and_iff_right h)
    cases hResult : (n.decryption S senderId packet key io).1 with
    | ok text => rw [decryptResult_of_ok S hResult, (hOk text).mp hResult]
    | error error =>
      rw [decryptResult_of_error S hResult]
      cases hText : CryptoService.openedText S (n.inbound senderId packet) n.myKeys.privateKey
          key with
      | none => rfl
      | some text =>
        rw [(hOk text).mpr hText] at hResult
        cases hResult

theorem decryptResult_crypto (n : P2PNode) (senderId : Bytes) (packet : EncryptedPacket)
    (key : Bytes) (io : CallbackInput) :
    (n.decryptResult S senderId packet key io).crypto =
      (n.decryption S senderId packet key io).2 := by
  cases hResult : (n.decryption S senderId packet key io).1 with
  | error what => rw [decryptResult_of_error S hResult]
  | ok plainText =>
    rw [decryptResult_of_ok S hResult]
    rfl

/-- Two states of one session: the id, the keys and the registration are the same. -/
structure SameSession (n m : P2PNode) : Prop where
  myId : m.myId = n.myId
  myKeys : m.myKeys = n.myKeys
  keyOwner : m.keyOwner = n.keyOwner
  session : m.session = n.session
  running : m.running = n.running
  dhtRunning : m.dht.running = n.dht.running
  listenName : m.dht.listenName = n.dht.listenName

theorem SameSession.refl (n : P2PNode) : SameSession n n := ⟨rfl, rfl, rfl, rfl, rfl, rfl, rfl⟩

theorem SameSession.trans {n m k : P2PNode} (h : SameSession n m) (h' : SameSession m k) :
    SameSession n k where
  myId := h'.myId.trans h.myId
  myKeys := h'.myKeys.trans h.myKeys
  keyOwner := h'.keyOwner.trans h.keyOwner
  session := h'.session.trans h.session
  running := h'.running.trans h.running
  dhtRunning := h'.dhtRunning.trans h.dhtRunning
  listenName := h'.listenName.trans h.listenName

theorem sameSession_afterLookup (n : P2PNode) (op : Nat) (values : List Bytes)
    (io : CallbackInput) : SameSession n (n.afterLookup S op values io) := by
  unfold afterLookup
  cases n.lookupAction op values with
  | ignore => exact SameSession.refl n
  | giveUp => exact ⟨rfl, rfl, rfl, rfl, rfl, rfl, rfl⟩
  | encrypt receiverId packet key =>
    simp only [sendEncrypted_eq]
    exact ⟨rfl, rfl, rfl, rfl, rfl, rfl, rfl⟩
  | decrypt senderId packet key =>
    simp only [decryptResult]
    split <;> exact ⟨rfl, rfl, rfl, rfl, rfl, rfl, rfl⟩

/-! ## All events -/

/-- The members that neither sending nor delivery reads. -/
structure Rest where
  publicKeyB64 : Bytes
  peerPublicKeys : List (Bytes × Bytes)
  port : Nat
  bootstrapHost : Bytes
  puts : List Put
  ui : List UiEvent
  dialled : List (Bytes × Bytes)

def rest (n : P2PNode) : Rest :=
  ⟨n.publicKeyB64, n.peerPublicKeys, n.port, n.bootstrapHost, n.puts, n.ui, n.dialled⟩

def withRest (n : P2PNode) (r : Rest) : P2PNode :=
  { n with
    publicKeyB64 := r.publicKeyB64
    peerPublicKeys := r.peerPublicKeys
    port := r.port
    bootstrapHost := r.bootstrapHost
    puts := r.puts
    ui := r.ui
    dialled := r.dialled }

/-- What an event makes of the other members. -/
def effect (n : P2PNode) : Event → P2PNode
  | .setNodeConfig _ id => { n with myId := if id = [] then n.myId else trim isSpace id }
  | .startNode io =>
    if n.running then n
    else { n with
      crypto := { boxCalls := n.crypto.boxCalls }
      myKeys := (initKeys io).1
      keyOwner := n.myId
      session := n.session + 1
      running := true
      dht := { n.dht with running := true, listenName := some (inboxName n.myId) } }
  | .stopNode => if n.running then { n with running := false, dht := {} } else n
  | .sendMessage op toPeerId text =>
    if n.myId = [] then n
    else n.sendPacket op toPeerId
      { senderId := n.myId, receiverId := toPeerId, ciphertext := text }
  | .publishProfile profile => { n with currentProfile := profile }
  | .findPeer op userId => n.dhtGet op (.findPeer userId)
  | .inbox values expired =>
    if n.dht.listenName.isSome ∧ expired = false then
      { n with dht := { n.dht with gets := n.valueGets values ++ n.dht.gets } }
    else n
  | .lookup op values io => n.afterLookup S op values io
  | _ => n

theorem step_effect (n : P2PNode) (e : Event) :
    ∃ rest, n.step S e = (n.effect S e).withRest rest := by
  refine ⟨(n.step S e).rest, ?_⟩
  cases e with
  | startNode io =>
    simp only [step, startNode, effect]
    split <;> rfl
  | stopNode =>
    simp only [step, stopNode, effect]
    cases n.running <;> rfl
  | setBootstrapHost host =>
    simp only [step, setBootstrapHost, effect]
    split <;> rfl
  | bootstrap ip port =>
    simp only [step, bootstrap, setBootstrapHost, effect]
    split <;> rfl
  | sendMessage op toPeerId text =>
    simp only [step, sendMessage, effect]
    split <;> rfl
  | profilePut profile success =>
    obtain ⟨ui, cache, h⟩ := onProfilePut_eq n profile success
    simp only [step, h, effect]
    split <;> rfl
  | refreshProfile =>
    simp only [step, refreshProfile, effect]
    split
    · split <;> rfl
    · rfl
  | inbox values expired =>
    simp only [step, onMessageReceived_eq, effect]
    cases n.dht.listenName.isSome <;> cases expired <;> rfl
  | lookup op values io =>
    obtain ⟨ui, cache, h⟩ := onLookup_eq S n op values io
    simp only [step, h, effect]
    rfl
  | _ => rfl

/-! ## Events within a session -/

theorem step_sameSession {n : P2PNode} {e : Event} (h : e.keeps = true) :
    SameSession n (n.step S e) := by
  obtain ⟨rest, hStep⟩ := step_effect S n e
  have hEffect : SameSession n (n.effect S e) := by
    cases e with
    | setNodeConfig port id => cases h
    | startNode io => cases h
    | stopNode => cases h
    | sendMessage op toPeerId text =>
      simp only [effect]
      split
      · exact SameSession.refl n
      · exact ⟨rfl, rfl, rfl, rfl, rfl, rfl, rfl⟩
    | inbox values expired =>
      simp only [effect]
      split
      · exact ⟨rfl, rfl, rfl, rfl, rfl, rfl, rfl⟩
      · exact SameSession.refl n
    | lookup op values io => exact sameSession_afterLookup S n op values io
    | _ => exact ⟨rfl, rfl, rfl, rfl, rfl, rfl, rfl⟩
  rw [hStep]
  -- none of these members is among the rest
  exact ⟨hEffect.myId, hEffect.myKeys, hEffect.keyOwner, hEffect.session, hEffect.running,
    hEffect.dhtRunning, hEffect.listenName⟩

theorem run_sameSession {n : P2PNode} {es : List Event}
    (h : Along (step S) (fun _ e => e.keeps = true) n es) :
    SameSession n (run (step S) n es) :=
  run_invariant_along (I := SameSession n)
    (fun _ _ hSame hKeeps => hSame.trans (step_sameSession S hKeeps)) (SameSession.refl n) h

/-! ## The histories -/

/-- A call of `decrypt`: the claimed sender, the packet as it was parsed, the key that the
lookup returned and the clock. -/
structure Attempt where
  senderId : Bytes
  packet : EncryptedPacket
  key : Bytes
  clock : Int
  deriving DecidableEq

def attempt (n : P2PNode) : Event → Option Attempt
  | .lookup op values io =>
    match n.lookupAction op values with
    | .decrypt senderId packet key => some ⟨senderId, packet, key, io.now⟩
    | _ => none
  | _ => none

theorem attempt_of_decrypt {n : P2PNode} {op : Nat} {values : List Bytes} {senderId key : Bytes}
    {packet : EncryptedPacket} (hAction : n.lookupAction op values = .decrypt senderId packet key)
    (io : CallbackInput) :
    n.attempt (.lookup op values io) = some ⟨senderId, packet, key, io.now⟩ := by
  simp only [attempt, hAction]

/-- The box calls of an event. -/
def newCalls (n : P2PNode) : Event → List BoxCall
  | .lookup op values io =>
    match n.lookupAction op values with
    | .encrypt _ packet key =>
      [.easy packet.ciphertext io.draws.nonce key n.myKeys.privateKey
        (S.boxEasy packet.ciphertext io.draws.nonce key n.myKeys.privateKey)]
    | .decrypt senderId packet key =>
      if n.crypto.Reaches (n.inbound senderId packet) key n.myId io.now then
        CryptoService.openCalls S (n.inbound senderId packet) n.myKeys.privateKey key
      else []
    | _ => []
  | _ => []

theorem afterLookup_boxCalls (n : P2PNode) (op : Nat) (values : List Bytes) (io : CallbackInput) :
    (n.afterLookup S op values io).crypto.boxCalls =
      n.crypto.boxCalls ++ n.newCalls S (.lookup op values io) := by
  simp only [afterLookup, newCalls]
  cases n.lookupAction op values with
  | ignore => simp
  | giveUp => simp [raiseFlag]
  | encrypt receiverId packet key =>
    simp only [sendEncrypted_eq]
    rfl
  | decrypt senderId packet key =>
    simp only [decryptResult_crypto, decryption, CryptoService.decrypt_boxCalls]
    rfl

theorem step_boxCalls (n : P2PNode) (e : Event) :
    (n.step S e).crypto.boxCalls = n.crypto.boxCalls ++ n.newCalls S e := by
  obtain ⟨rest, hStep⟩ := step_effect S n e
  rw [hStep]
  cases e with
  | lookup op values io => exact afterLookup_boxCalls S n op values io
  | _ =>
    simp only [effect, newCalls, List.append_nil]
    try split
    all_goals rfl

/-- The value that `publishProfile` puts. -/
def profilePut (n : P2PNode) (profile : UserProfile) : Put :=
  { name := profile.userId, payload := profilePayload profile n.myKeys.publicKey,
    origin := .publishProfile profile, session := n.session }

theorem publishProfile_puts (n : P2PNode) (profile : UserProfile) :
    (n.publishProfile profile).puts = n.puts ++ [n.profilePut profile] := rfl

/-- The values an event puts into the DHT. -/
def newPuts (n : P2PNode) : Event → List Put
  | .publishProfile profile => [n.profilePut profile]
  | .refreshProfile =>
    if n.running ∧ n.currentProfile.userId ≠ [] then [n.profilePut n.currentProfile] else []
  | .lookup op values io =>
    match n.lookupAction op values with
    | .encrypt receiverId packet key =>
      match S.boxEasy packet.ciphertext io.draws.nonce key n.myKeys.privateKey with
      | none => []
      | some ciphertext =>
        [n.messagePut (CryptoService.sealedPacket n.myId receiverId io.draws io.now ciphertext)]
    | _ => []
  | _ => []

theorem newPuts_session {n : P2PNode} {e : Event} :
    ∀ q ∈ n.newPuts S e, q.session = n.session := by
  intro q hq
  unfold newPuts at hq
  split at hq
  · rw [List.mem_singleton.mp hq]
    rfl
  · split at hq
    · rw [List.mem_singleton.mp hq]
      rfl
    · cases hq
  · split at hq
    · split at hq
      · cases hq
      · rw [List.mem_singleton.mp hq]
        rfl
    · cases hq
  · cases hq

/-- The messages an event reports. -/
def newReports (n : P2PNode) : Event → List Report
  | .lookup op values io =>
    match n.lookupAction op values with
    | .decrypt senderId packet key =>
      match (n.decryption S senderId packet key io).1 with
      | .error _ => []
      | .ok plainText => [⟨senderId, plainText, n.inbound senderId packet, io.now⟩]
    | _ => []
  | _ => []

theorem step_puts (n : P2PNode) (e : Event) : (n.step S e).puts = n.puts ++ n.newPuts S e := by
  cases e with
  | startNode io =>
    simp only [step, startNode, newPuts, List.append_nil]
    split <;> rfl
  | stopNode =>
    simp only [step, stopNode, newPuts, List.append_nil]
    split <;> rfl
  | setBootstrapHost host =>
    simp only [step, setBootstrapHost, newPuts, List.append_nil]
    split <;> rfl
  | bootstrap ip port =>
    simp only [step, bootstrap, setBootstrapHost, newPuts, List.append_nil]
    split <;> rfl
  | sendMessage op toPeerId text =>
    simp only [step, sendMessage, newPuts, List.append_nil]
    split <;> rfl
  | profilePut profile success =>
    obtain ⟨ui, cache, h⟩ := onProfilePut_eq n profile success
    simp only [step, h, newPuts, List.append_nil]
    split <;> rfl
  | refreshProfile =>
    simp only [step, refreshProfile, newPuts]
    by_cases hRunning : n.running = true
    · by_cases hId : n.currentProfile.userId = []
      · simp [hRunning, hId]
      · simp [hRunning, hId, publishProfile_puts]
    · simp [hRunning]
  | inbox values expired =>
    simp only [step, onMessageReceived_eq, newPuts, List.append_nil]
    split
    · split <;> rfl
    · rfl
  | lookup op values io =>
    obtain ⟨ui, cache, h⟩ := onLookup_eq S n op values io
    simp only [step, h, showing, newPuts, afterLookup]
    cases n.lookupAction op values with
    | ignore => simp
    | giveUp => simp [raiseFlag]
    | encrypt receiverId packet key =>
      simp only [sendEncrypted_eq]
      rfl
    | decrypt senderId packet key =>
      simp only [decryptResult, List.append_nil]
      split <;> rfl
  | publishProfile profile => exact publishProfile_puts n profile
  | setNodeConfig port id => simp [step, setNodeConfig, newPuts]
  | findPeer op userId => simp [step, findPeer, dhtGet, notifyNetworkStatus, newPuts]

theorem afterLookup_reports (n : P2PNode) (op : Nat) (values : List Bytes) (io : CallbackInput) :
    (n.afterLookup S op values io).reports =
      n.reports ++ n.newReports S (.lookup op values io) := by
  simp only [afterLookup, newReports]
  cases n.lookupAction op values with
  | ignore => simp
  | giveUp => simp [raiseFlag]
  | encrypt receiverId packet key =>
    simp only [sendEncrypted_eq, List.append_nil]
    rfl
  | decrypt senderId packet key =>
    -- raising the flag changes nothing that `decrypt` reads
    cases hResult : (n.decryption S senderId packet key io).1 with
    | error error =>
      have hFlagged : ((n.raiseFlag op).decryption S senderId packet key io).1 = .error error :=
        hResult
      simp only [decryptResult_of_error S hFlagged, hResult, List.append_nil]
      rfl
    | ok plainText =>
      have hFlagged : ((n.raiseFlag op).decryption S senderId packet key io).1 = .ok plainText :=
        hResult
      simp only [decryptResult_of_ok S hFlagged, hResult]
      rfl

theorem step_reports (n : P2PNode) (e : Event) :
    (n.step S e).reports = n.reports ++ n.newReports S e := by
  obtain ⟨rest, hStep⟩ := step_effect S n e
  rw [hStep]
  cases e with
  | lookup op values io => exact afterLookup_reports S n op values io
  | _ =>
    simp only [effect, newReports, List.append_nil]
    try split
    all_goals rfl

/-- A report comes from a lookup of the sender whose answer had a key, for a packet that
passed the validation and opened under that key. -/
theorem mem_newReports {n : P2PNode} {e : Event} {r : Report} (h : r ∈ n.newReports S e) :
    ∃ op values io senderId packet key,
      e = .lookup op values io ∧ n.lookupAction op values = .decrypt senderId packet key ∧
        n.crypto.Reaches (n.inbound senderId packet) key n.myId io.now ∧
        CryptoService.openedText S (n.inbound senderId packet) n.myKeys.privateKey key =
          some r.text ∧
        r = ⟨senderId, r.text, n.inbound senderId packet, io.now⟩ := by
  unfold newReports at h
  split at h
  · rename_i op values io
    split at h
    · rename_i senderId packet key hAction
      split at h
      · cases h
      · rename_i plainText hResult
        obtain ⟨hReaches, hOpens⟩ := (CryptoService.decrypt_ok_iff S _ _ _ _ _ _).mp hResult
        obtain rfl := List.mem_singleton.mp h
        exact ⟨op, values, io, senderId, packet, key, rfl, hAction, hReaches, hOpens, rfl⟩
    · cases h
  · cases h

/-! ## Lookups -/

theorem afterLookup_dht (n : P2PNode) (op : Nat) (values : List Bytes) (io : CallbackInput) :
    (n.afterLookup S op values io).dht = n.dht ∨
      (n.afterLookup S op values io).dht = (n.raiseFlag op).dht := by
  unfold afterLookup
  cases n.lookupAction op values with
  | ignore => exact Or.inl rfl
  | giveUp => exact Or.inr rfl
  | encrypt receiverId packet key => exact Or.inr (by simp only [sendEncrypted_eq])
  | decrypt senderId packet key =>
    refine Or.inr ?_
    simp only [decryptResult]
    split <;> rfl

theorem of_mem_raiseFlag_gets {n : P2PNode} {op : Nat} {g : Get}
    (h : g ∈ (n.raiseFlag op).dht.gets) : ∃ flag, { g with flag := flag } ∈ n.dht.gets := by
  obtain ⟨g', hg', rfl⟩ := List.mem_map.mp h
  split
  · exact ⟨g'.flag, hg'⟩
  · exact ⟨g'.flag, hg'⟩

/-- A lookup of a batch belongs to a value that names another sender and parses to a packet
whose pair was not delivered. -/
theorem mem_valueGets {n : P2PNode} {values : List (Nat × Bytes)} {g : Get}
    (h : g ∈ n.valueGets values) :
    ∃ payload senderId packet body, (g.op, payload) ∈ values ∧
      g = ⟨g.op, .onSenderProfileFound senderId packet, false⟩ ∧
      parseDhtMessagePayload payload = some (senderId, body) ∧ senderId ≠ n.myId ∧
      parseSecureBody body { version := 1, senderId := senderId, receiverId := n.myId } =
        some packet ∧
      buildInboxDedupeKey senderId packet.messageId ∉ n.deliveredInboxKeys := by
  unfold valueGets at h
  obtain ⟨⟨op, payload⟩, hValue, hMap⟩ := List.mem_filterMap.mp (List.mem_reverse.mp h)
  obtain ⟨⟨senderId, packet⟩, hLookup, rfl⟩ := Option.map_eq_some_iff.mp hMap
  obtain ⟨body, hPayload, hMe, hBody, hKey⟩ := valueLookup_eq_some hLookup
  exact ⟨payload, senderId, packet, body, hValue, rfl, hPayload, hMe, hBody, hKey⟩

/-- A lookup was there before, or the event started it. -/
theorem mem_step_gets {n : P2PNode} {e : Event} {g : Get} (h : g ∈ (n.step S e).dht.gets) :
    (∃ flag, { g with flag := flag } ∈ n.dht.gets) ∨
      (∃ toPeerId text, e = .sendMessage g.op toPeerId text ∧ g.callback =
        .onProfileFound toPeerId
          { senderId := n.myId, receiverId := toPeerId, ciphertext := text }) ∨
      (∃ userId, e = .findPeer g.op userId ∧ g.callback = .findPeer userId) ∨
      ∃ values, e = .inbox values false ∧ g ∈ n.valueGets values := by
  obtain ⟨rest, hStep⟩ := step_effect S n e
  rw [hStep] at h
  replace h : g ∈ (n.effect S e).dht.gets := h
  cases e with
  | startNode io =>
    simp only [effect] at h
    split at h <;> exact Or.inl ⟨g.flag, h⟩
  | stopNode =>
    simp only [effect] at h
    split at h
    · cases h
    · exact Or.inl ⟨g.flag, h⟩
  | sendMessage op toPeerId text =>
    simp only [effect] at h
    split at h
    · exact Or.inl ⟨g.flag, h⟩
    · rcases List.mem_cons.mp h with rfl | hOld
      · exact Or.inr (Or.inl ⟨toPeerId, text, rfl, rfl⟩)
      · exact Or.inl ⟨g.flag, hOld⟩
  | findPeer op userId =>
    rcases List.mem_cons.mp h with rfl | hOld
    · exact Or.inr (Or.inr (Or.inl ⟨userId, rfl, rfl⟩))
    · exact Or.inl ⟨g.flag, hOld⟩
  | inbox values expired =>
    simp only [effect] at h
    split at h
    · rename_i hListening
      obtain ⟨-, rfl⟩ := hListening
      rcases List.mem_append.mp h with hNew | hOld
      · exact Or.inr (Or.inr (Or.inr ⟨values, rfl, hNew⟩))
      · exact Or.inl ⟨g.flag, hOld⟩
    · exact Or.inl ⟨g.flag, h⟩
  | lookup op values io =>
    refine Or.inl ?_
    simp only [effect] at h
    rcases afterLookup_dht S n op values io with hEq | hEq
    · rw [hEq] at h
      exact ⟨g.flag, h⟩
    · rw [hEq] at h
      exact of_mem_raiseFlag_gets h
  | _ => exact Or.inl ⟨g.flag, h⟩

end P2PNode

end P2PMessenger
