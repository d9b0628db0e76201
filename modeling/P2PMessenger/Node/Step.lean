import P2PMessenger.Node.State
import P2PMessenger.Run.Trace

/-!
# The node as a machine

An event is a call of a public method, a callback of the DHT or a refresh by the worker
thread, with everything the environment chooses: texts, ids, draws, clock readings and the
values found in the DHT. Callbacks run one at a time and only while the runner is up; the
listener needs a registration and a lookup callback a lookup that was started. Nothing
else restricts the order of events.

The second half gives the equations of the two long callbacks, up to what they queue for
the window (`showing`), and what a batch of inbox values adds to the lookups.
-/

namespace P2PMessenger

open Text Crypto

inductive Event where
  | setNodeConfig (port : Nat) (id : Bytes)
  | startNode (io : StartInput)
  | stopNode
  | setBootstrapHost (host : Bytes)
  | bootstrap (ip port : Bytes)
  | sendMessage (op : Nat) (toPeerId text : Bytes)
  | publishProfile (profile : UserProfile)
  | profilePut (profile : UserProfile) (success : Bool)
  | refreshProfile
  | findPeer (op : Nat) (userId : Bytes)
  | inbox (values : List (Nat × Bytes)) (expired : Bool)
  | lookup (op : Nat) (values : List Bytes) (io : CallbackInput)

/-- The event neither configures nor starts nor stops the node. -/
def Event.keeps : Event → Bool
  | .setNodeConfig _ _ | .startNode _ | .stopNode => false
  | _ => true

namespace P2PNode

variable (S : Sodium)

/-- The lookup `op`, if it was started and the runner is up. -/
def pending (n : P2PNode) (op : Nat) : Option Get :=
  if n.dht.running then n.dht.gets.find? fun g => g.op = op else none

/-- A lookup callback with its flag: only the first call of a flagged closure does anything. -/
def onLookup (n : P2PNode) (op : Nat) (values : List Bytes) (io : CallbackInput) : P2PNode :=
  match n.pending op with
  | none => n
  | some g =>
    match g.callback with
    | .onProfileFound receiverId packet =>
      if g.flag then n else (n.raiseFlag op).onProfileFound S receiverId packet values io
    | .onSenderProfileFound senderId packet =>
      if g.flag then n else (n.raiseFlag op).onSenderProfileFound S senderId packet values io
    | .findPeer userId => n.onPeerFound userId values

def step (n : P2PNode) : Event → P2PNode
  | .setNodeConfig port id => n.setNodeConfig port id
  | .startNode io => n.startNode io
  | .stopNode => n.stopNode
  | .setBootstrapHost host => n.setBootstrapHost host
  | .bootstrap ip port => n.bootstrap ip port
  | .sendMessage op toPeerId text => n.sendMessage op toPeerId text
  | .publishProfile profile => n.publishProfile profile
  | .profilePut profile success => if n.dht.running then n.onProfilePut profile success else n
  | .refreshProfile => if n.running then n.refreshProfile else n
  | .findPeer op userId => n.findPeer op userId
  | .inbox values expired =>
    if n.dht.listenName.isSome then n.onMessageReceived values expired else n
  | .lookup op values io => n.onLookup S op values io

/-! ## Results up to the window -/

/-- The node with other window events and another key cache. No step reads the cache. -/
def showing (n : P2PNode) (ui : List UiEvent) (cache : List (Bytes × Bytes)) : P2PNode :=
  { n with ui := ui, peerPublicKeys := cache }

theorem cachePeerPublicKey_eq (n : P2PNode) (userId key : Bytes) :
    ∃ cache, n.cachePeerPublicKey userId key = n.showing n.ui cache := by
  unfold cachePeerPublicKey
  split
  · exact ⟨_, rfl⟩
  · exact ⟨_, rfl⟩

theorem onProfilePut_eq (n : P2PNode) (profile : UserProfile) (success : Bool) :
    ∃ ui cache, n.onProfilePut profile success = n.showing ui cache := by
  unfold onProfilePut
  split
  · obtain ⟨cache, h⟩ := cachePeerPublicKey_eq
      (n.notifyNetworkStatus (bytes "Profile published to DHT")) profile.userId n.myKeys.publicKey
    exact ⟨_, cache, h⟩
  · exact ⟨_, _, rfl⟩

theorem foundPeerValue_eq (n : P2PNode) (userId payload : Bytes) :
    ∃ ui cache, n.foundPeerValue userId payload = n.showing ui cache := by
  unfold foundPeerValue
  split
  · exact ⟨_, _, rfl⟩
  · split
    · exact ⟨_, _, rfl⟩
    · rename_i key _
      obtain ⟨cache, h⟩ := cachePeerPublicKey_eq n userId key
      rw [h]
      exact ⟨_, cache, rfl⟩

theorem foldl_foundPeerValue_eq (n : P2PNode) (userId : Bytes) (values : List Bytes) :
    ∃ ui cache, values.foldl (fun n payload => n.foundPeerValue userId payload) n =
      n.showing ui cache := by
  induction values generalizing n with
  | nil => exact ⟨_, _, rfl⟩
  | cons payload rest ih =>
    obtain ⟨ui, cache, h⟩ := foundPeerValue_eq n userId payload
    obtain ⟨ui', cache', h'⟩ := ih (n.showing ui cache)
    exact ⟨ui', cache', by rw [List.foldl_cons, h, h']; rfl⟩

theorem onPeerFound_eq (n : P2PNode) (userId : Bytes) (values : List Bytes) :
    ∃ ui cache, n.onPeerFound userId values = n.showing ui cache := by
  unfold onPeerFound
  split
  · exact ⟨_, _, rfl⟩
  · obtain ⟨ui, cache, h⟩ := foldl_foundPeerValue_eq n userId values
    rw [h]
    exact ⟨_, cache, rfl⟩

/-! ## The callback of `sendPacket` -/

/-- The value that `sendEncrypted` puts into the inbox of the receiver. -/
def messagePut (n : P2PNode) (packet : EncryptedPacket) : Put :=
  { name := inboxName packet.receiverId, payload := fullPayload n.myId packet,
    origin := .sendPacket packet, session := n.session }

theorem sendEncrypted_eq (n : P2PNode) (receiverId : Bytes) (packet : EncryptedPacket)
    (key : Bytes) (io : CallbackInput) :
    (n.sendEncrypted S receiverId packet key io).2 =
      { n with
        crypto := n.crypto.logCall (.easy packet.ciphertext io.draws.nonce key n.myKeys.privateKey
          (S.boxEasy packet.ciphertext io.draws.nonce key n.myKeys.privateKey))
        puts := n.puts ++
          match S.boxEasy packet.ciphertext io.draws.nonce key n.myKeys.privateKey with
          | none => []
          | some ciphertext =>
            [n.messagePut (CryptoService.sealedPacket n.myId receiverId io.draws io.now
              ciphertext)] } := by
  unfold sendEncrypted
  rw [CryptoService.encrypt_eq]
  cases S.boxEasy packet.ciphertext io.draws.nonce key n.myKeys.privateKey with
  | none => simp
  | some ciphertext => rfl

/-- A usable profile leads to one box call and, if that succeeds, to one value in the inbox
of the receiver; any other answer changes nothing but the window. -/
theorem onProfileFound_eq (n : P2PNode) (receiverId : Bytes) (packet : EncryptedPacket)
    (values : List Bytes) (io : CallbackInput) :
    ∃ ui cache, n.onProfileFound S receiverId packet values io =
      match profileKey values with
      | none => n.showing ui cache
      | some key => (n.sendEncrypted S receiverId packet key io).2.showing ui cache := by
  unfold onProfileFound profileKey
  cases values with
  | nil => exact ⟨_, _, rfl⟩
  | cons payload rest =>
    simp only [List.head?_cons, Option.bind_eq_bind, Option.bind_some]
    cases cutLast pipe payload with
    | none => exact ⟨_, _, rfl⟩
    | some parts =>
      simp only [Option.bind_some]
      cases fromBase64 parts.2 with
      | none => exact ⟨_, _, rfl⟩
      | some key =>
        obtain ⟨cache, hCache⟩ := cachePeerPublicKey_eq n receiverId key
        simp only [hCache]
        unfold sendEncrypted
        simp only [showing]
        generalize n.crypto.encrypt S packet.ciphertext key n.myKeys.privateKey n.myId receiverId
          io.draws io.now = result
        obtain ⟨result, crypto⟩ := result
        cases result with
        | error what => exact ⟨_, _, rfl⟩
        | ok securePacket => exact ⟨_, _, rfl⟩

/-! ## The callback of `deliverSecureInboxMessage` -/

/-- The packet that is decrypted: its ids are those of the value's header and of this node. -/
def inbound (n : P2PNode) (senderId : Bytes) (packet : EncryptedPacket) : EncryptedPacket :=
  { packet with senderId := senderId, receiverId := n.myId }

/-- The state after `decrypt` accepted a packet. -/
def delivered (n : P2PNode) (senderId : Bytes) (packet : EncryptedPacket) (plainText : Bytes)
    (clock : Int) : P2PNode :=
  { n with
    deliveredInboxKeys :=
      n.deliveredInboxKeys.insert (buildInboxDedupeKey senderId packet.messageId)
    reports := n.reports ++ [⟨senderId, plainText, n.inbound senderId packet, clock⟩] }

/-- What a usable sender key leads to. -/
def decryptResult (n : P2PNode) (senderId : Bytes) (packet : EncryptedPacket) (key : Bytes)
    (io : CallbackInput) : P2PNode :=
  match n.crypto.decrypt S (n.inbound senderId packet) n.myKeys.privateKey key n.myId io.now with
  | (.error _, crypto) => { n with crypto := crypto }
  | (.ok plainText, crypto) =>
    { n with crypto := crypto }.delivered senderId packet plainText io.now

theorem onSenderProfileFound_eq (n : P2PNode) (senderId : Bytes) (packet : EncryptedPacket)
    (values : List Bytes) (io : CallbackInput) :
    ∃ ui cache, n.onSenderProfileFound S senderId packet values io =
      match profileKey values with
      | none => n.showing ui cache
      | some key => (n.decryptResult S senderId packet key io).showing ui cache := by
  unfold onSenderProfileFound profileKey
  cases values with
  | nil => exact ⟨_, _, rfl⟩
  | cons payload rest =>
    simp only [List.head?_cons, Option.bind_eq_bind, Option.bind_some]
    cases cutLast pipe payload with
    | none => exact ⟨_, _, rfl⟩
    | some parts =>
      simp only [Option.bind_some]
      cases fromBase64 parts.2 with
      | none =>
        dsimp only
        split
        · exact ⟨_, _, rfl⟩
        · exact ⟨_, _, rfl⟩
      | some key =>
        obtain ⟨cache, hCache⟩ := cachePeerPublicKey_eq n senderId key
        simp only [hCache]
        unfold decryptWithSenderKey decryptResult inbound
        simp only [showing]
        generalize n.crypto.decrypt S _ n.myKeys.privateKey key n.myId io.now = result
        obtain ⟨result, crypto⟩ := result
        cases result with
        | error what =>
          dsimp only
          split
          · exact ⟨_, _, rfl⟩
          · exact ⟨_, _, rfl⟩
        | ok plainText => exact ⟨_, _, rfl⟩

/-! ## Inbox values -/

/-- The lookup an inbox value starts, if the listener keeps it. -/
def valueLookup (n : P2PNode) (payload : Bytes) : Option (Bytes × EncryptedPacket) :=
  match parseDhtMessagePayload payload with
  | none => none
  | some (senderId, encryptedBody) =>
    if senderId = n.myId then none
    else
      match parseSecureBody encryptedBody
          { version := 1, senderId := senderId, receiverId := n.myId } with
      | none => none
      | some packet =>
        if n.wasInboxMessageDelivered senderId packet.messageId then none
        else some (senderId, packet)

theorem receiveValue_eq (n : P2PNode) (op : Nat) (payload : Bytes) :
    n.receiveValue op payload =
      match n.valueLookup payload with
      | none => n
      | some (senderId, packet) => n.deliverSecureInboxMessage op senderId packet := by
  unfold receiveValue valueLookup
  cases hParse : parseDhtMessagePayload payload with
  | none => rfl
  | some parts =>
    obtain ⟨senderId, body⟩ := parts
    simp only [senderId_ne_nil hParse, false_or]
    split
    · rfl
    · cases parseSecureBody body _ with
      | none => rfl
      | some packet =>
        cases hSeen : n.wasInboxMessageDelivered senderId packet.messageId
        · simp [hSeen]
        · simp [hSeen]

/-- What an accepted inbox value was parsed from. -/
theorem valueLookup_eq_some {n : P2PNode} {payload senderId : Bytes} {packet : EncryptedPacket}
    (h : n.valueLookup payload = some (senderId, packet)) :
    ∃ body, parseDhtMessagePayload payload = some (senderId, body) ∧ senderId ≠ n.myId ∧
      parseSecureBody body { version := 1, senderId := senderId, receiverId := n.myId } =
        some packet ∧
      buildInboxDedupeKey senderId packet.messageId ∉ n.deliveredInboxKeys := by
  unfold valueLookup at h
  split at h
  · cases h
  · rename_i sender body hParse
    split at h
    · cases h
    · rename_i hMe
      split at h
      · cases h
      · rename_i packet' hBody
        split at h
        · cases h
        · rename_i hDelivered
          obtain ⟨rfl, rfl⟩ := Prod.mk.inj (Option.some.inj h)
          refine ⟨body, hParse, hMe, hBody, ?_⟩
          simpa [wasInboxMessageDelivered] using hDelivered

/-- The lookups a batch of inbox values starts, the newest at the front. -/
def valueGets (n : P2PNode) (values : List (Nat × Bytes)) : List Get :=
  (values.filterMap fun value => (n.valueLookup value.2).map fun parts =>
    { op := value.1, callback := .onSenderProfileFound parts.1 parts.2 }).reverse

/-- A batch of values only adds lookups. -/
theorem onMessageReceived_eq (n : P2PNode) (values : List (Nat × Bytes)) (expired : Bool) :
    n.onMessageReceived values expired =
      if expired then n
      else { n with dht := { n.dht with gets := n.valueGets values ++ n.dht.gets } } := by
  unfold onMessageReceived
  split
  · rfl
  · suffices h : ∀ gets, values.foldl (fun n value => n.receiveValue value.1 value.2)
        { n with dht := { n.dht with gets := gets } } =
        { n with dht := { n.dht with gets := n.valueGets values ++ gets } } from h n.dht.gets
    induction values with
    | nil => exact fun _ => rfl
    | cons value rest ih =>
      intro gets
      have hLookup : ({ n with dht := { n.dht with gets := gets } } : P2PNode).valueLookup value.2 =
          n.valueLookup value.2 := rfl
      rw [List.foldl_cons, receiveValue_eq, hLookup]
      cases hValue : n.valueLookup value.2 with
      | none => simp [ih, valueGets, hValue]
      | some parts => simp [deliverSecureInboxMessage, dhtGet, ih, valueGets, hValue]

end P2PNode

end P2PMessenger
