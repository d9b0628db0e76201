import P2PMessenger.Node.Step
import P2PMessenger.Run.Simulation

/-!
# Texts and secret keys leave the node through the box only

A mask replaces every text and every secret key by another one of its kind. The node commutes
with masks: with a box that treats the masked arguments as the first one treats the plain
ones, a run on the masked events is the masked run, step by step. So what the node hands to
the DHT, whom it asks for and what it prints beside the messages depends on the texts and
the secret key only as far as the box lets it.
-/

namespace P2PMessenger

open Text Crypto Run

/-- `text` is applied to the texts of messages and `secret` to secret keys. -/
structure Mask where
  text : Bytes → Bytes
  secret : Bytes → Bytes
  secret_length : ∀ sk, (secret sk).length = sk.length

namespace Mask

variable (m : Mask)

/-- The box of `S'` does to masked arguments what the box of `S` does to plain ones. -/
structure Hides (S S' : Sodium) : Prop where
  easy : ∀ t n pk sk, S'.boxEasy (m.text t) n pk (m.secret sk) = S.boxEasy t n pk sk
  openEasy : ∀ c n pk sk,
    S'.boxOpenEasy c n pk (m.secret sk) = (S.boxOpenEasy c n pk sk).map m.text

theorem secret_nil : m.secret [] = [] := List.length_eq_zero_iff.mp (m.secret_length [])

/-! ## Masked data -/

def keys (k : KeyPair) : KeyPair := { k with privateKey := m.secret k.privateKey }

def call : BoxCall → BoxCall
  | .easy t n pk sk result => .easy (m.text t) n pk (m.secret sk) result
  | .openEasy c n pk sk result => .openEasy c n pk (m.secret sk) (result.map m.text)

def crypto (c : CryptoService) : CryptoService := { c with boxCalls := c.boxCalls.map m.call }

/-- A packet that waits to be sent still has its text in the place of the ciphertext. -/
def callback : Callback → Callback
  | .onProfileFound receiverId packet =>
    .onProfileFound receiverId { packet with ciphertext := m.text packet.ciphertext }
  | other => other

def get (g : Get) : Get := { g with callback := m.callback g.callback }

def report (r : Report) : Report := { r with text := m.text r.text }

def uiEvent : UiEvent → UiEvent
  | .messageReceived fromPeerId text => .messageReceived fromPeerId (m.text text)
  | other => other

def node (n : P2PNode) : P2PNode :=
  { n with
    crypto := m.crypto n.crypto
    myKeys := m.keys n.myKeys
    dht := { n.dht with gets := n.dht.gets.map m.get }
    reports := n.reports.map m.report
    ui := n.ui.map m.uiEvent }

def keyFile : KeyFile → KeyFile
  | .content data => .content (m.secret data)
  | other => other

def startInput (io : StartInput) : StartInput :=
  { io with
    files := { io.files with privateFile := m.keyFile io.files.privateFile }
    generated :=
      { keys := m.keys io.generated.keys
        publicKey_length := io.generated.publicKey_length
        privateKey_length := (m.secret_length _).trans io.generated.privateKey_length } }

def event : Event → Event
  | .startNode io => .startNode (m.startInput io)
  | .sendMessage op toPeerId text => .sendMessage op toPeerId (m.text text)
  | other => other

/-! ## Keys and crypto -/

theorem keyFile_eq_absent_iff (file : KeyFile) : m.keyFile file = .absent ↔ file = .absent := by
  cases file <;> simp [keyFile]

theorem loadKeyPair_mask (files : KeyFiles) :
    loadKeyPair { files with privateFile := m.keyFile files.privateFile } =
      (loadKeyPair files).map m.keys := by
  unfold loadKeyPair
  cases files.publicFile with
  | content b64 =>
    dsimp only
    cases fromBase64 b64 with
    | none => rfl
    | some publicKey => cases files.privateFile <;> rfl
  | _ => rfl

/-- The node keeps the masked pair. -/
theorem initKeys_mask (io : StartInput) :
    (initKeys (m.startInput io)).1 = m.keys (initKeys io).1 := by
  unfold initKeys
  simp only [startInput, ne_eq, keyFile_eq_absent_iff, loadKeyPair_mask]
  split
  · cases loadKeyPair io.files <;> rfl
  · rfl

variable {S S' : Sodium} {m}

theorem encrypt_mask (h : m.Hides S S') (c : CryptoService)
    (plaintext receiverPublicKey myPrivateKey senderId receiverId : Bytes) (draws : Draws)
    (nowSec : Int) :
    (m.crypto c).encrypt S' (m.text plaintext) receiverPublicKey (m.secret myPrivateKey) senderId
        receiverId draws nowSec =
      let result := c.encrypt S plaintext receiverPublicKey myPrivateKey senderId receiverId draws
        nowSec
      (result.1, m.crypto result.2) := by
  simp only [CryptoService.encrypt, h.easy]
  cases S.boxEasy plaintext draws.nonce receiverPublicKey myPrivateKey <;>
    simp [CryptoService.logCall, crypto, call]

theorem validateMessage_mask (c : CryptoService) (packet : EncryptedPacket) (myUserId : Bytes)
    (nowSec : Int) :
    (m.crypto c).validateMessage packet myUserId nowSec =
      ((c.validateMessage packet myUserId nowSec).1,
        m.crypto (c.validateMessage packet myUserId nowSec).2) := by
  unfold CryptoService.validateMessage
  split
  · rfl
  · unfold CryptoService.markSeen
    by_cases hSeen : packet.messageId ∈ c.seenMessageIds packet.senderId <;> simp [crypto, hSeen]

theorem decrypt_mask (h : m.Hides S S') (c : CryptoService) (packet : EncryptedPacket)
    (myPrivateKey senderPublicKey myUserId : Bytes) (nowSec : Int) :
    (m.crypto c).decrypt S' packet (m.secret myPrivateKey) senderPublicKey myUserId nowSec =
      let result := c.decrypt S packet myPrivateKey senderPublicKey myUserId nowSec
      (result.1.map m.text, m.crypto result.2) := by
  unfold CryptoService.decrypt
  split
  · rfl
  · rw [validateMessage_mask]
    cases c.validateMessage packet myUserId nowSec with
    | mk valid c =>
      cases valid with
      | false => rfl
      | true =>
        simp only [CryptoService.openPacket]
        cases fromBase64 packet.nonce with
        | none => rfl
        | some nonce =>
          cases fromBase64 packet.ciphertext with
          | none => rfl
          | some ciphertext =>
            dsimp only
            split
            · rfl
            · rw [h.openEasy]
              cases S.boxOpenEasy ciphertext nonce senderPublicKey myPrivateKey <;>
                simp [CryptoService.logCall, crypto, call, Except.map]

/-! ## The methods of the node -/

theorem notifyNetworkStatus_mask (n : P2PNode) (status : Bytes) :
    m.node (n.notifyNetworkStatus status) = (m.node n).notifyNetworkStatus status := by
  simp [node, P2PNode.notifyNetworkStatus, uiEvent]

theorem notifyPeerFound_mask (n : P2PNode) (peerId : Bytes) :
    m.node (n.notifyPeerFound peerId) = (m.node n).notifyPeerFound peerId := by
  simp [node, P2PNode.notifyPeerFound, uiEvent]

theorem notifyError_mask (n : P2PNode) (code message : Bytes) :
    m.node (n.notifyError code message) = (m.node n).notifyError code message := by
  simp [node, P2PNode.notifyError, uiEvent]

theorem notifyMessageReceived_mask (n : P2PNode) (fromPeerId text : Bytes)
    (packet : EncryptedPacket) (clock : Int) :
    m.node (n.notifyMessageReceived fromPeerId text packet clock) =
      (m.node n).notifyMessageReceived fromPeerId (m.text text) packet clock := by
  simp [node, P2PNode.notifyMessageReceived, uiEvent, report]

theorem raiseFlag_mask (n : P2PNode) (op : Nat) :
    m.node (n.raiseFlag op) = (m.node n).raiseFlag op := by
  simp only [node, P2PNode.raiseFlag, List.map_map]
  congr 2
  apply List.map_congr_left
  intro g _
  by_cases hOp : g.op = op <;> simp [get, hOp]

theorem cachePeerPublicKey_mask (n : P2PNode) (userId publicKey : Bytes) :
    m.node (n.cachePeerPublicKey userId publicKey) =
      (m.node n).cachePeerPublicKey userId publicKey := by
  unfold P2PNode.cachePeerPublicKey
  split <;> rfl

theorem initNodeKeys_mask (n : P2PNode) (io : StartInput) :
    m.node (n.initNodeKeys io) = (m.node n).initNodeKeys (m.startInput io) := by
  simp only [P2PNode.initNodeKeys, node, initKeys_mask]
  rfl

theorem runDht_mask (n : P2PNode) : m.node n.runDht = (m.node n).runDht := by
  unfold P2PNode.runDht
  rw [notifyNetworkStatus_mask]
  dsimp only
  have hListening (n' : P2PNode) (name : Option Bytes) :
      m.node { n' with dht := { n'.dht with listenName := name } } =
        { m.node n' with dht := { (m.node n').dht with listenName := name } } := rfl
  rw [hListening, notifyNetworkStatus_mask]
  rfl

theorem startNode_mask (n : P2PNode) (io : StartInput) :
    m.node (n.startNode io) = (m.node n).startNode (m.startInput io) := by
  have hRunning : (m.node n).running = n.running := rfl
  simp only [P2PNode.startNode, hRunning]
  split
  · rfl
  · rw [runDht_mask, ← initNodeKeys_mask]
    rfl

theorem stopNode_mask (n : P2PNode) : m.node n.stopNode = (m.node n).stopNode := by
  have hRunning : (m.node n).running = n.running := rfl
  simp only [P2PNode.stopNode, hRunning]
  split
  · rfl
  · exact notifyNetworkStatus_mask _ _

theorem publishProfile_mask (n : P2PNode) (profile : UserProfile) :
    m.node (n.publishProfile profile) = (m.node n).publishProfile profile := by
  simp [P2PNode.publishProfile, P2PNode.dhtPut, P2PNode.notifyNetworkStatus, node, uiEvent, keys]

theorem bootstrap_mask (n : P2PNode) (ip port : Bytes) :
    m.node (n.bootstrap ip port) = (m.node n).bootstrap ip port := by
  unfold P2PNode.bootstrap P2PNode.setBootstrapHost
  split <;> simp [node, P2PNode.notifyNetworkStatus, uiEvent]

theorem onProfilePut_mask (n : P2PNode) (profile : UserProfile) (success : Bool) :
    m.node (n.onProfilePut profile success) = (m.node n).onProfilePut profile success := by
  unfold P2PNode.onProfilePut
  split
  · rw [cachePeerPublicKey_mask, notifyNetworkStatus_mask]
    rfl
  · exact notifyNetworkStatus_mask _ _

theorem sendMessage_mask (n : P2PNode) (op : Nat) (toPeerId text : Bytes) :
    m.node (n.sendMessage op toPeerId text) =
      (m.node n).sendMessage op toPeerId (m.text text) := by
  have hMyId : (m.node n).myId = n.myId := rfl
  simp only [P2PNode.sendMessage, hMyId]
  split
  · exact notifyError_mask _ _ _
  · rfl

theorem foundPeerValue_mask (n : P2PNode) (userId payload : Bytes) :
    m.node (n.foundPeerValue userId payload) = (m.node n).foundPeerValue userId payload := by
  unfold P2PNode.foundPeerValue
  rw [notifyPeerFound_mask]
  split
  · rfl
  · split
    · rfl
    · rw [cachePeerPublicKey_mask]

theorem onPeerFound_mask (n : P2PNode) (userId : Bytes) (values : List Bytes) :
    m.node (n.onPeerFound userId values) = (m.node n).onPeerFound userId values := by
  have hValues : m.node (values.foldl (fun n payload => n.foundPeerValue userId payload) n) =
      values.foldl (fun n payload => n.foundPeerValue userId payload) (m.node n) := by
    induction values generalizing n with
    | nil => rfl
    | cons payload rest ih => rw [List.foldl_cons, List.foldl_cons, ih, foundPeerValue_mask]
  unfold P2PNode.onPeerFound
  split
  · rw [notifyError_mask, notifyNetworkStatus_mask]
  · rw [notifyNetworkStatus_mask, hValues]

theorem onMessageReceived_mask (n : P2PNode) (values : List (Nat × Bytes)) (expired : Bool) :
    m.node (n.onMessageReceived values expired) = (m.node n).onMessageReceived values expired := by
  have hGets : (m.node n).valueGets values = (n.valueGets values).map m.get := by
    have hLookup : (m.node n).valueLookup = n.valueLookup := rfl
    unfold P2PNode.valueGets
    rw [hLookup, List.map_reverse, List.map_filterMap]
    simp only [Option.map_map]
    rfl
  simp only [P2PNode.onMessageReceived_eq, hGets]
  split
  · rfl
  · simp [node]

section Box

variable (h : m.Hides S S')

include h

theorem sendEncrypted_mask (n : P2PNode) (receiverId : Bytes) (packet : EncryptedPacket)
    (receiverPublicKey : Bytes) (io : CallbackInput) :
    (m.node n).sendEncrypted S' receiverId { packet with ciphertext := m.text packet.ciphertext }
        receiverPublicKey io =
      ((n.sendEncrypted S receiverId packet receiverPublicKey io).1,
        m.node (n.sendEncrypted S receiverId packet receiverPublicKey io).2) := by
  have hEncrypt := encrypt_mask h n.crypto packet.ciphertext receiverPublicKey n.myKeys.privateKey
    n.myId receiverId io.draws io.now
  simp only [P2PNode.sendEncrypted]
  have hCall : (m.node n).crypto.encrypt S' (m.text packet.ciphertext) receiverPublicKey
      (m.node n).myKeys.privateKey (m.node n).myId receiverId io.draws io.now = _ := hEncrypt
  rw [hCall]
  generalize n.crypto.encrypt S packet.ciphertext receiverPublicKey n.myKeys.privateKey n.myId
    receiverId io.draws io.now = result
  obtain ⟨result, crypto⟩ := result
  cases result <;> rfl

theorem onProfileFound_mask (n : P2PNode) (receiverId : Bytes) (packet : EncryptedPacket)
    (values : List Bytes) (io : CallbackInput) :
    m.node (n.onProfileFound S receiverId packet values io) =
      (m.node n).onProfileFound S' receiverId
        { packet with ciphertext := m.text packet.ciphertext } values io := by
  unfold P2PNode.onProfileFound
  split
  · exact notifyError_mask _ _ _
  · split
    · exact notifyError_mask _ _ _
    · split
      · exact notifyError_mask _ _ _
      · rename_i receiverPublicKey _
        rw [← cachePeerPublicKey_mask, sendEncrypted_mask h]
        generalize (n.cachePeerPublicKey receiverId receiverPublicKey).sendEncrypted S receiverId
          packet receiverPublicKey io = result
        obtain ⟨result, n'⟩ := result
        cases result with
        | ok _ => rfl
        | error what => exact notifyError_mask _ _ _

theorem decryptWithSenderKey_mask (n : P2PNode) (senderId : Bytes) (packet : EncryptedPacket)
    (senderPublicKey : Bytes) (io : CallbackInput) :
    (m.node n).decryptWithSenderKey S' senderId packet senderPublicKey io =
      ((n.decryptWithSenderKey S senderId packet senderPublicKey io).1,
        m.node (n.decryptWithSenderKey S senderId packet senderPublicKey io).2) := by
  have hDecrypt := decrypt_mask h n.crypto { packet with senderId := senderId, receiverId := n.myId }
    n.myKeys.privateKey senderPublicKey n.myId io.now
  simp only [P2PNode.decryptWithSenderKey]
  have hCall : (m.node n).crypto.decrypt S'
      { packet with senderId := senderId, receiverId := (m.node n).myId }
      (m.node n).myKeys.privateKey senderPublicKey (m.node n).myId io.now = _ := hDecrypt
  rw [hCall]
  generalize n.crypto.decrypt S _ n.myKeys.privateKey senderPublicKey n.myId io.now = result
  obtain ⟨result, crypto⟩ := result
  cases result with
  | error what => rfl
  | ok plainText =>
    dsimp only [Except.map]
    rw [notifyMessageReceived_mask]
    rfl

theorem onSenderProfileFound_mask (n : P2PNode) (senderId : Bytes) (packet : EncryptedPacket)
    (profileValues : List Bytes) (io : CallbackInput) :
    m.node (n.onSenderProfileFound S senderId packet profileValues io) =
      (m.node n).onSenderProfileFound S' senderId packet profileValues io := by
  unfold P2PNode.onSenderProfileFound
  split
  · exact notifyError_mask _ _ _
  · split
    · rfl
    · split
      · split
        · exact notifyError_mask _ _ _
        · rfl
      · rename_i senderPublicKey _
        rw [← cachePeerPublicKey_mask, decryptWithSenderKey_mask h]
        generalize (n.cachePeerPublicKey senderId senderPublicKey).decryptWithSenderKey S senderId
          packet senderPublicKey io = result
        obtain ⟨result, n'⟩ := result
        cases result with
        | ok _ => rfl
        | error error =>
          dsimp only
          split
          · exact notifyError_mask _ _ _
          · rfl

theorem onLookup_mask (n : P2PNode) (op : Nat) (values : List Bytes) (io : CallbackInput) :
    m.node (n.onLookup S op values io) = (m.node n).onLookup S' op values io := by
  have hPending : (m.node n).pending op = (n.pending op).map m.get := by
    unfold P2PNode.pending
    have hRunning : (m.node n).dht.running = n.dht.running := rfl
    rw [hRunning]
    split
    · exact List.find?_map ..
    · rfl
  unfold P2PNode.onLookup
  rw [hPending]
  cases n.pending op with
  | none => rfl
  | some g =>
    obtain ⟨op', callback, flag⟩ := g
    cases callback with
    | findPeer userId => exact onPeerFound_mask n userId values
    | onProfileFound receiverId packet =>
      cases flag with
      | true => rfl
      | false =>
        refine (onProfileFound_mask h (n.raiseFlag op) receiverId packet values io).trans ?_
        rw [raiseFlag_mask]
        rfl
    | onSenderProfileFound senderId packet =>
      cases flag with
      | true => rfl
      | false =>
        refine (onSenderProfileFound_mask h (n.raiseFlag op) senderId packet values io).trans ?_
        rw [raiseFlag_mask]
        rfl

/-! ## Steps and runs -/

/-- A step on the masked event makes the masked step. -/
theorem step_mask (n : P2PNode) (e : Event) :
    (m.node n).step S' (m.event e) = m.node (n.step S e) := by
  cases e with
  | setNodeConfig port id => rfl
  | startNode io => exact (startNode_mask n io).symm
  | stopNode => exact (stopNode_mask n).symm
  | setBootstrapHost host =>
    simp only [P2PNode.step, P2PNode.setBootstrapHost, event]
    split <;> rfl
  | bootstrap ip port => exact (bootstrap_mask n ip port).symm
  | sendMessage op toPeerId text => exact (sendMessage_mask n op toPeerId text).symm
  | publishProfile profile => exact (publishProfile_mask n profile).symm
  | profilePut profile success =>
    have hRunning : (m.node n).dht.running = n.dht.running := rfl
    simp only [P2PNode.step, event, hRunning]
    split
    · exact (onProfilePut_mask n profile success).symm
    · rfl
  | refreshProfile =>
    have hRunning : (m.node n).running = n.running := rfl
    have hProfile : (m.node n).currentProfile = n.currentProfile := rfl
    simp only [P2PNode.step, event, hRunning, P2PNode.refreshProfile, hProfile]
    split
    · split
      · exact (publishProfile_mask n n.currentProfile).symm
      · rfl
    · rfl
  | findPeer op userId =>
    exact congrArg (fun n' => n'.dhtGet op (.findPeer userId))
      (notifyNetworkStatus_mask n _).symm
  | inbox values expired =>
    have hListens : (m.node n).dht.listenName = n.dht.listenName := rfl
    simp only [P2PNode.step, event, hListens]
    split
    · exact (onMessageReceived_mask n values expired).symm
    · rfl
  | lookup op values io => exact (onLookup_mask h n op values io).symm

omit h in
theorem node_new : m.node {} = {} := by
  simp [node, keys, crypto, secret_nil]

theorem run_mask (es : List Event) :
    run (P2PNode.step S') {} (es.map m.event) = m.node (run (P2PNode.step S) {} es) := by
  rw [← run_map (step_mask h), node_new]

end Box

/-- Texts and secret keys read backwards. -/
def backwards : Mask where
  text := List.reverse
  secret := List.reverse
  secret_length _ := List.length_reverse

/-- The additive box on texts and secret keys that are read backwards. -/
def backwardsBox : Sodium where
  boxPublicKey sk := Sodium.additive.boxPublicKey sk.reverse
  boxEasy t n pk sk := Sodium.additive.boxEasy t.reverse n pk sk.reverse
  boxOpenEasy c n pk sk := (Sodium.additive.boxOpenEasy c n pk sk.reverse).map List.reverse
  boxEasy_length := by
    intro t n pk sk c hSeal
    rw [Sodium.additive.boxEasy_length hSeal, List.length_reverse]

theorem backwards_hides : backwards.Hides Sodium.additive backwardsBox where
  easy t n pk sk := by simp [backwards, backwardsBox]
  openEasy c n pk sk := by simp [backwards, backwardsBox]

/-- A pair whose secret key has the bytes 0, 1, 2 and so on. -/
def risingKeys : GeneratedKeys where
  keys := { publicKey := Sodium.additive.boxPublicKey ((List.range 32).map UInt8.ofNat),
            privateKey := (List.range 32).map UInt8.ofNat }

/-- A text is sent to a user whose profile is found. -/
def oneSend : List Event :=
  [.setNodeConfig 4222 (bytes "alice"), .startNode { generated := risingKeys },
    .sendMessage 0 (bytes "bob") (bytes "hi"),
    .lookup 0 [profilePayload {} (GeneratedKeys.constant 40).keys.publicKey]
      { now := 39600, draws := .constant 5 9 }]

end Mask

end P2PMessenger
