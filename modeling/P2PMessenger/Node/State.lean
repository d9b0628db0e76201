import P2PMessenger.Node.Wire
import P2PMessenger.Crypto.KeyFiles

/-!
# The node and its operations

`P2PNode.cpp` in the build with OpenDHT, method by method. The DHT runner is third-party
code; of it the model keeps what the node handed over: the name it listens on and the
lookups whose callback may still run. A key is written as the text that
`dht::InfoHash::get` hashes. `op` numbers name the lookups and are chosen by the caller.

`reports`, `puts`, `ui`, `dialled`, `keyOwner` and `session` are not members of the class.
They are histories of what the node did, and no function reads them.
-/

namespace P2PMessenger

open Text Crypto

/-- The events queued for the window. -/
inductive UiEvent where
  | messageReceived (fromPeerId text : Bytes)
  | peerFound (peerId : Bytes)
  | networkStatus (status : Bytes)
  | error (code message : Bytes)
  deriving DecidableEq, Repr

namespace P2PErrorCode

def peerNotFound : Bytes := bytes "PEER_NOT_FOUND"
def decryptionFailed : Bytes := bytes "DECRYPTION_FAILED"
def networkUnavailable : Bytes := bytes "NETWORK_UNAVAILABLE"
def deliveryFailed : Bytes := bytes "DELIVERY_FAILED"

end P2PErrorCode

/-- A call of `notifyMessageReceived`, with the packet it came from and the clock. -/
structure Report where
  fromPeerId : Bytes
  text : Bytes
  packet : EncryptedPacket
  clock : Int
  deriving DecidableEq, Repr

/-- The function that wrote a value to the DHT. -/
inductive PutOrigin where
  | publishProfile (profile : UserProfile)
  | sendPacket (packet : EncryptedPacket)
  deriving DecidableEq, Repr

structure Put where
  name : Bytes
  payload : Bytes
  origin : PutOrigin
  session : Nat
  deriving DecidableEq, Repr

/-- The packet of a value that `sendPacket` put. -/
def Put.packet (q : Put) : Option EncryptedPacket :=
  match q.origin with
  | .sendPacket packet => some packet
  | .publishProfile _ => none

/-- The callbacks of `m_dht.get` with what their closures capture. -/
inductive Callback where
  | onProfileFound (receiverId : Bytes) (packet : EncryptedPacket)
  | onSenderProfileFound (senderId : Bytes) (packet : EncryptedPacket)
  | findPeer (userId : Bytes)
  deriving DecidableEq, Repr

namespace Callback

/-- The user whose profile is looked up. -/
def userId : Callback → Bytes
  | onProfileFound receiverId _ => receiverId
  | onSenderProfileFound senderId _ => senderId
  | findPeer userId => userId

end Callback

/-- `flag` is the `sentFlag` or `processedFlag` of the closure. -/
structure Get where
  op : Nat
  callback : Callback
  flag : Bool := false
  deriving DecidableEq, Repr

structure Dht where
  running : Bool := false
  listenName : Option Bytes := none
  gets : List Get := []
  deriving DecidableEq, Repr

structure P2PNode where
  crypto : CryptoService := {}
  myKeys : KeyPair := {}
  publicKeyB64 : Bytes := []
  dht : Dht := {}
  peerPublicKeys : List (Bytes × Bytes) := []
  deliveredInboxKeys : List Bytes := []
  port : Nat := 4222
  myId : Bytes := bytes "default_node"
  bootstrapHost : Bytes := bytes "127.0.0.1"
  running : Bool := false
  currentProfile : UserProfile := {}
  reports : List Report := []
  puts : List Put := []
  ui : List UiEvent := []
  dialled : List (Bytes × Bytes) := []
  keyOwner : Bytes := []
  session : Nat := 0

/-- What a DHT callback reads from outside: the clock and the draws of `encrypt`. -/
structure CallbackInput where
  now : Int
  draws : Draws
  now_range : InInt64 now := by decide

namespace P2PNode

/-! ## Notifications -/

def notifyMessageReceived (n : P2PNode) (fromPeerId text : Bytes) (packet : EncryptedPacket)
    (clock : Int) : P2PNode :=
  { n with
    reports := n.reports ++ [{ fromPeerId, text, packet, clock }]
    ui := n.ui ++ [.messageReceived fromPeerId text] }

def notifyPeerFound (n : P2PNode) (peerId : Bytes) : P2PNode :=
  { n with ui := n.ui ++ [.peerFound peerId] }

def notifyNetworkStatus (n : P2PNode) (status : Bytes) : P2PNode :=
  { n with ui := n.ui ++ [.networkStatus status] }

def notifyError (n : P2PNode) (code message : Bytes) : P2PNode :=
  { n with ui := n.ui ++ [.error code message] }

/-! ## Handing work to the DHT -/

def dhtPut (n : P2PNode) (name payload : Bytes) (origin : PutOrigin) : P2PNode :=
  { n with puts := n.puts ++ [{ name, payload, origin, session := n.session }] }

def dhtGet (n : P2PNode) (op : Nat) (callback : Callback) : P2PNode :=
  { n with dht := { n.dht with gets := { op, callback } :: n.dht.gets } }

/-- `exchange(true)` on the flag of a lookup. -/
def raiseFlag (n : P2PNode) (op : Nat) : P2PNode :=
  { n with dht := { n.dht with
      gets := n.dht.gets.map fun g => if g.op = op then { g with flag := true } else g } }

/-! ## Peer keys and delivered messages -/

def cachePeerPublicKey (n : P2PNode) (userId publicKey : Bytes) : P2PNode :=
  if userId = [] ∨ publicKey = [] then n
  else { n with
    peerPublicKeys := (userId, publicKey) :: n.peerPublicKeys.filter fun p => p.1 ≠ userId }

def wasInboxMessageDelivered (n : P2PNode) (senderId messageId : Bytes) : Bool :=
  buildInboxDedupeKey senderId messageId ∈ n.deliveredInboxKeys

def markInboxMessageDelivered (n : P2PNode) (senderId messageId : Bytes) : P2PNode :=
  { n with
    deliveredInboxKeys := n.deliveredInboxKeys.insert (buildInboxDedupeKey senderId messageId) }

/-! ## Configuration, start and stop -/

def setNodeConfig (n : P2PNode) (port : Nat) (id : Bytes) : P2PNode :=
  { n with port := port, myId := if id = [] then n.myId else trim isSpace id }

/-- The key initialisation of `startNode`. -/
def initNodeKeys (n : P2PNode) (io : StartInput) : P2PNode :=
  { n with
    crypto := { boxCalls := n.crypto.boxCalls }
    myKeys := (initKeys io).1
    keyOwner := n.myId }

def cachePublicKey (n : P2PNode) : P2PNode :=
  { n with publicKeyB64 := toBase64 n.myKeys.publicKey }

/-- The rest of `startNode`: the DHT is run and the node listens on its inbox. -/
def runDht (n : P2PNode) : P2PNode :=
  let n := { n with running := true, session := n.session + 1, dht := { n.dht with running := true } }
  let n := n.notifyNetworkStatus
    (bytes "Running on port " ++ decimal n.port ++ bytes " as " ++ n.myId)
  let n := { n with dht := { n.dht with listenName := some (inboxName n.myId) } }
  n.notifyNetworkStatus (bytes "Listening for secure messages on " ++ inboxName n.myId)

def startNode (n : P2PNode) (io : StartInput) : P2PNode :=
  if n.running then n else ((n.initNodeKeys io).cachePublicKey).runDht

/-- Joining the DHT runner drops its listener and its lookups. -/
def stopNode (n : P2PNode) : P2PNode :=
  if !n.running then n
  else { n with running := false, dht := {} }.notifyNetworkStatus (bytes "Node stopped")

def setBootstrapHost (n : P2PNode) (host : Bytes) : P2PNode :=
  if host ≠ [] then { n with bootstrapHost := host } else n

def bootstrap (n : P2PNode) (ip port : Bytes) : P2PNode :=
  let n := n.setBootstrapHost ip
  let n := n.notifyNetworkStatus (bytes "Bootstrapping to " ++ ip ++ bytes ":" ++ port)
  { n with dialled := n.dialled ++ [(ip, port)] }

/-! ## Profiles -/

def publishProfile (n : P2PNode) (profile : UserProfile) : P2PNode :=
  let n := { n with currentProfile := profile }
  let n := n.notifyNetworkStatus (bytes "Publishing profile for " ++ profile.userId)
  n.dhtPut profile.userId (profilePayload profile n.myKeys.publicKey) (.publishProfile profile)

/-- The callback of the put in `publishProfile`. -/
def onProfilePut (n : P2PNode) (profile : UserProfile) (success : Bool) : P2PNode :=
  if success then
    (n.notifyNetworkStatus (bytes "Profile published to DHT")).cachePeerPublicKey
      profile.userId n.myKeys.publicKey
  else n.notifyNetworkStatus (bytes "Profile publish pending — retrying after bootstrap")

/-- The refresh inside `backgroundPublishLoop`. -/
def refreshProfile (n : P2PNode) : P2PNode :=
  if n.currentProfile.userId ≠ [] then n.publishProfile n.currentProfile else n

def findPeer (n : P2PNode) (op : Nat) (userId : Bytes) : P2PNode :=
  (n.notifyNetworkStatus (bytes "Searching DHT for " ++ userId)).dhtGet op (.findPeer userId)

/-- One value in the loop of the `findPeer` callback. -/
def foundPeerValue (n : P2PNode) (userId payload : Bytes) : P2PNode :=
  let n := match cutLast pipe payload with
    | none => n
    | some parts =>
      match fromBase64 parts.2 with
      | none => n
      | some key => n.cachePeerPublicKey userId key
  n.notifyPeerFound userId

def onPeerFound (n : P2PNode) (userId : Bytes) (values : List Bytes) : P2PNode :=
  if values = [] then
    (n.notifyNetworkStatus (bytes "Peer not found on DHT: " ++ userId)).notifyError
      P2PErrorCode.peerNotFound (bytes "Peer not found on DHT: " ++ userId)
  else
    (values.foldl (fun n payload => n.foundPeerValue userId payload) n).notifyNetworkStatus
      (bytes "Peer found: " ++ userId)

/-! ## Sending -/

def sendPacket (n : P2PNode) (op : Nat) (receiverId : Bytes) (packet : EncryptedPacket) :
    P2PNode :=
  n.dhtGet op (.onProfileFound receiverId packet)

def sendMessage (n : P2PNode) (op : Nat) (toPeerId text : Bytes) : P2PNode :=
  if n.myId = [] then
    n.notifyError P2PErrorCode.networkUnavailable
      (bytes "Cannot send: local peer ID is not configured (set P2P_PEER_ID)")
  else
    n.sendPacket op toPeerId
      { senderId := n.myId, receiverId := toPeerId, ciphertext := text }

variable (S : Sodium)

/-- The closure `sendEncrypted` of `sendPacket`. -/
def sendEncrypted (n : P2PNode) (receiverId : Bytes) (packet : EncryptedPacket)
    (receiverPublicKey : Bytes) (io : CallbackInput) : Except Bytes Unit × P2PNode :=
  match n.crypto.encrypt S packet.ciphertext receiverPublicKey n.myKeys.privateKey n.myId
      receiverId io.draws io.now with
  | (.error what, crypto) => (.error what, { n with crypto := crypto })
  | (.ok securePacket, crypto) =>
    (.ok (), { n with crypto := crypto }.dhtPut (inboxName receiverId)
      (fullPayload n.myId securePacket) (.sendPacket securePacket))

/-- The lookup callback of `sendPacket`, behind its flag. -/
def onProfileFound (n : P2PNode) (receiverId : Bytes) (packet : EncryptedPacket)
    (values : List Bytes) (io : CallbackInput) : P2PNode :=
  match values with
  | [] =>
    n.notifyError P2PErrorCode.peerNotFound
      (bytes "Recipient profile not found on DHT: " ++ receiverId)
  | profilePayload :: _ =>
    match cutLast pipe profilePayload with
    | none =>
      n.notifyError P2PErrorCode.peerNotFound
        (bytes "Recipient profile on DHT is malformed: " ++ receiverId)
    | some parts =>
      match fromBase64 parts.2 with
      | none => n.notifyError P2PErrorCode.deliveryFailed (bytes "Invalid base64 string")
      | some receiverPublicKey =>
        match (n.cachePeerPublicKey receiverId receiverPublicKey).sendEncrypted S receiverId
            packet receiverPublicKey io with
        | (.ok _, n) => n
        | (.error what, n) => n.notifyError P2PErrorCode.deliveryFailed what

/-! ## Receiving -/

/-- The closure `decryptWithSenderKey` of `deliverSecureInboxMessage`. -/
def decryptWithSenderKey (n : P2PNode) (senderId : Bytes) (packet : EncryptedPacket)
    (senderPublicKey : Bytes) (io : CallbackInput) : Except Bytes Unit × P2PNode :=
  let inbound := { packet with senderId := senderId, receiverId := n.myId }
  match n.crypto.decrypt S inbound n.myKeys.privateKey senderPublicKey n.myId io.now with
  | (.error what, crypto) => (.error what, { n with crypto := crypto })
  | (.ok plainText, crypto) =>
    (.ok (), ({ n with crypto := crypto }.markInboxMessageDelivered senderId
      packet.messageId).notifyMessageReceived senderId plainText inbound io.now)

/-- The lookup callback of `deliverSecureInboxMessage`, behind its flag. -/
def onSenderProfileFound (n : P2PNode) (senderId : Bytes) (packet : EncryptedPacket)
    (profileValues : List Bytes) (io : CallbackInput) : P2PNode :=
  match profileValues with
  | [] =>
    n.notifyError P2PErrorCode.peerNotFound
      (bytes "Sender profile not found on DHT: " ++ senderId)
  | profilePayload :: _ =>
    match cutLast pipe profilePayload with
    | none => n
    | some parts =>
      match fromBase64 parts.2 with
      | none =>
        if !isBenignCryptoError (bytes "Invalid base64 string") then
          n.notifyError P2PErrorCode.decryptionFailed (bytes "Invalid base64 string")
        else n
      | some senderPublicKey =>
        match (n.cachePeerPublicKey senderId senderPublicKey).decryptWithSenderKey S senderId
            packet senderPublicKey io with
        | (.ok _, n) => n
        | (.error error, n) =>
          if !isBenignCryptoError error then n.notifyError P2PErrorCode.decryptionFailed error
          else n

def deliverSecureInboxMessage (n : P2PNode) (op : Nat) (senderId : Bytes)
    (packet : EncryptedPacket) : P2PNode :=
  n.dhtGet op (.onSenderProfileFound senderId packet)

/-- One value in the loop of the listener `onMessageReceived`. -/
def receiveValue (n : P2PNode) (op : Nat) (payload : Bytes) : P2PNode :=
  match parseDhtMessagePayload payload with
  | none => n
  | some (senderId, encryptedBody) =>
    if senderId = [] ∨ senderId = n.myId then n
    else
      match parseSecureBody encryptedBody
          { version := 1, senderId := senderId, receiverId := n.myId } with
      | none => n
      | some packet =>
        if n.wasInboxMessageDelivered senderId packet.messageId then n
        else n.deliverSecureInboxMessage op senderId packet

/-- The listener; each value comes with the name of the lookup it would start. -/
def onMessageReceived (n : P2PNode) (values : List (Nat × Bytes)) (expired : Bool) : P2PNode :=
  if expired then n else values.foldl (fun n value => n.receiveValue value.1 value.2) n

end P2PNode

end P2PMessenger
