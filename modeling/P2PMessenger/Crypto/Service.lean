import P2PMessenger.Types
import P2PMessenger.Crypto.Sodium
import P2PMessenger.Text.Decimal
import Mathlib.Logic.Function.Basic

/-!
# The crypto service

`CryptoService.cpp` function by function. A function that throws returns `.error` with
the text of the exception; the service is passed on in both cases, since `seenMessageIds_`
keeps what was written before a throw. The clock and the random draws are arguments.
`boxCalls` is not a member of the class: it is the history of the libsodium calls, oldest
first, and no function reads it.
-/

namespace P2PMessenger.Crypto

open Text

/-- What `encrypt` draws from `randombytes_buf`: the nonce and the bytes of a message id. -/
structure Draws where
  nonce : Bytes
  messageId : Bytes
  nonce_length : nonce.length = crypto_box_NONCEBYTES := by decide
  messageId_length : messageId.length = 16 := by decide

/-- Draws of equal bytes. -/
def Draws.constant (nonce messageId : UInt8) : Draws where
  nonce := List.replicate 24 nonce
  messageId := List.replicate 16 messageId
  nonce_length := List.length_replicate
  messageId_length := List.length_replicate

/-- `seenMessageIds` maps a sender to the ids recorded for it. -/
structure CryptoService where
  seenMessageIds : Bytes → List Bytes := fun _ => []
  boxCalls : List BoxCall := []

/-! ## Message ids -/

/-- A digit as `std::hex` prints it. -/
def hexDigit (v : Nat) : UInt8 := if v < 10 then UInt8.ofNat (48 + v) else UInt8.ofNat (87 + v)

/-- The loop over the drawn bytes, from index `i` on. -/
def printIdBytes (i : Nat) : Bytes → Bytes
  | [] => []
  | b :: rest =>
    (if i = 4 ∨ i = 6 ∨ i = 8 ∨ i = 10 then [45] else []) ++
      hexDigit (b.toNat / 16) :: hexDigit (b.toNat % 16) :: printIdBytes (i + 1) rest

def generateMessageId (buf : Bytes) : Bytes := printIdBytes 0 buf

/-- A character of the class `[0-9a-f]`. -/
def isHexDigit (c : UInt8) : Bool := (48 ≤ c && c ≤ 57) || (97 ≤ c && c ≤ 102)

/-- The text behind `n` hexadecimal digits. -/
def skipHex : Nat → Bytes → Option Bytes
  | 0, text => some text
  | n + 1, c :: text => if isHexDigit c then skipHex n text else none
  | _ + 1, [] => none

/-- The text behind a dash. -/
def skipDash : Bytes → Option Bytes
  | 45 :: text => some text
  | _ => none

/-- Match of the whole text with `^[0-9a-f]{8}-[0-9a-f]{4}-[0-9a-f]{4}-[0-9a-f]{4}-[0-9a-f]{12}$`. -/
def isValidMessageId (id : Bytes) : Bool :=
  (skipHex 8 id >>= skipDash >>= skipHex 4 >>= skipDash >>= skipHex 4 >>= skipDash >>=
    skipHex 4 >>= skipDash >>= skipHex 12) = some []

/-! ## Validation -/

def isValidBase64Blob (b64 : Bytes) (expectedBytes : Nat) : Bool :=
  match fromBase64 b64 with
  | some decoded => decoded.length = expectedBytes
  | none => false

/-- Subtraction of `long long`; `none` on overflow. -/
def subInt64 (a b : Int) : Option Int := if InInt64 (a - b) then some (a - b) else none

/-- `std::abs` on `long long`; `none` on overflow. -/
def absInt64 (a : Int) : Option Int := if InInt64 |a| then some |a| else none

/-- The five-minute window around the clock reading `nowSec`. -/
def withinWindow (nowSec timestamp : Int) : Bool :=
  match subInt64 nowSec timestamp >>= absInt64 with
  | some age => age ≤ 300
  | none => false

def validatePacketStructure (packet : EncryptedPacket) (nowSec : Int) : Bool :=
  if packet.messageId = [] then false
  else if packet.senderId = [] then false
  else if packet.receiverId = [] then false
  else if packet.nonce = [] then false
  else if packet.ciphertext = [] then false
  else if packet.timestamp ≤ 0 then false
  else withinWindow nowSec packet.timestamp

/-- The checks of `validateMessage` in front of the replay check. -/
def passesChecks (packet : EncryptedPacket) (myUserId : Bytes) (nowSec : Int) : Bool :=
  if !validatePacketStructure packet nowSec then false
  else if packet.receiverId ≠ myUserId then false
  else if !isValidMessageId packet.messageId then false
  else isValidBase64Blob packet.nonce crypto_box_NONCEBYTES

namespace CryptoService

/-- The answer is false if the id was already recorded for this sender. -/
def markSeen (c : CryptoService) (senderId messageId : Bytes) : Bool × CryptoService :=
  if messageId ∈ c.seenMessageIds senderId then (false, c)
  else (true, { c with
    seenMessageIds := Function.update c.seenMessageIds senderId
      (messageId :: c.seenMessageIds senderId) })

def validateMessage (c : CryptoService) (packet : EncryptedPacket) (myUserId : Bytes)
    (nowSec : Int) : Bool × CryptoService :=
  if !passesChecks packet myUserId nowSec then (false, c)
  else c.markSeen packet.senderId packet.messageId

def logCall (c : CryptoService) (call : BoxCall) : CryptoService :=
  { c with boxCalls := c.boxCalls ++ [call] }

/-! ## Encryption and decryption -/

variable (S : Sodium)

def encrypt (c : CryptoService) (plaintext receiverPublicKey myPrivateKey senderId
    receiverId : Bytes) (draws : Draws) (nowSec : Int) :
    Except Bytes EncryptedPacket × CryptoService :=
  let result := S.boxEasy plaintext draws.nonce receiverPublicKey myPrivateKey
  let c := c.logCall (.easy plaintext draws.nonce receiverPublicKey myPrivateKey result)
  match result with
  | none => (.error (bytes "Encryption failed"), c)
  | some ciphertext =>
    (.ok {
      version := 1
      messageId := generateMessageId draws.messageId
      senderId := senderId
      receiverId := receiverId
      timestamp := nowSec
      nonce := toBase64 draws.nonce
      ciphertext := toBase64 ciphertext }, c)

/-- The part of `decrypt` behind the validation. -/
def openPacket (c : CryptoService) (packet : EncryptedPacket)
    (myPrivateKey senderPublicKey : Bytes) : Except Bytes Bytes × CryptoService :=
  match fromBase64 packet.nonce, fromBase64 packet.ciphertext with
  | some nonce, some ciphertext =>
    if ciphertext.length < crypto_box_MACBYTES then (.error (bytes "Ciphertext too short"), c)
    else
      let result := S.boxOpenEasy ciphertext nonce senderPublicKey myPrivateKey
      let c := c.logCall (.openEasy ciphertext nonce senderPublicKey myPrivateKey result)
      match result with
      | none => (.error (bytes "Decryption failed — wrong key or corrupted data"), c)
      | some plaintext => (.ok plaintext, c)
  | _, _ => (.error (bytes "Invalid base64 string"), c)

def decrypt (c : CryptoService) (packet : EncryptedPacket)
    (myPrivateKey senderPublicKey myUserId : Bytes) (nowSec : Int) :
    Except Bytes Bytes × CryptoService :=
  if senderPublicKey.length ≠ crypto_box_PUBLICKEYBYTES then
    (.error (bytes "Invalid sender public key length"), c)
  else
    match c.validateMessage packet myUserId nowSec with
    | (false, c) => (.error (bytes "Message validation failed — rejected"), c)
    | (true, c) => openPacket S c packet myPrivateKey senderPublicKey

end CryptoService

end P2PMessenger.Crypto
