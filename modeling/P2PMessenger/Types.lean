import P2PMessenger.Text.Bytes

/-!
# Shared records

The records of `Types.h` that the node and its services pass around, with the defaults of
the C++ members.
-/

namespace P2PMessenger

open Text

structure KeyPair where
  publicKey : Bytes := []
  privateKey : Bytes := []
  deriving DecidableEq, Repr

structure UserProfile where
  userId : Bytes := []
  displayName : Bytes := []
  publicKey : Bytes := []
  mailboxKey : Bytes := []
  tcpEndpoint : Bytes := []
  deriving DecidableEq, Repr

/-- `nonce` and `ciphertext` are base64. -/
structure EncryptedPacket where
  version : Int := 1
  messageId : Bytes := []
  senderId : Bytes := []
  receiverId : Bytes := []
  timestamp : Int := 0
  nonce : Bytes := []
  ciphertext : Bytes := []
  deriving DecidableEq, Repr

structure ChatMessage where
  messageId : Bytes := []
  senderId : Bytes := []
  receiverId : Bytes := []
  plaintext : Bytes := []
  timestamp : Int := 0
  incoming : Bool := false
  deriving DecidableEq, Repr

end P2PMessenger
