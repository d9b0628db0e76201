import P2PMessenger.Text.Base64

/-!
# The libsodium calls

The box functions are third-party code and enter as a parameter: any functions on byte
strings, with the one fact about lengths that the callers' buffers fix. Each call the
service makes is kept as a `BoxCall`, so that statements can speak of its arguments.
`BoxCall.Defined` is the domain on which libsodium defines the call: outside it the
library reads past the end of a buffer.
-/

namespace P2PMessenger.Crypto

open Text

def crypto_box_PUBLICKEYBYTES : Nat := 32
def crypto_box_SECRETKEYBYTES : Nat := 32
def crypto_box_NONCEBYTES : Nat := 24
def crypto_box_MACBYTES : Nat := 16

/-- `none` is a non-zero return value. -/
structure Sodium where
  /-- The public key that `crypto_box_keypair` returns with a secret key. -/
  boxPublicKey : Bytes → Bytes
  /-- `crypto_box_easy`: message, nonce, public key of the other side, own secret key. -/
  boxEasy : Bytes → Bytes → Bytes → Bytes → Option Bytes
  /-- `crypto_box_open_easy`: ciphertext, nonce, public key of the other side, own secret key. -/
  boxOpenEasy : Bytes → Bytes → Bytes → Bytes → Option Bytes
  boxEasy_length : ∀ {m n pk sk c}, boxEasy m n pk sk = some c →
    c.length = crypto_box_MACBYTES + m.length

/-- A call of one of the box functions with its arguments and its result. -/
inductive BoxCall where
  | easy (message nonce publicKey secretKey : Bytes) (result : Option Bytes)
  | openEasy (ciphertext nonce publicKey secretKey : Bytes) (result : Option Bytes)
  deriving DecidableEq, Repr

namespace BoxCall

/-- The argument lengths on which libsodium defines the call. -/
def Defined : BoxCall → Prop
  | easy _ n pk sk _ =>
    pk.length = crypto_box_PUBLICKEYBYTES ∧ sk.length = crypto_box_SECRETKEYBYTES ∧
      n.length = crypto_box_NONCEBYTES
  | openEasy c n pk sk _ =>
    pk.length = crypto_box_PUBLICKEYBYTES ∧ sk.length = crypto_box_SECRETKEYBYTES ∧
      n.length = crypto_box_NONCEBYTES ∧ crypto_box_MACBYTES ≤ c.length

instance (call : BoxCall) : Decidable call.Defined := by
  cases call <;> exact inferInstanceAs (Decidable (_ ∧ _))

end BoxCall

/-- `sodium_bin2base64` of the standard variant, without the terminating zero. -/
def toBase64 (data : Bytes) : Bytes := Base64.encode data

/-- `sodium_base642bin` of the standard variant; `none` where `fromBase64` throws. -/
def fromBase64 (b64 : Bytes) : Option Bytes := Base64.decode b64

@[simp] theorem fromBase64_toBase64 (data : Bytes) : fromBase64 (toBase64 data) = some data :=
  Base64.decode_encode data

theorem fromBase64_eq_some_iff {b64 data : Bytes} :
    fromBase64 b64 = some data ↔ b64 = toBase64 data := Base64.decode_eq_some_iff

/-- The field separator of a secure body and of a profile is not in base64. -/
theorem pipe_not_mem_toBase64 (data : Bytes) : 124 ∉ toBase64 data :=
  Base64.not_mem_encode (by decide) data

/-! ## An instance for runs -/

namespace Sodium

/-- The tag of the instance below: it depends on the nonce and, evenly, on both sides. -/
def additiveTag (n pk sk : Bytes) : Bytes :=
  (List.range crypto_box_MACBYTES).map fun i => n.getD i 0 + pk.getD i 0 + sk.getD i 0

/-- A box that only tags its message. It is no cipher, but it opens under the keys of the two
sides and under no others that differ in the tagged bytes, and it can be run. -/
def additive : Sodium where
  boxPublicKey sk := sk.map (· + 1)
  boxEasy m n pk sk := some (additiveTag n pk sk ++ m)
  boxOpenEasy c n pk sk :=
    if c.take crypto_box_MACBYTES = additiveTag n pk sk then some (c.drop crypto_box_MACBYTES)
    else none
  boxEasy_length := by
    intro m n pk sk c h
    rw [← Option.some.inj h]
    simp [additiveTag]

end Sodium

end P2PMessenger.Crypto
