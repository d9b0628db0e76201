import P2PMessenger.Crypto.Service

/-!
# Key files

`saveKeyPair`, `loadKeyPair` and the key initialisation of `startNode`, on the two files
of one user id. The public key is stored as base64, the secret key as raw bytes.
-/

namespace P2PMessenger.Crypto

open Text

/-- A pair as `crypto_box_keypair` fills it. -/
structure GeneratedKeys where
  keys : KeyPair
  publicKey_length : keys.publicKey.length = crypto_box_PUBLICKEYBYTES := by decide
  privateKey_length : keys.privateKey.length = crypto_box_SECRETKEYBYTES := by decide

/-- The pair of `Sodium.additive` whose secret bytes are all `b`. -/
def GeneratedKeys.constant (b : UInt8) : GeneratedKeys where
  keys := { publicKey := List.replicate 32 (b + 1), privateKey := List.replicate 32 b }
  publicKey_length := List.length_replicate
  privateKey_length := List.length_replicate

inductive KeyFile where
  | absent
  /-- The file exists, but a stream on it does not open. -/
  | unreadable
  | content (data : Bytes)
  deriving DecidableEq, Repr

structure KeyFiles where
  publicFile : KeyFile := .absent
  privateFile : KeyFile := .absent
  deriving DecidableEq, Repr

/-- What the key initialisation reads from outside: the files of the configured id, the
generated pair, and whether the two streams of `saveKeyPair` open. -/
structure StartInput where
  files : KeyFiles := {}
  generated : GeneratedKeys
  publicOpens : Bool := true
  privateOpens : Bool := true

def saveKeyPair (keyPair : KeyPair) (publicOpens privateOpens : Bool) (files : KeyFiles) :
    Bool × KeyFiles :=
  if !publicOpens then (false, files)
  else
    let files := { files with publicFile := .content (toBase64 keyPair.publicKey) }
    if !privateOpens then (false, files)
    else (true, { files with privateFile := .content keyPair.privateKey })

def loadKeyPair (files : KeyFiles) : Except Bytes KeyPair :=
  match files.publicFile with
  | .content b64 =>
    match fromBase64 b64 with
    | none => .error (bytes "Invalid base64 string")
    | some publicKey =>
      match files.privateFile with
      | .content privateKey => .ok { publicKey := publicKey, privateKey := privateKey }
      | _ => .error (bytes "Cannot open private key file")
  | _ => .error (bytes "Cannot open public key file")

/-- The pair that `startNode` keeps, and the files afterwards. -/
def initKeys (io : StartInput) : KeyPair × KeyFiles :=
  let generate := (io.generated.keys,
    (saveKeyPair io.generated.keys io.publicOpens io.privateOpens io.files).2)
  if io.files.publicFile ≠ .absent ∧ io.files.privateFile ≠ .absent then
    match loadKeyPair io.files with
    | .ok keys => (keys, io.files)
    | .error _ => generate
  else generate

end P2PMessenger.Crypto
