import P2PMessenger.Types
import P2PMessenger.Text.Decimal
import P2PMessenger.Crypto.Spec

/-!
# The wire format of inbox values and profiles

The parsers at the head of `P2PNode.cpp` and the texts that `sendPacket` and
`publishProfile` build for them. An inbox value is a sender id and a secure body around
the byte `0x1F`; a secure body is four fields around pipes; a profile ends in the base64
key behind its last pipe.
-/

namespace P2PMessenger

open Text Crypto

def kDhtFieldSep : UInt8 := 0x1F

/-- The pipe between the fields of a secure body and of a profile. -/
def pipe : UInt8 := 124

/-! ## Parsers -/

/-- The sender id and the body of an inbox value; without the field separator the first
colon is taken, as in the legacy format. -/
def parseDhtMessagePayload (payload : Bytes) : Option (Bytes × Bytes) :=
  match (cutFirst kDhtFieldSep payload).or (cutFirst 58 payload) with
  | none => none
  | some (sender, body) =>
    if trim isSpace sender = [] then none else some (trim isSpace sender, body)

def buildInboxDedupeKey (senderId messageId : Bytes) : Bytes :=
  senderId ++ kDhtFieldSep :: messageId

/-- The packet with the fields read from a secure body; the parts behind the fourth are
joined to the ciphertext again. -/
def parseSecureBody (encryptedBody : Bytes) (packet : EncryptedPacket) : Option EncryptedPacket :=
  match getlines pipe encryptedBody with
  | messageId :: nonce :: timestamp :: ciphertext :: more =>
    match stoll timestamp with
    | none => none
    | some t =>
      some { packet with
        messageId := messageId
        nonce := nonce
        timestamp := t
        ciphertext := ciphertext ++ more.flatMap fun part => pipe :: part }
  | _ => none

def isBenignCryptoError (message : Bytes) : Bool :=
  bytes "validation failed" <:+: message || bytes "REPLAY" <:+: message

/-- The key in the first of the profiles a lookup returned: the base64 text behind the last
pipe. -/
def profileKey (values : List Bytes) : Option Bytes :=
  values.head? >>= cutLast pipe >>= fun parts => fromBase64 parts.2

/-! ## Texts the node builds -/

def secureBody (packet : EncryptedPacket) : Bytes :=
  packet.messageId ++ pipe :: packet.nonce ++ pipe :: decimal packet.timestamp ++
    pipe :: packet.ciphertext

def fullPayload (myId : Bytes) (packet : EncryptedPacket) : Bytes :=
  myId ++ kDhtFieldSep :: secureBody packet

def profilePayload (profile : UserProfile) (publicKey : Bytes) : Bytes :=
  profile.displayName ++ pipe :: profile.tcpEndpoint ++ pipe :: toBase64 publicKey

def inboxName (userId : Bytes) : Bytes := userId ++ bytes "_inbox"

/-! ## Sender ids -/

theorem parseDhtMessagePayload_eq_some {payload senderId body : Bytes}
    (h : parseDhtMessagePayload payload = some (senderId, body)) :
    ∃ sender, trim isSpace sender = senderId ∧ senderId ≠ [] ∧ kDhtFieldSep ∉ sender := by
  unfold parseDhtMessagePayload at h
  split at h
  · cases h
  · rename_i sender body' hCut
    split at h
    · cases h
    · rename_i hne
      obtain ⟨rfl, rfl⟩ := Prod.mk.inj (Option.some.inj h)
      refine ⟨sender, rfl, hne, ?_⟩
      cases hSep : cutFirst kDhtFieldSep payload with
      | some parts =>
        rw [hSep, Option.some_or, Option.some.injEq] at hCut
        subst hCut
        exact (cutFirst_eq_some_iff.mp hSep).2
      | none =>
        -- in the legacy format the whole payload is free of the separator
        rw [hSep, Option.none_or] at hCut
        have hPayload := (cutFirst_eq_some_iff.mp hCut).1
        have hAbsent := cutFirst_eq_none_iff.mp hSep
        rw [hPayload] at hAbsent
        exact fun hmem => hAbsent (List.mem_append_left _ hmem)

theorem senderId_ne_nil {payload senderId body : Bytes}
    (h : parseDhtMessagePayload payload = some (senderId, body)) : senderId ≠ [] := by
  obtain ⟨_, _, hne, _⟩ := parseDhtMessagePayload_eq_some h
  exact hne

theorem trim_senderId {payload senderId body : Bytes}
    (h : parseDhtMessagePayload payload = some (senderId, body)) :
    trim isSpace senderId = senderId := by
  obtain ⟨sender, rfl, _, _⟩ := parseDhtMessagePayload_eq_some h
  exact trim_trim sender

theorem sep_not_mem_senderId {payload senderId body : Bytes}
    (h : parseDhtMessagePayload payload = some (senderId, body)) : kDhtFieldSep ∉ senderId := by
  obtain ⟨sender, rfl, _, hmem⟩ := parseDhtMessagePayload_eq_some h
  exact fun hc => hmem (mem_of_mem_trim hc)

/-- The dedupe key determines the pair it was built from, whatever the message id holds. -/
theorem buildInboxDedupeKey_inj {s s' m m' : Bytes} (hs : kDhtFieldSep ∉ s)
    (hs' : kDhtFieldSep ∉ s') :
    buildInboxDedupeKey s m = buildInboxDedupeKey s' m' ↔ s = s' ∧ m = m' := by
  constructor
  · exact append_sep_inj hs hs'
  · rintro ⟨rfl, rfl⟩
    rfl

/-! ## Reading back what was built -/

theorem parseDhtMessagePayload_fullPayload {myId : Bytes} (hTrim : trim isSpace myId = myId)
    (hne : myId ≠ []) (hSep : kDhtFieldSep ∉ myId) (packet : EncryptedPacket) :
    parseDhtMessagePayload (fullPayload myId packet) = some (myId, secureBody packet) := by
  simp only [parseDhtMessagePayload, fullPayload, cutFirst_append hSep, Option.some_or, hTrim,
    if_neg hne]

theorem pipe_not_mem_decimal (z : Int) : pipe ∉ decimal z :=
  not_mem_decimal (by decide) (by decide)

theorem parseSecureBody_secureBody {packet : EncryptedPacket} (hId : pipe ∉ packet.messageId)
    (hNonce : pipe ∉ packet.nonce) (hCipher : pipe ∉ packet.ciphertext)
    (hne : packet.ciphertext ≠ []) (hTime : InInt64 packet.timestamp) (start : EncryptedPacket) :
    parseSecureBody (secureBody packet) start =
      some { start with
        messageId := packet.messageId
        nonce := packet.nonce
        timestamp := packet.timestamp
        ciphertext := packet.ciphertext } := by
  simp only [parseSecureBody, secureBody, List.append_assoc, List.cons_append,
    getlines_append hId, getlines_append hNonce, getlines_append (pipe_not_mem_decimal _),
    getlines_last hCipher hne, stoll_decimal hTime, List.flatMap_nil, List.append_nil]

theorem profileKey_profilePayload (profile : UserProfile) (publicKey : Bytes)
    (more : List Bytes) :
    profileKey (profilePayload profile publicKey :: more) = some publicKey := by
  have hText : profilePayload profile publicKey =
      (profile.displayName ++ pipe :: profile.tcpEndpoint) ++ pipe :: toBase64 publicKey := by
    simp [profilePayload]
  have hCut : cutLast pipe (profilePayload profile publicKey) =
      some (profile.displayName ++ pipe :: profile.tcpEndpoint, toBase64 publicKey) := by
    rw [hText]
    exact cutLast_append (pipe_not_mem_toBase64 publicKey) _
  simp [profileKey, hCut]

end P2PMessenger
