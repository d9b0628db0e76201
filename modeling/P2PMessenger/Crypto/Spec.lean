import P2PMessenger.Crypto.Service

/-!
# What the crypto service does

One specification for each function of the service. `decrypt` is described by three
equations: its result (`decrypt_ok_iff`), the replay state it leaves
(`decrypt_seenMessageIds`) and the box calls it makes (`decrypt_boxCalls`). All three
split on `Reaches`: whether the packet passes the validation and is not a replay.
Callers use these and never unfold the service.
-/

namespace P2PMessenger.Crypto

open Text

/-! ## Message ids -/

theorem isHexDigit_hexDigit : ∀ v < 16, isHexDigit (hexDigit v) = true := by
  decide +kernel

/-- Every printed id matches the format that the validation asks for. -/
theorem isValidMessageId_generateMessageId {buf : Bytes} (h : buf.length = 16) :
    isValidMessageId (generateMessageId buf) = true := by
  have hHigh (b : UInt8) : isHexDigit (hexDigit (b.toNat / 16)) = true :=
    isHexDigit_hexDigit _ (by have := b.toNat_lt; omega)
  have hLow (b : UInt8) : isHexDigit (hexDigit (b.toNat % 16)) = true :=
    isHexDigit_hexDigit _ (by omega)
  match buf, h with
  | [b0, b1, b2, b3, b4, b5, b6, b7, b8, b9, b10, b11, b12, b13, b14, b15], _ =>
    simp [isValidMessageId, generateMessageId, printIdBytes, skipHex, skipDash, hHigh, hLow]

theorem ne_nil_of_isValidMessageId {id : Bytes} (h : isValidMessageId id = true) : id ≠ [] := by
  rintro rfl
  cases h

theorem mem_generateMessageId {buf : Bytes} {c : UInt8} (h : c ∈ generateMessageId buf) :
    isHexDigit c = true ∨ c = 45 := by
  unfold generateMessageId at h
  generalize 0 = i at h
  induction buf generalizing i with
  | nil => cases h
  | cons b rest ih =>
    have hb := b.toNat_lt
    simp only [printIdBytes, List.mem_append, List.mem_cons] at h
    rcases h with h | rfl | rfl | h
    · split at h
      · exact Or.inr (by simpa using h)
      · cases h
    · exact Or.inl (isHexDigit_hexDigit _ (by omega))
    · exact Or.inl (isHexDigit_hexDigit _ (by omega))
    · exact ih _ h

/-! ## Validation -/

theorem isValidBase64Blob_iff {b64 : Bytes} {n : Nat} :
    isValidBase64Blob b64 n = true ↔ ∃ data, fromBase64 b64 = some data ∧ data.length = n := by
  unfold isValidBase64Blob
  cases fromBase64 b64 <;> simp

/-- The checked arithmetic of the window never changes its answer. -/
theorem withinWindow_iff {nowSec timestamp : Int} :
    withinWindow nowSec timestamp = true ↔ |nowSec - timestamp| ≤ 300 := by
  by_cases hSub : InInt64 (nowSec - timestamp)
  · by_cases hAbs : InInt64 |nowSec - timestamp|
    · simp only [withinWindow, subInt64, absInt64, if_pos hSub, if_pos hAbs, Option.bind_eq_bind,
        Option.bind_some, decide_eq_true_eq]
    · simp only [withinWindow, subInt64, absInt64, if_pos hSub, if_neg hAbs, Option.bind_eq_bind,
        Option.bind_some, Bool.false_eq_true, false_iff]
      intro h
      have hNonneg := abs_nonneg (nowSec - timestamp)
      exact hAbs ⟨by omega, by omega⟩
  · simp only [withinWindow, subInt64, if_neg hSub, Option.bind_eq_bind, Option.bind_none,
      Bool.false_eq_true, false_iff]
    intro h
    obtain ⟨hLow, hHigh⟩ := abs_le.mp h
    exact hSub ⟨by omega, by omega⟩

/-- A packet that passes every check of the validation except the replay check. -/
structure Acceptable (packet : EncryptedPacket) (myUserId : Bytes) (nowSec : Int) : Prop where
  messageId : isValidMessageId packet.messageId = true
  senderId : packet.senderId ≠ []
  receiverId_ne : packet.receiverId ≠ []
  receiverId : packet.receiverId = myUserId
  nonce : ∃ nonce, fromBase64 packet.nonce = some nonce ∧ nonce.length = crypto_box_NONCEBYTES
  ciphertext : packet.ciphertext ≠ []
  timestamp : 0 < packet.timestamp
  window : |nowSec - packet.timestamp| ≤ 300

theorem Acceptable.nonce_ne {packet : EncryptedPacket} {myUserId : Bytes} {nowSec : Int}
    (h : Acceptable packet myUserId nowSec) : packet.nonce ≠ [] := by
  intro hnil
  obtain ⟨nonce, hDecode, hLength⟩ := h.nonce
  rw [hnil] at hDecode
  cases hDecode
  cases hLength

theorem validatePacketStructure_iff {packet : EncryptedPacket} {nowSec : Int} :
    validatePacketStructure packet nowSec = true ↔
      packet.messageId ≠ [] ∧ packet.senderId ≠ [] ∧ packet.receiverId ≠ [] ∧
        packet.nonce ≠ [] ∧ packet.ciphertext ≠ [] ∧ 0 < packet.timestamp ∧
        |nowSec - packet.timestamp| ≤ 300 := by
  rw [← withinWindow_iff]
  simp only [validatePacketStructure, Bool.if_false_left, Bool.and_eq_true, Bool.not_eq_true',
    decide_eq_false_iff_not, not_le, ne_eq]

theorem passesChecks_iff {packet : EncryptedPacket} {myUserId : Bytes} {nowSec : Int} :
    passesChecks packet myUserId nowSec = true ↔ Acceptable packet myUserId nowSec := by
  simp only [passesChecks, Bool.if_false_left, Bool.and_eq_true, Bool.not_eq_true',
    decide_eq_false_iff_not, Bool.not_eq_false, ne_eq, not_not, isValidBase64Blob_iff]
  rw [validatePacketStructure_iff]
  constructor
  · rintro ⟨⟨-, hSender, hReceiver, -, hCipher, hTime, hWindow⟩, hMe, hId, hNonce⟩
    exact ⟨hId, hSender, hReceiver, hMe, hNonce, hCipher, hTime, hWindow⟩
  · intro h
    exact ⟨⟨ne_nil_of_isValidMessageId h.messageId, h.senderId, h.receiverId_ne, h.nonce_ne,
      h.ciphertext, h.timestamp, h.window⟩, h.receiverId, h.messageId, h.nonce⟩

namespace CryptoService

/-- The service after the id was recorded for the sender. -/
def record (c : CryptoService) (senderId messageId : Bytes) : CryptoService :=
  { c with
    seenMessageIds := Function.update c.seenMessageIds senderId
      (messageId :: c.seenMessageIds senderId) }

theorem mem_record {c : CryptoService} {s m senderId messageId : Bytes} :
    m ∈ (c.record senderId messageId).seenMessageIds s ↔
      (s = senderId ∧ m = messageId) ∨ m ∈ c.seenMessageIds s := by
  simp only [record]
  by_cases hs : s = senderId
  · subst hs
    simp
  · simp [hs]

@[simp] theorem record_boxCalls (c : CryptoService) (senderId messageId : Bytes) :
    (c.record senderId messageId).boxCalls = c.boxCalls := rfl

/-- The packet passes the validation in the present state: the point of `decrypt` at which
the replay state is written. -/
def Reaches (c : CryptoService) (packet : EncryptedPacket) (senderPublicKey myUserId : Bytes)
    (nowSec : Int) : Prop :=
  senderPublicKey.length = crypto_box_PUBLICKEYBYTES ∧
    passesChecks packet myUserId nowSec = true ∧
    packet.messageId ∉ c.seenMessageIds packet.senderId

instance (c : CryptoService) (packet : EncryptedPacket) (senderPublicKey myUserId : Bytes)
    (nowSec : Int) : Decidable (c.Reaches packet senderPublicKey myUserId nowSec) :=
  inferInstanceAs (Decidable (_ ∧ _ ∧ _))

theorem validateMessage_eq (c : CryptoService) (packet : EncryptedPacket) (myUserId : Bytes)
    (nowSec : Int) :
    c.validateMessage packet myUserId nowSec =
      if passesChecks packet myUserId nowSec = true ∧
          packet.messageId ∉ c.seenMessageIds packet.senderId then
        (true, c.record packet.senderId packet.messageId)
      else (false, c) := by
  unfold validateMessage markSeen record
  cases passesChecks packet myUserId nowSec
  · simp
  · by_cases hSeen : packet.messageId ∈ c.seenMessageIds packet.senderId <;> simp [hSeen]

variable (S : Sodium)

theorem decrypt_of_reaches {c : CryptoService} {packet : EncryptedPacket}
    {myPrivateKey senderPublicKey myUserId : Bytes} {nowSec : Int}
    (h : c.Reaches packet senderPublicKey myUserId nowSec) :
    c.decrypt S packet myPrivateKey senderPublicKey myUserId nowSec =
      (c.record packet.senderId packet.messageId).openPacket S packet myPrivateKey
        senderPublicKey := by
  obtain ⟨hLength, hValid⟩ := h
  simp only [decrypt, hLength, ne_eq, not_true_eq_false, if_false, validateMessage_eq,
    if_pos hValid]

theorem decrypt_of_not_reaches {c : CryptoService} {packet : EncryptedPacket}
    (myPrivateKey : Bytes) {senderPublicKey myUserId : Bytes} {nowSec : Int}
    (h : ¬ c.Reaches packet senderPublicKey myUserId nowSec) :
    ∃ error, c.decrypt S packet myPrivateKey senderPublicKey myUserId nowSec =
      (.error error, c) := by
  by_cases hLength : senderPublicKey.length = crypto_box_PUBLICKEYBYTES
  · refine ⟨bytes "Message validation failed — rejected", ?_⟩
    simp only [decrypt, hLength, ne_eq, not_true_eq_false, if_false, validateMessage_eq,
      if_neg fun hValid => h ⟨hLength, hValid⟩]
  · refine ⟨bytes "Invalid sender public key length", ?_⟩
    simp only [decrypt, ne_eq, hLength, not_false_eq_true, if_true]

/-! ## The part behind the validation -/

/-- The text in the box of the packet, if it opens under these keys. -/
def openedText (packet : EncryptedPacket) (myPrivateKey senderPublicKey : Bytes) : Option Bytes :=
  match fromBase64 packet.nonce, fromBase64 packet.ciphertext with
  | some nonce, some ciphertext =>
    if ciphertext.length < crypto_box_MACBYTES then none
    else S.boxOpenEasy ciphertext nonce senderPublicKey myPrivateKey
  | _, _ => none

theorem openedText_eq_some_iff {packet : EncryptedPacket}
    {myPrivateKey senderPublicKey plaintext : Bytes} :
    openedText S packet myPrivateKey senderPublicKey = some plaintext ↔
      ∃ nonce ciphertext, packet.nonce = toBase64 nonce ∧ packet.ciphertext = toBase64 ciphertext ∧
        crypto_box_MACBYTES ≤ ciphertext.length ∧
        S.boxOpenEasy ciphertext nonce senderPublicKey myPrivateKey = some plaintext := by
  simp only [← fromBase64_eq_some_iff]
  unfold openedText
  split
  · rename_i nonce ciphertext hNonce hCipher
    simp only [hNonce, hCipher, Option.some.injEq, exists_eq_left', exists_and_left,
      Option.ite_none_left_eq_some, Nat.not_lt]
  · rename_i hNone
    simp only [reduceCtorEq, false_iff, not_exists]
    rintro nonce ciphertext ⟨hNonce, hCipher, -⟩
    exact hNone nonce ciphertext hNonce hCipher

/-- The box call that opening the packet makes, if it gets that far. -/
def openCalls (packet : EncryptedPacket) (myPrivateKey senderPublicKey : Bytes) : List BoxCall :=
  match fromBase64 packet.nonce, fromBase64 packet.ciphertext with
  | some nonce, some ciphertext =>
    if ciphertext.length < crypto_box_MACBYTES then []
    else [.openEasy ciphertext nonce senderPublicKey myPrivateKey
      (S.boxOpenEasy ciphertext nonce senderPublicKey myPrivateKey)]
  | _, _ => []

theorem openPacket_snd (c : CryptoService) (packet : EncryptedPacket)
    (myPrivateKey senderPublicKey : Bytes) :
    (c.openPacket S packet myPrivateKey senderPublicKey).2 =
      { c with boxCalls := c.boxCalls ++ openCalls S packet myPrivateKey senderPublicKey } := by
  unfold openPacket openCalls
  cases hNonce : fromBase64 packet.nonce with
  | none => simp
  | some nonce =>
    cases hCipher : fromBase64 packet.ciphertext with
    | none => simp
    | some ciphertext =>
      by_cases hShort : ciphertext.length < crypto_box_MACBYTES
      · simp [hShort]
      · simp only [hShort, if_false]
        cases S.boxOpenEasy ciphertext nonce senderPublicKey myPrivateKey <;> rfl

theorem openPacket_ok_iff {c : CryptoService} {packet : EncryptedPacket}
    {myPrivateKey senderPublicKey plaintext : Bytes} :
    (c.openPacket S packet myPrivateKey senderPublicKey).1 = .ok plaintext ↔
      openedText S packet myPrivateKey senderPublicKey = some plaintext := by
  unfold openPacket openedText
  cases fromBase64 packet.nonce with
  | none => simp
  | some nonce =>
    cases fromBase64 packet.ciphertext with
    | none => simp
    | some ciphertext =>
      by_cases hShort : ciphertext.length < crypto_box_MACBYTES
      · simp [hShort]
      · simp only [hShort, if_false]
        cases S.boxOpenEasy ciphertext nonce senderPublicKey myPrivateKey <;> simp

/-! ## The three equations of `decrypt` -/

section Decrypt

variable (c : CryptoService) (packet : EncryptedPacket)
  (myPrivateKey senderPublicKey myUserId : Bytes) (nowSec : Int)

theorem decrypt_ok_iff {plaintext : Bytes} :
    (c.decrypt S packet myPrivateKey senderPublicKey myUserId nowSec).1 = .ok plaintext ↔
      c.Reaches packet senderPublicKey myUserId nowSec ∧
        openedText S packet myPrivateKey senderPublicKey = some plaintext := by
  by_cases h : c.Reaches packet senderPublicKey myUserId nowSec
  · simp [decrypt_of_reaches S h, openPacket_ok_iff, h]
  · obtain ⟨error, hError⟩ := decrypt_of_not_reaches S myPrivateKey h
    simp [hError, h]

theorem decrypt_seenMessageIds :
    (c.decrypt S packet myPrivateKey senderPublicKey myUserId nowSec).2.seenMessageIds =
      if c.Reaches packet senderPublicKey myUserId nowSec then
        (c.record packet.senderId packet.messageId).seenMessageIds
      else c.seenMessageIds := by
  by_cases h : c.Reaches packet senderPublicKey myUserId nowSec
  · rw [decrypt_of_reaches S h, openPacket_snd, if_pos h]
  · obtain ⟨error, hError⟩ := decrypt_of_not_reaches S myPrivateKey h
    rw [hError, if_neg h]

theorem decrypt_boxCalls :
    (c.decrypt S packet myPrivateKey senderPublicKey myUserId nowSec).2.boxCalls =
      c.boxCalls ++
        if c.Reaches packet senderPublicKey myUserId nowSec then
          openCalls S packet myPrivateKey senderPublicKey
        else [] := by
  by_cases h : c.Reaches packet senderPublicKey myUserId nowSec
  · rw [decrypt_of_reaches S h, openPacket_snd, if_pos h, record_boxCalls]
  · obtain ⟨error, hError⟩ := decrypt_of_not_reaches S myPrivateKey h
    rw [hError, if_neg h, List.append_nil]

/-- The replay state answers every query as before exactly if the packet did not get as far
as being recorded. -/
theorem decrypt_answers_iff :
    (∀ s m, m ∈ (c.decrypt S packet myPrivateKey senderPublicKey myUserId nowSec).2.seenMessageIds s ↔
      m ∈ c.seenMessageIds s) ↔ ¬ c.Reaches packet senderPublicKey myUserId nowSec := by
  rw [decrypt_seenMessageIds]
  split
  · rename_i hReaches
    simp only [hReaches, not_true_eq_false, iff_false]
    intro hSame
    exact hReaches.2.2 ((hSame _ _).mp (mem_record.mpr (Or.inl ⟨rfl, rfl⟩)))
  · rename_i hReaches
    simp only [hReaches, not_false_eq_true, implies_true]

end Decrypt

/-! ## Encryption -/

section Encrypt

variable (c : CryptoService) (plaintext receiverPublicKey myPrivateKey senderId receiverId : Bytes)
  (draws : Draws) (nowSec : Int)

/-- The packet `encrypt` builds around a ciphertext. -/
def sealedPacket (senderId receiverId : Bytes) (draws : Draws) (nowSec : Int)
    (ciphertext : Bytes) : EncryptedPacket :=
  { version := 1, messageId := generateMessageId draws.messageId, senderId := senderId,
    receiverId := receiverId, timestamp := nowSec, nonce := toBase64 draws.nonce,
    ciphertext := toBase64 ciphertext }

/-- `encrypt` makes one box call and seals what it returns. -/
theorem encrypt_eq :
    c.encrypt S plaintext receiverPublicKey myPrivateKey senderId receiverId draws nowSec =
      (match S.boxEasy plaintext draws.nonce receiverPublicKey myPrivateKey with
        | none => .error (bytes "Encryption failed")
        | some ciphertext => .ok (sealedPacket senderId receiverId draws nowSec ciphertext),
      c.logCall (.easy plaintext draws.nonce receiverPublicKey myPrivateKey
        (S.boxEasy plaintext draws.nonce receiverPublicKey myPrivateKey))) := by
  unfold encrypt
  cases S.boxEasy plaintext draws.nonce receiverPublicKey myPrivateKey with
  | none => rfl
  | some ciphertext => rfl

end Encrypt

end CryptoService

end P2PMessenger.Crypto
