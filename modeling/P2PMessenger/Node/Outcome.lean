import P2PMessenger.Node.Effect

/-!
# How a lookup ends

A lookup of `sendPacket` or `deliverSecureInboxMessage` is answered once, behind its flag.
`outcome` says what the answer leads to: a value in an inbox, a report, an error for the
user, or nothing. What a step puts, reports and queues for the window is read off from it
(`step_ui`, `newPackets_eq`, `newReports_eq`).
-/

namespace P2PMessenger

open Text Crypto Run

/-! ## Profiles -/

/-- What the first value of a profile lookup is good for. -/
inductive ProfileAnswer where
  | missing
  | malformed
  | undecodable
  | key (publicKey : Bytes)
  deriving DecidableEq

def profileAnswer : List Bytes → ProfileAnswer
  | [] => .missing
  | payload :: _ =>
    match cutLast pipe payload with
    | none => .malformed
    | some parts =>
      match fromBase64 parts.2 with
      | none => .undecodable
      | some publicKey => .key publicKey

theorem profileKey_eq (values : List Bytes) :
    profileKey values =
      match profileAnswer values with
      | .key publicKey => some publicKey
      | _ => none := by
  unfold profileKey profileAnswer
  cases values with
  | nil => rfl
  | cons payload rest =>
    simp only [List.head?_cons, Option.bind_eq_bind, Option.bind_some]
    cases cutLast pipe payload with
    | none => rfl
    | some parts =>
      simp only [Option.bind_some]
      cases fromBase64 parts.2 <;> rfl

/-! ## Outcomes -/

/-- `noKey` is a sender profile without a pipe, and `rejected` a packet that the validation
rejects: of these two the user is told nothing. -/
inductive Outcome where
  | put (packet : EncryptedPacket)
  | reported (report : Report)
  | failed (code message : Bytes)
  | noKey
  | rejected
  deriving DecidableEq

namespace Outcome

def packet : Outcome → Option EncryptedPacket
  | put packet => some packet
  | _ => none

def report : Outcome → Option Report
  | reported report => some report
  | _ => none

/-- What the window is told. -/
def notice : Outcome → Option UiEvent
  | reported report => some (.messageReceived report.fromPeerId report.text)
  | failed code message => some (.error code message)
  | _ => none

end Outcome

variable (S : Sodium)

namespace P2PNode

/-- The outcome of the lookup of `sendPacket`. -/
def sendOutcome (n : P2PNode) (receiverId : Bytes) (packet : EncryptedPacket)
    (values : List Bytes) (io : CallbackInput) : Outcome :=
  match profileAnswer values with
  | .missing =>
    .failed P2PErrorCode.peerNotFound
      (bytes "Recipient profile not found on DHT: " ++ receiverId)
  | .malformed =>
    .failed P2PErrorCode.peerNotFound
      (bytes "Recipient profile on DHT is malformed: " ++ receiverId)
  | .undecodable => .failed P2PErrorCode.deliveryFailed (bytes "Invalid base64 string")
  | .key publicKey =>
    match S.boxEasy packet.ciphertext io.draws.nonce publicKey n.myKeys.privateKey with
    | none => .failed P2PErrorCode.deliveryFailed (bytes "Encryption failed")
    | some ciphertext =>
      .put (CryptoService.sealedPacket n.myId receiverId io.draws io.now ciphertext)

/-- The outcome of the lookup of `deliverSecureInboxMessage`. -/
def deliveryOutcome (n : P2PNode) (senderId : Bytes) (packet : EncryptedPacket)
    (values : List Bytes) (io : CallbackInput) : Outcome :=
  match profileAnswer values with
  | .missing =>
    .failed P2PErrorCode.peerNotFound (bytes "Sender profile not found on DHT: " ++ senderId)
  | .malformed => .noKey
  | .undecodable => .failed P2PErrorCode.decryptionFailed (bytes "Invalid base64 string")
  | .key publicKey =>
    match (n.decryption S senderId packet publicKey io).1 with
    | .ok plainText => .reported ⟨senderId, plainText, n.inbound senderId packet, io.now⟩
    | .error error =>
      if isBenignCryptoError error then .rejected
      else .failed P2PErrorCode.decryptionFailed error

/-- The lookup that an event answers, behind its flag, and its outcome. -/
def completion (n : P2PNode) : Event → Option (Get × Outcome)
  | .lookup op values io =>
    match n.pending op with
    | some ⟨op, .onProfileFound receiverId packet, false⟩ =>
      some (⟨op, .onProfileFound receiverId packet, false⟩,
        n.sendOutcome S receiverId packet values io)
    | some ⟨op, .onSenderProfileFound senderId packet, false⟩ =>
      some (⟨op, .onSenderProfileFound senderId packet, false⟩,
        n.deliveryOutcome S senderId packet values io)
    | _ => none
  | _ => none

/-- The lookup of a completion was pending, and its outcome is that of its kind. -/
theorem completion_eq_some {n : P2PNode} {e : Event} {g : Get} {o : Outcome}
    (h : n.completion S e = some (g, o)) :
    ∃ values io, e = .lookup g.op values io ∧ n.pending g.op = some g ∧ g.flag = false ∧
      ((∃ receiverId packet, g.callback = .onProfileFound receiverId packet ∧
          o = n.sendOutcome S receiverId packet values io) ∨
        ∃ senderId packet, g.callback = .onSenderProfileFound senderId packet ∧
          o = n.deliveryOutcome S senderId packet values io) := by
  unfold completion at h
  split at h
  · rename_i op values io
    split at h
    · rename_i op' receiverId packet hPending
      obtain ⟨-, -, rfl⟩ := of_pending hPending
      obtain ⟨rfl, rfl⟩ := Prod.mk.inj (Option.some.inj h)
      exact ⟨values, io, rfl, hPending, rfl, Or.inl ⟨receiverId, packet, rfl, rfl⟩⟩
    · rename_i op' senderId packet hPending
      obtain ⟨-, -, rfl⟩ := of_pending hPending
      obtain ⟨rfl, rfl⟩ := Prod.mk.inj (Option.some.inj h)
      exact ⟨values, io, rfl, hPending, rfl, Or.inr ⟨senderId, packet, rfl, rfl⟩⟩
    · cases h
  · cases h

/-! ## Kinds of outcomes -/

/-- A send never ends in silence: it ends in a value for the receiver or in an error. -/
theorem sendOutcome_cases (n : P2PNode) (receiverId : Bytes) (packet : EncryptedPacket)
    (values : List Bytes) (io : CallbackInput) :
    (∃ ciphertext, n.sendOutcome S receiverId packet values io =
        .put (CryptoService.sealedPacket n.myId receiverId io.draws io.now ciphertext)) ∨
      ∃ code message, n.sendOutcome S receiverId packet values io = .failed code message := by
  unfold sendOutcome
  cases profileAnswer values with
  | missing => exact Or.inr ⟨_, _, rfl⟩
  | malformed => exact Or.inr ⟨_, _, rfl⟩
  | undecodable => exact Or.inr ⟨_, _, rfl⟩
  | key publicKey =>
    dsimp only
    split
    · exact Or.inr ⟨_, _, rfl⟩
    · rename_i ciphertext _
      exact Or.inl ⟨ciphertext, rfl⟩

theorem deliveryOutcome_ne_put (n : P2PNode) (senderId : Bytes) (packet : EncryptedPacket)
    (values : List Bytes) (io : CallbackInput) :
    (n.deliveryOutcome S senderId packet values io).packet = none := by
  unfold deliveryOutcome
  cases profileAnswer values with
  | key publicKey =>
    dsimp only
    split
    · rfl
    · split <;> rfl
  | _ => rfl

end P2PNode

/-! ## Errors the user is not told of -/

/-- Behind the validation every error is shown. -/
theorem not_benign_of_openPacket {c : CryptoService} {packet : EncryptedPacket}
    {myPrivateKey senderPublicKey error : Bytes}
    (h : (c.openPacket S packet myPrivateKey senderPublicKey).1 = .error error) :
    isBenignCryptoError error = false := by
  have hTexts : ∀ what ∈ [bytes "Ciphertext too short", bytes "Invalid base64 string",
      bytes "Decryption failed — wrong key or corrupted data"],
      isBenignCryptoError what = false := by decide +kernel
  unfold CryptoService.openPacket at h
  apply hTexts
  split at h
  · split at h
    · cases h
      simp
    · dsimp only at h
      split at h
      · cases h
        simp
      · cases h
  · cases h
    simp

/-- An error of `decrypt` is hidden exactly if the key has the right length and the packet is
invalid or a replay. -/
theorem benign_of_decrypt_iff {c : CryptoService} {packet : EncryptedPacket}
    {myPrivateKey senderPublicKey myUserId error : Bytes} {nowSec : Int}
    (h : (c.decrypt S packet myPrivateKey senderPublicKey myUserId nowSec).1 = .error error) :
    isBenignCryptoError error = true ↔
      senderPublicKey.length = crypto_box_PUBLICKEYBYTES ∧
        ¬ c.Reaches packet senderPublicKey myUserId nowSec := by
  by_cases hReaches : c.Reaches packet senderPublicKey myUserId nowSec
  · rw [CryptoService.decrypt_of_reaches S hReaches] at h
    rw [not_benign_of_openPacket S h]
    simp [hReaches]
  · by_cases hLength : senderPublicKey.length = crypto_box_PUBLICKEYBYTES
    · have hInvalid : ¬ (passesChecks packet myUserId nowSec = true ∧
          packet.messageId ∉ c.seenMessageIds packet.senderId) :=
        fun hValid => hReaches ⟨hLength, hValid⟩
      simp only [CryptoService.decrypt, hLength, ne_eq, not_true_eq_false, if_false,
        CryptoService.validateMessage_eq, if_neg hInvalid] at h
      cases h
      refine iff_of_true ?_ ⟨hLength, hReaches⟩
      decide +kernel
    · simp only [CryptoService.decrypt, hLength, ne_eq, not_false_eq_true, if_true] at h
      cases h
      refine iff_of_false ?_ (fun hKey => hLength hKey.1)
      decide +kernel

namespace P2PNode

/-- The user is not told of a packet exactly if its sender's profile has no pipe, or has a key
of the right length and the packet is invalid or a replay. -/
theorem deliveryOutcome_notice_eq_none_iff {n : P2PNode} {senderId : Bytes}
    {packet : EncryptedPacket} {values : List Bytes} {io : CallbackInput} :
    (n.deliveryOutcome S senderId packet values io).notice = none ↔
      profileAnswer values = .malformed ∨
        ∃ publicKey, profileAnswer values = .key publicKey ∧
          publicKey.length = crypto_box_PUBLICKEYBYTES ∧
          ¬ n.crypto.Reaches (n.inbound senderId packet) publicKey n.myId io.now := by
  unfold deliveryOutcome
  cases profileAnswer values with
  | missing => simp [Outcome.notice]
  | malformed => simp [Outcome.notice]
  | undecodable => simp [Outcome.notice]
  | key publicKey =>
    simp only [reduceCtorEq, false_or, ProfileAnswer.key.injEq, exists_eq_left']
    cases hResult : (n.decryption S senderId packet publicKey io).1 with
    | ok plainText =>
      have hReaches := ((CryptoService.decrypt_ok_iff S _ _ _ _ _ _).mp hResult).1
      simp [Outcome.notice, hReaches]
    | error error =>
      rw [← benign_of_decrypt_iff S hResult]
      cases hBenign : isBenignCryptoError error <;> simp [Outcome.notice, hBenign]

/-! ## What a step puts, reports and shows -/

theorem newPackets_eq (n : P2PNode) (e : Event) :
    (n.newPuts S e).filterMap Put.packet =
      ((n.completion S e).bind fun c => c.2.packet).toList := by
  cases e with
  | lookup op values io =>
    simp only [newPuts, lookupAction, completion, profileKey_eq]
    cases n.pending op with
    | none => rfl
    | some g =>
      obtain ⟨op', callback, flag⟩ := g
      cases callback with
      | findPeer userId => rfl
      | onSenderProfileFound senderId packet =>
        cases flag with
        | true => rfl
        | false =>
          simp only [Option.bind_some, deliveryOutcome_ne_put]
          cases profileAnswer values <;> rfl
      | onProfileFound receiverId packet =>
        cases flag with
        | true => rfl
        | false =>
          simp only [Option.bind_some, sendOutcome]
          cases profileAnswer values with
          | key publicKey =>
            dsimp only
            cases S.boxEasy packet.ciphertext io.draws.nonce publicKey n.myKeys.privateKey <;> rfl
          | _ => rfl
  | refreshProfile =>
    simp only [newPuts, completion]
    split <;> rfl
  | _ => rfl

theorem newReports_eq (n : P2PNode) (e : Event) :
    n.newReports S e = ((n.completion S e).bind fun c => c.2.report).toList := by
  cases e with
  | lookup op values io =>
    simp only [newReports, lookupAction, completion, profileKey_eq]
    cases n.pending op with
    | none => rfl
    | some g =>
      obtain ⟨op', callback, flag⟩ := g
      cases callback with
      | findPeer userId => rfl
      | onProfileFound receiverId packet =>
        cases flag with
        | true => rfl
        | false =>
          rcases sendOutcome_cases S n receiverId packet values io with ⟨_, hPut⟩ | ⟨_, _, hFailed⟩
          · simp only [hPut]
            cases profileAnswer values <;> rfl
          · simp only [hFailed]
            cases profileAnswer values <;> rfl
      | onSenderProfileFound senderId packet =>
        cases flag with
        | true => rfl
        | false =>
          simp only [Option.bind_some, deliveryOutcome]
          cases profileAnswer values with
          | key publicKey =>
            dsimp only
            cases (n.decryption S senderId packet publicKey io).1 with
            | ok plainText => rfl
            | error error =>
              dsimp only
              split <;> rfl
          | _ => rfl
  | _ => rfl

end P2PNode

end P2PMessenger
