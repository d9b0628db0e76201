import P2PMessenger.Crypto.MessageId
import P2PMessenger.Run.Trace

/-!
# What the validation accepts over a history of calls

`validateMessage` answers from the packet, the own id, the clock and the replay state, and
it writes the replay state only when it accepts. So its answer after any history of calls
is fixed by the packet and by the pairs accepted before, and it depends on the calls of the
same sender only. The sign of the timestamp is tested before it is subtracted from the
clock, which keeps the arithmetic inside `long long`.
-/

namespace P2PMessenger.Crypto

open Text Run

/-- A call of `validateMessage` with the clock at that moment. -/
structure Validation where
  packet : EncryptedPacket
  myUserId : Bytes
  nowSec : Int

namespace Validation

def pair (call : Validation) : Bytes × Bytes := (call.packet.senderId, call.packet.messageId)

/-- The timestamp and the clock are values of `long long`, and the clock is not negative. -/
structure InRange (call : Validation) : Prop where
  timestamp : InInt64 call.packet.timestamp
  clock : InInt64 call.nowSec
  clock_nonneg : 0 ≤ call.nowSec

/-- The packet of the call is complete, fresh and well formed. -/
structure WellFormed (call : Validation) : Prop where
  messageId_ne : call.packet.messageId ≠ []
  senderId_ne : call.packet.senderId ≠ []
  receiverId_ne : call.packet.receiverId ≠ []
  nonce_ne : call.packet.nonce ≠ []
  ciphertext_ne : call.packet.ciphertext ≠ []
  timestamp_pos : 0 < call.packet.timestamp
  difference_range : InInt64 (call.nowSec - call.packet.timestamp)
  age_range : InInt64 |call.nowSec - call.packet.timestamp|
  age_le : |call.nowSec - call.packet.timestamp| ≤ 300
  receiverId : call.packet.receiverId = call.myUserId
  messageId : IsMessageId call.packet.messageId
  nonce : ∃ nonce, call.packet.nonce = toBase64 nonce ∧ nonce.length = crypto_box_NONCEBYTES

/-- A positive timestamp cannot overflow against a clock that is not negative. -/
theorem InRange.no_overflow {call : Validation} (h : call.InRange)
    (hPos : 0 < call.packet.timestamp) :
    InInt64 (call.nowSec - call.packet.timestamp) ∧
      InInt64 |call.nowSec - call.packet.timestamp| := by
  obtain ⟨hTimeLow, hTimeHigh⟩ := h.timestamp
  obtain ⟨hClockLow, hClockHigh⟩ := h.clock
  have hClock : 0 ≤ call.nowSec := h.clock_nonneg
  constructor
  · constructor <;> omega
  · have hUpper : |call.nowSec - call.packet.timestamp| < 2 ^ 63 := by
      apply abs_lt.mpr
      constructor <;> omega
    have hLower : 0 ≤ |call.nowSec - call.packet.timestamp| := abs_nonneg _
    exact ⟨by omega, hUpper⟩

theorem wellFormed_iff_passesChecks {call : Validation} :
    call.WellFormed ↔ passesChecks call.packet call.myUserId call.nowSec = true := by
  rw [passesChecks_iff]
  constructor
  · intro h
    obtain ⟨nonce, hNonce, hLength⟩ := h.nonce
    exact ⟨isValidMessageId_iff.mpr h.messageId, h.senderId_ne, h.receiverId_ne, h.receiverId,
      ⟨nonce, fromBase64_eq_some_iff.mpr hNonce, hLength⟩, h.ciphertext_ne, h.timestamp_pos,
      h.age_le⟩
  · intro h
    obtain ⟨nonce, hNonce, hLength⟩ := h.nonce
    have hWindow : |call.nowSec - call.packet.timestamp| ≤ 300 := h.window
    obtain ⟨hLow, hHigh⟩ := abs_le.mp hWindow
    have hNonneg : 0 ≤ |call.nowSec - call.packet.timestamp| := abs_nonneg _
    exact ⟨ne_nil_of_isValidMessageId h.messageId, h.senderId, h.receiverId_ne, h.nonce_ne,
      h.ciphertext, h.timestamp, ⟨by omega, by omega⟩, ⟨by omega, by omega⟩, hWindow,
      h.receiverId, isValidMessageId_iff.mp h.messageId,
      ⟨nonce, fromBase64_eq_some_iff.mp hNonce, hLength⟩⟩

instance (call : Validation) : Decidable call.WellFormed :=
  decidable_of_iff _ wellFormed_iff_passesChecks.symm

end Validation

namespace CryptoService

/-! ## Histories of calls -/

def validate (c : CryptoService) (call : Validation) : Bool × CryptoService :=
  c.validateMessage call.packet call.myUserId call.nowSec

/-- A new service after the calls. -/
def validated (calls : List Validation) : CryptoService :=
  run (fun c call => (c.validate call).2) {} calls

/-- The answer to a call that comes after the others. -/
def answer (calls : List Validation) (call : Validation) : Bool :=
  ((validated calls).validate call).1

theorem validated_snoc (calls : List Validation) (call : Validation) :
    validated (calls ++ [call]) = ((validated calls).validate call).2 := run_snoc _ calls call

/-- One call: it accepts and records the pair, or it changes nothing. -/
theorem validate_eq (c : CryptoService) (call : Validation) :
    c.validate call =
      if call.WellFormed ∧ call.packet.messageId ∉ c.seenMessageIds call.packet.senderId then
        (true, c.record call.packet.senderId call.packet.messageId)
      else (false, c) := by
  simp only [validate, validateMessage_eq, Validation.wellFormed_iff_passesChecks]

theorem validate_accepts_iff (c : CryptoService) (call : Validation) :
    (c.validate call).1 = true ↔
      call.WellFormed ∧ call.packet.messageId ∉ c.seenMessageIds call.packet.senderId := by
  rw [validate_eq]
  split <;> simp_all

theorem validate_of_rejected {c : CryptoService} {call : Validation}
    (h : (c.validate call).1 = false) : (c.validate call).2 = c := by
  rw [validate_eq] at h ⊢
  split at h
  · cases h
  · rename_i hRejected
    rw [if_neg hRejected]

/-- What the replay state holds after a call: what it held, and the pair if it was accepted. -/
theorem mem_validate_iff {c : CryptoService} {call : Validation} {s m : Bytes} :
    m ∈ (c.validate call).2.seenMessageIds s ↔
      m ∈ c.seenMessageIds s ∨ ((c.validate call).1 = true ∧ call.pair = (s, m)) := by
  rw [validate_eq]
  split
  · rw [mem_record, Validation.pair, Prod.mk.injEq]
    simp only [true_and]
    rw [or_comm, eq_comm (a := s), eq_comm (a := m)]
  · simp

/-- The replay state consists of the pairs accepted so far. -/
theorem mem_validated_iff {calls : List Validation} {s m : Bytes} :
    m ∈ (validated calls).seenMessageIds s ↔
      ∃ pre call post, calls = pre ++ call :: post ∧ answer pre call = true ∧
        call.pair = (s, m) := by
  induction calls using List.reverseRecOn with
  | nil => simp [validated]
  | append_singleton calls last ih =>
    rw [validated_snoc, mem_validate_iff, ih]
    constructor
    · rintro (⟨pre, call, post, rfl, hAnswer, hPair⟩ | ⟨hAnswer, hPair⟩)
      · exact ⟨pre, call, post ++ [last], by simp, hAnswer, hPair⟩
      · exact ⟨calls, last, [], rfl, hAnswer, hPair⟩
    · rintro ⟨pre, call, post, hCalls, hAnswer, hPair⟩
      rcases List.eq_nil_or_concat post with rfl | ⟨post', x, rfl⟩
      · obtain ⟨rfl, hLast⟩ := List.append_inj' hCalls rfl
        obtain rfl := List.singleton_inj.mp hLast
        exact Or.inr ⟨hAnswer, hPair⟩
      · rw [List.concat_eq_append, ← List.cons_append, ← List.append_assoc] at hCalls
        obtain ⟨rfl, -⟩ := List.append_inj' hCalls rfl
        exact Or.inl ⟨pre, call, post', rfl, hAnswer, hPair⟩

/-- A rejected call leaves no trace. -/
theorem validated_of_rejected {pre post : List Validation} {call : Validation}
    (h : answer pre call = false) : validated (pre ++ call :: post) = validated (pre ++ post) := by
  have hSame : ((validated pre).validate call).2 = validated pre := validate_of_rejected h
  unfold validated at hSame ⊢
  rw [run_append, run_cons, hSame, run_append]

/-- Two states that agree on one sender still agree on it after the same calls, even if only
one of them takes those of the other senders. -/
theorem seenMessageIds_run_filter {c d : CryptoService} {s : Bytes}
    (h : c.seenMessageIds s = d.seenMessageIds s) (calls : List Validation) :
    (run (fun c call => (c.validate call).2) c calls).seenMessageIds s =
      (run (fun c call => (c.validate call).2) d
        (calls.filter fun call => call.packet.senderId = s)).seenMessageIds s := by
  induction calls generalizing c d with
  | nil => exact h
  | cons call rest ih =>
    rw [run_cons]
    by_cases hSender : call.packet.senderId = s
    · rw [List.filter_cons_of_pos (by simpa using hSender), run_cons]
      apply ih
      subst hSender
      rw [validate_eq, validate_eq, h]
      split
      · simp only [record, Function.update_self, h]
      · exact h
    · rw [List.filter_cons_of_neg (by simpa using hSender)]
      apply ih
      rw [validate_eq]
      split
      · simp only [record]
        rw [Function.update_of_ne (Ne.symm hSender), h]
      · exact h

/-- A call is accepted if and only if its packet is well formed and no earlier call accepted
its pair. No accepted or rejected call overflows, a rejected call changes no later answer,
and only the calls of the same sender have a say. -/
theorem validateMessage_accepts_iff {calls : List Validation} {call : Validation}
    (hRange : ∀ c ∈ call :: calls, c.InRange) :
    (answer calls call = true ↔
      call.WellFormed ∧ ∀ pre c post, calls = pre ++ c :: post → answer pre c = true →
        c.pair ≠ call.pair) ∧
    (∀ c ∈ call :: calls, 0 < c.packet.timestamp →
      InInt64 (c.nowSec - c.packet.timestamp) ∧ InInt64 |c.nowSec - c.packet.timestamp|) ∧
    (∀ pre c post, calls = pre ++ c :: post → answer pre c = false →
      answer calls call = answer (pre ++ post) call) ∧
    answer calls call =
      answer (calls.filter fun c => c.packet.senderId = call.packet.senderId) call := by
  refine ⟨?_, ?_, ?_, ?_⟩
  · rw [answer, validate_accepts_iff, mem_validated_iff]
    apply and_congr_right
    intro _
    constructor
    · intro hNew pre c post hCalls hAnswer hPair
      exact hNew ⟨pre, c, post, hCalls, hAnswer, hPair⟩
    · rintro hNew ⟨pre, c, post, hCalls, hAnswer, hPair⟩
      exact hNew pre c post hCalls hAnswer hPair
  · intro c hMem hPos
    exact (hRange c hMem).no_overflow hPos
  · rintro pre c post rfl hRejected
    rw [answer, validated_of_rejected hRejected, answer]
  · have hSeen : (validated calls).seenMessageIds call.packet.senderId =
        (validated (calls.filter fun c =>
          c.packet.senderId = call.packet.senderId)).seenMessageIds call.packet.senderId :=
      seenMessageIds_run_filter rfl calls
    rw [Bool.eq_iff_iff, answer, answer, validate_accepts_iff, validate_accepts_iff, hSeen]

end CryptoService

/-- Bob validates a packet from Alice at noon. -/
def noonValidation : Validation where
  packet := CryptoService.sealedPacket (bytes "alice") (bytes "bob") (.constant 5 9) 43200 [1, 2, 3]
  myUserId := bytes "bob"
  nowSec := 43200

theorem second_copy_rejected : CryptoService.answer [noonValidation] noonValidation ≠ true := by
  intro hAccepted
  have hRange : ∀ c ∈ [noonValidation, noonValidation], c.InRange := by
    intro c hMem
    obtain rfl : c = noonValidation := by simpa using hMem
    exact ⟨by decide, by decide, by decide⟩
  have hIff := (CryptoService.validateMessage_accepts_iff hRange).1
  exact (hIff.mp hAccepted).2 [] noonValidation [] rfl (by decide +kernel) rfl

end P2PMessenger.Crypto
