import P2PMessenger.Crypto.Spec
import P2PMessenger.Text.Hex
import P2PMessenger.Text.Stream
import Mathlib.Data.Set.Function

/-!
# The format of message ids

The regular expression of `isValidMessageId`, read as a description of the text: five
groups of lowercase hexadecimal digits with dashes between them. The dashes stand at fixed
places, so such a text is determined by its digits, and these are the text of sixteen bytes.
`generateMessageId` prints the digits of its draw, so it prints each such text once.
-/

namespace P2PMessenger.Crypto

open Text

/-- Groups of 8, 4, 4, 4 and 12 lowercase hexadecimal digits with dashes between them. -/
def IsMessageId (id : Bytes) : Prop :=
  ∃ a b c d e : Bytes, id = a ++ 45 :: b ++ 45 :: c ++ 45 :: d ++ 45 :: e ∧
    a.length = 8 ∧ b.length = 4 ∧ c.length = 4 ∧ d.length = 4 ∧ e.length = 12 ∧
    ∀ digit ∈ a ++ b ++ c ++ d ++ e, isHexDigit digit = true

theorem skipHex_eq_some_iff {n : Nat} {text rest : Bytes} :
    skipHex n text = some rest ↔
      ∃ digits : Bytes, text = digits ++ rest ∧ digits.length = n ∧
        ∀ digit ∈ digits, isHexDigit digit = true := by
  induction n generalizing text with
  | zero =>
    constructor
    · intro h
      exact ⟨[], Option.some.inj h, rfl, by simp⟩
    · rintro ⟨digits, rfl, hLength, -⟩
      rw [List.length_eq_zero_iff.mp hLength]
      rfl
  | succ n ih =>
    cases text with
    | nil =>
      constructor
      · intro h
        cases h
      · rintro ⟨digits, hText, hLength, -⟩
        obtain ⟨rfl, -⟩ := List.append_eq_nil_iff.mp hText.symm
        cases hLength
    | cons c text =>
      by_cases hDigit : isHexDigit c = true
      · simp only [skipHex, hDigit, if_true, ih]
        constructor
        · rintro ⟨digits, rfl, hLength, hAll⟩
          refine ⟨c :: digits, rfl, congrArg Nat.succ hLength, ?_⟩
          intro digit hMem
          rcases List.mem_cons.mp hMem with rfl | hTail
          · exact hDigit
          · exact hAll digit hTail
        · rintro ⟨digits, hText, hLength, hAll⟩
          cases digits with
          | nil => cases hLength
          | cons digit digits =>
            obtain ⟨rfl, rfl⟩ := List.cons.inj hText
            exact ⟨digits, rfl, Nat.succ.inj hLength,
              fun digit hMem => hAll digit (List.mem_cons_of_mem _ hMem)⟩
      · constructor
        · intro h
          simp [skipHex, hDigit] at h
        · rintro ⟨digits, hText, hLength, hAll⟩
          cases digits with
          | nil => cases hLength
          | cons digit digits =>
            obtain ⟨rfl, -⟩ := List.cons.inj hText
            exact absurd (hAll c List.mem_cons_self) hDigit

theorem skipDash_eq_some_iff {text rest : Bytes} :
    skipDash text = some rest ↔ text = 45 :: rest := by
  unfold skipDash
  split
  · rename_i tail
    simp
  · rename_i hOther
    simp only [reduceCtorEq, false_iff]
    intro hText
    exact hOther rest hText

theorem isValidMessageId_iff {id : Bytes} : isValidMessageId id = true ↔ IsMessageId id := by
  simp only [isValidMessageId, decide_eq_true_eq, Option.bind_eq_bind, Option.bind_eq_some_iff,
    skipHex_eq_some_iff, skipDash_eq_some_iff]
  constructor
  · rintro ⟨_, ⟨_, ⟨_, ⟨_, ⟨_, ⟨_, ⟨_, ⟨_, ⟨a, rfl, ha, hA⟩, rfl⟩, b, rfl, hb, hB⟩, rfl⟩,
      c, rfl, hc, hC⟩, rfl⟩, d, rfl, hd, hD⟩, rfl⟩, e, rfl, he, hE⟩
    refine ⟨a, b, c, d, e, by simp, ha, hb, hc, hd, he, ?_⟩
    intro digit hMem
    simp only [List.mem_append] at hMem
    rcases hMem with (((hMem | hMem) | hMem) | hMem) | hMem
    · exact hA digit hMem
    · exact hB digit hMem
    · exact hC digit hMem
    · exact hD digit hMem
    · exact hE digit hMem
  · rintro ⟨a, b, c, d, e, rfl, ha, hb, hc, hd, he, hAll⟩
    simp only [List.mem_append] at hAll
    refine ⟨_, ⟨_, ⟨_, ⟨_, ⟨_, ⟨_, ⟨_, ⟨_, ⟨a, ?_, ha, ?_⟩, rfl⟩, b, rfl, hb, ?_⟩, rfl⟩,
      c, rfl, hc, ?_⟩, rfl⟩, d, rfl, hd, ?_⟩, rfl⟩, e, (List.append_nil e).symm, he, ?_⟩
    · simp
    all_goals
      intro digit hMem
      exact hAll digit (by simp [hMem])

/-! ## The printing loop -/

/-- One turn of the loop of `generateMessageId`, on its stream. -/
def writeIdByte (oss : OStringStream) (turn : UInt8 × Nat) : OStringStream :=
  let oss := if turn.2 = 4 ∨ turn.2 = 6 ∨ turn.2 = 8 ∨ turn.2 = 10 then oss.putChar 45 else oss
  ((oss.hex.setw 2).setfill 48).putNat turn.1.toNat

def writeMessageId (buf : Bytes) : OStringStream := buf.zipIdx.foldl writeIdByte {}

/-- A byte in base 16, filled up to two digits. -/
theorem leftpad_toDigits (b : UInt8) :
    ((Nat.toDigits 16 b.toNat).map fun c => UInt8.ofNat c.toNat).leftpad 2 48 =
      [hexDigit (b.toNat / 16), hexDigit (b.toNat % 16)] := by
  have hAll : ∀ n < 256, ((Nat.toDigits 16 n).map fun c => UInt8.ofNat c.toNat).leftpad 2 48 =
      [hexDigit (n / 16), hexDigit (n % 16)] := by
    decide +kernel
  exact hAll b.toNat b.toNat_lt

theorem putByte_eq (oss : OStringStream) (b : UInt8) :
    ((oss.hex.setw 2).setfill 48).putNat b.toNat =
      { text := oss.text ++ [hexDigit (b.toNat / 16), hexDigit (b.toNat % 16)]
        fill := 48
        base := 16 } := by
  rw [← leftpad_toDigits]
  rfl

/-- A turn that starts without a width leaves none. -/
theorem writeIdByte_eq {oss : OStringStream} (h : oss.width = 0) (b : UInt8) (i : Nat) :
    writeIdByte oss (b, i) =
      { text := oss.text ++ printIdBytes i [b], fill := 48, base := 16 } := by
  simp only [writeIdByte, putByte_eq, printIdBytes]
  by_cases hDash : i = 4 ∨ i = 6 ∨ i = 8 ∨ i = 10
  · rw [if_pos hDash, if_pos hDash, OStringStream.putChar_of_width h, List.append_assoc]
  · rw [if_neg hDash, if_neg hDash, List.nil_append]

theorem printIdBytes_cons (i : Nat) (b : UInt8) (rest : Bytes) :
    printIdBytes i (b :: rest) = printIdBytes i [b] ++ printIdBytes (i + 1) rest := by
  simp [printIdBytes]

/-- The stream of the loop holds what `generateMessageId` prints. -/
theorem writeMessageId_text (buf : Bytes) : (writeMessageId buf).text = generateMessageId buf := by
  suffices h : ∀ (i : Nat) (oss : OStringStream), oss.width = 0 →
      ((buf.zipIdx i).foldl writeIdByte oss).text = oss.text ++ printIdBytes i buf by
    exact (h 0 {} rfl).trans (List.nil_append _)
  induction buf with
  | nil => exact fun i oss _ => (List.append_nil oss.text).symm
  | cons b rest ih =>
    intro i oss hWidth
    rw [List.zipIdx_cons, List.foldl_cons, writeIdByte_eq hWidth, ih _ _ rfl,
      printIdBytes_cons i b rest, List.append_assoc]

/-! ## The digits of an id -/

theorem exists_hexDigit : ∀ c : UInt8, isHexDigit c = true → ∃ v : Fin 16, hexDigit v = c := by
  decide +kernel

/-- The digits that the ids are written in. -/
def lowerHex : Hex.Alphabet UInt8 where
  digit v := hexDigit v
  injective := by decide +kernel

def idDigits (id : Bytes) : Bytes := id.filter fun c => c ≠ 45

theorem idDigits_append (a b : Bytes) : idDigits (a ++ b) = idDigits a ++ idDigits b :=
  List.filter_append a b

theorem idDigits_of_hex {digits : Bytes} (h : ∀ c ∈ digits, isHexDigit c = true) :
    idDigits digits = digits := by
  apply List.filter_eq_self.mpr
  intro c hc
  have hDash : c ≠ 45 := by
    rintro rfl
    exact absurd (h 45 hc) (by decide)
  simpa using hDash

/-- The digits of an id are those of its groups. -/
theorem idDigits_groups {a b c d e : Bytes}
    (h : ∀ digit ∈ a ++ b ++ c ++ d ++ e, isHexDigit digit = true) :
    idDigits (a ++ 45 :: b ++ 45 :: c ++ 45 :: d ++ 45 :: e) = a ++ b ++ c ++ d ++ e := by
  have hDashes : idDigits (a ++ 45 :: b ++ 45 :: c ++ 45 :: d ++ 45 :: e) =
      idDigits (a ++ b ++ c ++ d ++ e) := by
    simp [idDigits]
  rw [hDashes, idDigits_of_hex h]

/-- The lengths of the groups are fixed, so the digits determine the id. -/
theorem IsMessageId.eq_of_idDigits {id id' : Bytes} (h : IsMessageId id) (h' : IsMessageId id')
    (hDigits : idDigits id = idDigits id') : id = id' := by
  obtain ⟨a, b, c, d, e, rfl, ha, hb, hc, hd, he, hAll⟩ := h
  obtain ⟨a', b', c', d', e', rfl, ha', hb', hc', hd', he', hAll'⟩ := h'
  rw [idDigits_groups hAll, idDigits_groups hAll'] at hDigits
  -- the groups are read off from the last one on
  obtain ⟨hFour, rfl⟩ := List.append_inj' hDigits (he.trans he'.symm)
  obtain ⟨hThree, rfl⟩ := List.append_inj' hFour (hd.trans hd'.symm)
  obtain ⟨hTwo, rfl⟩ := List.append_inj' hThree (hc.trans hc'.symm)
  obtain ⟨rfl, rfl⟩ := List.append_inj' hTwo (hb.trans hb'.symm)
  rfl

/-- Besides dashes the loop prints the digits of the bytes. -/
theorem idDigits_printIdBytes (i : Nat) (buf : Bytes) :
    idDigits (printIdBytes i buf) = lowerHex.text buf := by
  induction buf generalizing i with
  | nil => rfl
  | cons b rest ih =>
    have hb := b.toNat_lt
    have hPair : idDigits (lowerHex.pair b) = lowerHex.pair b := by
      apply idDigits_of_hex
      intro c hc
      obtain ⟨v, rfl⟩ : ∃ v : Fin 16, hexDigit v = c := by
        rcases List.mem_pair.mp hc with rfl | rfl
        · exact ⟨_, rfl⟩
        · exact ⟨_, rfl⟩
      exact isHexDigit_hexDigit v v.isLt
    have hDashes : idDigits (if i = 4 ∨ i = 6 ∨ i = 8 ∨ i = 10 then [45] else []) = [] := by
      split <;> rfl
    have hText : printIdBytes i (b :: rest) =
        (if i = 4 ∨ i = 6 ∨ i = 8 ∨ i = 10 then [45] else []) ++
          (lowerHex.pair b ++ printIdBytes (i + 1) rest) := rfl
    rw [hText, idDigits_append, idDigits_append, hDashes, hPair, ih, List.nil_append,
      Hex.Alphabet.text_cons]

/-! ## Draws and ids -/

/-- Different buffers are printed differently, whatever their lengths are. -/
theorem generateMessageId_injective : Function.Injective generateMessageId := by
  intro buf buf' h
  apply lowerHex.text_injective
  have hDigits : idDigits (generateMessageId buf) = idDigits (generateMessageId buf') :=
    congrArg idDigits h
  rw [generateMessageId, generateMessageId, idDigits_printIdBytes, idDigits_printIdBytes]
    at hDigits
  exact hDigits

/-- Every accepted id is printed for some draw. -/
theorem exists_generateMessageId {id : Bytes} (h : isValidMessageId id = true) :
    ∃ buf : Bytes, buf.length = 16 ∧ generateMessageId buf = id := by
  have hId : IsMessageId id := isValidMessageId_iff.mp h
  obtain ⟨a, b, c, d, e, hText, ha, hb, hc, hd, he, hAll⟩ := hId
  have hLength : (a ++ b ++ c ++ d ++ e).length = 2 * 16 := by
    simp only [List.length_append]
    omega
  obtain ⟨buf, hDraw, hDigits⟩ := lowerHex.exists_text hLength
    fun digit hMem => exists_hexDigit digit (hAll digit hMem)
  refine ⟨buf, hDraw, ?_⟩
  have hPrinted : IsMessageId (generateMessageId buf) :=
    isValidMessageId_iff.mp (isValidMessageId_generateMessageId hDraw)
  apply hPrinted.eq_of_idDigits (isValidMessageId_iff.mp h)
  calc idDigits (generateMessageId buf)
      _ = lowerHex.text buf := idDigits_printIdBytes 0 buf
      _ = a ++ b ++ c ++ d ++ e := hDigits
      _ = idDigits id := by rw [hText, idDigits_groups hAll]

/-- The stream of the loop holds the printed id, and printing maps the draws of sixteen bytes
one to one onto the accepted ids. -/
theorem bijOn_generateMessageId :
    (∀ buf, (writeMessageId buf).text = generateMessageId buf) ∧
      Set.BijOn generateMessageId {buf | buf.length = 16} {id | isValidMessageId id = true} := by
  refine ⟨writeMessageId_text, ?_, generateMessageId_injective.injOn, ?_⟩
  · intro buf hDraw
    exact isValidMessageId_generateMessageId hDraw
  · intro id hId
    exact exists_generateMessageId hId

end P2PMessenger.Crypto
