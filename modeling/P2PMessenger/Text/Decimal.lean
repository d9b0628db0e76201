import P2PMessenger.Text.Bytes
import Mathlib.Data.FinEnum
import Mathlib.Data.Nat.Digits.Defs

/-!
# Decimal integers

`std::to_string` and `std::stoll` on `long long`. The reader skips white space, takes an
optional sign and stops at the first byte that is not a digit; it fails without a digit
and outside the range of the type. It reads back every number the printer writes.
-/

namespace P2PMessenger.Text

/-- The values of `long long`. -/
def InInt64 (z : Int) : Prop := -2 ^ 63 ≤ z ∧ z < 2 ^ 63

instance (z : Int) : Decidable (InInt64 z) := inferInstanceAs (Decidable (_ ∧ _))

def isDigit (b : UInt8) : Bool := 48 ≤ b && b ≤ 57

/-- The digits of a natural number, the first one at the front. -/
def natDigits (n : Nat) : Bytes :=
  if n = 0 then [48] else (Nat.digits 10 n).reverse.map fun d => UInt8.ofNat (48 + d)

def digitsValue (ds : Bytes) : Nat := ds.foldl (fun v d => 10 * v + (d.toNat - 48)) 0

/-- `std::to_string`. -/
def decimal (z : Int) : Bytes :=
  if z < 0 then 45 :: natDigits z.natAbs else natDigits z.natAbs

/-- An optional sign and the text behind it; `true` is the minus sign. -/
def cutSign : Bytes → Bool × Bytes
  | 45 :: rest => (true, rest)
  | 43 :: rest => (false, rest)
  | rest => (false, rest)

def signedValue (signed : Bool × Bytes) : Int :=
  if signed.1 then -digitsValue signed.2 else digitsValue signed.2

/-- `std::stoll`; `none` where it throws. -/
def stoll (text : Bytes) : Option Int :=
  let signed := cutSign (text.dropWhile isSpace)
  let ds := signed.2.takeWhile isDigit
  if ds ≠ [] ∧ InInt64 (signedValue (signed.1, ds)) then some (signedValue (signed.1, ds))
  else none

/-! ## What the printer writes -/

theorem digit_toNat {d : Nat} (h : d < 10) : (UInt8.ofNat (48 + d)).toNat = 48 + d := by
  simp only [UInt8.toNat_ofNat']
  omega

theorem isDigit_ofNat {d : Nat} (h : d < 10) : isDigit (UInt8.ofNat (48 + d)) = true := by
  have hd := digit_toNat h
  simp only [isDigit, Bool.and_eq_true, decide_eq_true_eq, UInt8.le_iff_toNat_le, hd]
  constructor
  · exact Nat.le_add_right 48 d
  · change 48 + d ≤ 57
    omega

theorem isDigit_of_mem_natDigits {n : Nat} {b : UInt8} (h : b ∈ natDigits n) :
    isDigit b = true := by
  unfold natDigits at h
  split at h
  · rw [List.mem_singleton.mp h]
    rfl
  · obtain ⟨d, hd, rfl⟩ := List.mem_map.mp h
    exact isDigit_ofNat (Nat.digits_lt_base (by omega) (List.mem_reverse.mp hd))

theorem natDigits_ne_nil (n : Nat) : natDigits n ≠ [] := by
  unfold natDigits
  split
  · simp
  · rename_i h
    simp [Nat.digits_ne_nil_iff_ne_zero.mpr h]

theorem digitsValue_reverse_map (l : List Nat) (h : ∀ d ∈ l, d < 10) :
    digitsValue (l.reverse.map fun d => UInt8.ofNat (48 + d)) = Nat.ofDigits 10 l := by
  unfold digitsValue
  induction l with
  | nil => rfl
  | cons d ds ih =>
    have hd := digit_toNat (h d List.mem_cons_self)
    simp only [List.reverse_cons, List.map_append, List.foldl_append, List.map_cons, List.map_nil,
      List.foldl_cons, List.foldl_nil, ih fun e he => h e (List.mem_cons_of_mem _ he), hd,
      Nat.ofDigits_cons]
    omega

theorem digitsValue_natDigits (n : Nat) : digitsValue (natDigits n) = n := by
  unfold natDigits
  split
  · rename_i h
    rw [h]
    rfl
  · rw [digitsValue_reverse_map _ fun d hd => Nat.digits_lt_base (by omega) hd,
      Nat.ofDigits_digits]

/-- Every byte of a printed number is a digit or the minus sign. -/
theorem mem_decimal {z : Int} {b : UInt8} (h : b ∈ decimal z) : b = 45 ∨ isDigit b = true := by
  unfold decimal at h
  split at h
  · rcases List.mem_cons.mp h with rfl | h
    · exact Or.inl rfl
    · exact Or.inr (isDigit_of_mem_natDigits h)
  · exact Or.inr (isDigit_of_mem_natDigits h)

theorem not_mem_decimal {z : Int} {b : UInt8} (hMinus : b ≠ 45) (hDigit : isDigit b = false) :
    b ∉ decimal z := by
  intro h
  rcases mem_decimal h with h | h
  · exact hMinus h
  · rw [hDigit] at h
    cases h

/-! ## Reading it back -/

theorem takeWhile_natDigits (n : Nat) : (natDigits n).takeWhile isDigit = natDigits n :=
  List.takeWhile_eq_self_iff.mpr fun _ h => isDigit_of_mem_natDigits h

theorem not_isSpace_of_isDigit : ∀ b : UInt8, isDigit b = true → isSpace b = false := by
  decide +kernel

theorem dropWhile_decimal (z : Int) : (decimal z).dropWhile isSpace = decimal z := by
  apply dropWhile_eq_self
  intro c hc
  rcases mem_decimal (List.mem_of_mem_head? hc) with rfl | h
  · rfl
  · exact not_isSpace_of_isDigit c h

theorem cutSign_natDigits (n : Nat) : cutSign (natDigits n) = (false, natDigits n) := by
  have hne := natDigits_ne_nil n
  have hdig := fun b (h : b ∈ natDigits n) => isDigit_of_mem_natDigits h
  generalize natDigits n = ds at hne hdig
  unfold cutSign
  split
  · exact absurd (hdig 45 List.mem_cons_self) (by decide)
  · exact absurd (hdig 43 List.mem_cons_self) (by decide)
  · rfl

theorem cutSign_decimal (z : Int) : cutSign (decimal z) = (decide (z < 0), natDigits z.natAbs) := by
  unfold decimal
  split
  · rename_i hz
    simp [cutSign, hz]
  · rename_i hz
    simp [cutSign_natDigits, hz]

theorem stoll_decimal {z : Int} (h : InInt64 z) : stoll (decimal z) = some z := by
  have hz : signedValue (decide (z < 0), natDigits z.natAbs) = z := by
    simp only [signedValue, digitsValue_natDigits, decide_eq_true_eq]
    split <;> omega
  simp only [stoll, dropWhile_decimal, cutSign_decimal, takeWhile_natDigits, hz]
  exact if_pos ⟨natDigits_ne_nil _, h⟩

end P2PMessenger.Text
