import P2PMessenger.Text.Bytes
import Mathlib.Data.Set.Image
import Mathlib.Logic.Equiv.Basic

/-!
# Bytes as pairs of digits

The text of a byte string in base 16, over any alphabet of sixteen different digits. A byte
is the pair of its halves, so different byte strings have different texts, and every text of
an even number of digits is the text of a byte string.
-/

namespace P2PMessenger.Text.Hex

/-- A byte is its high half and its low half. -/
def halves : UInt8 ≃ Fin 16 × Fin 16 where
  toFun b := (⟨b.toNat / 16, by have := b.toNat_lt; omega⟩, ⟨b.toNat % 16, by omega⟩)
  invFun p := UInt8.ofNat (16 * p.1 + p.2)
  left_inv b := by
    have hHalves : 16 * (b.toNat / 16) + b.toNat % 16 = b.toNat := by omega
    show UInt8.ofNat (16 * (b.toNat / 16) + b.toNat % 16) = b
    rw [hHalves, UInt8.ofNat_toNat]
  right_inv p := by
    obtain ⟨high, low⟩ := p
    have hByte : (UInt8.ofNat (16 * high + low)).toNat = 16 * high + low := by
      rw [UInt8.toNat_ofNat']
      omega
    refine Prod.ext (Fin.ext ?_) (Fin.ext ?_)
    · show (UInt8.ofNat (16 * high + low)).toNat / 16 = high
      omega
    · show (UInt8.ofNat (16 * high + low)).toNat % 16 = low
      omega

/-- Sixteen different digits. -/
structure Alphabet (α : Type) where
  digit : Fin 16 → α
  injective : Function.Injective digit

namespace Alphabet

variable {α : Type} (A : Alphabet α)

/-- The two digits of a byte, the high one at the front. -/
def pair (b : UInt8) : List α := [A.digit (halves b).1, A.digit (halves b).2]

def text (bs : Bytes) : List α := bs.flatMap A.pair

@[simp] theorem text_nil : A.text [] = [] := rfl

@[simp] theorem text_cons (b : UInt8) (bs : Bytes) : A.text (b :: bs) = A.pair b ++ A.text bs := rfl

theorem pair_injective : Function.Injective A.pair := by
  intro b c h
  obtain ⟨hHigh, hRest⟩ := List.cons.inj h
  apply halves.injective
  exact Prod.ext (A.injective hHigh) (A.injective (List.singleton_inj.mp hRest))

theorem text_injective : Function.Injective A.text := by
  intro bs
  induction bs with
  | nil =>
    intro cs h
    cases cs with
    | nil => rfl
    | cons c cs => cases h
  | cons b bs ih =>
    intro cs h
    cases cs with
    | nil => cases h
    | cons c cs =>
      rw [text_cons, text_cons] at h
      obtain ⟨hFirst, hRest⟩ := List.append_inj h rfl
      rw [A.pair_injective hFirst, ih hRest]

/-- Two digits for each byte. -/
theorem exists_text {text : List α} {n : Nat} (hLength : text.length = 2 * n)
    (hDigits : ∀ c ∈ text, c ∈ Set.range A.digit) :
    ∃ bs : Bytes, bs.length = n ∧ A.text bs = text := by
  induction n generalizing text with
  | zero => exact ⟨[], rfl, (List.length_eq_zero_iff.mp hLength).symm⟩
  | succ n ih =>
    obtain ⟨high, low, rest, rfl⟩ : ∃ high low rest, text = high :: low :: rest := by
      match text, hLength with
      | high :: low :: rest, _ => exact ⟨high, low, rest, rfl⟩
    obtain ⟨u, rfl⟩ := hDigits high (by simp)
    obtain ⟨v, rfl⟩ := hDigits low (by simp)
    have hRest : rest.length = 2 * n := by
      simp only [List.length_cons] at hLength
      omega
    obtain ⟨bs, hBytes, rfl⟩ := ih hRest fun c hc => hDigits c (by simp [hc])
    refine ⟨halves.symm (u, v) :: bs, congrArg Nat.succ hBytes, ?_⟩
    rw [text_cons, pair, Equiv.apply_symm_apply]
    rfl

end Alphabet

end P2PMessenger.Text.Hex
