import P2PMessenger.Text.Bytes
import Mathlib.Data.FinEnum

/-!
# Strict standard base64

The standard alphabet with padding. The decoder is the strict one: it takes whole groups
of four, allows padding only in the last group and asks for the unused bits of a padded
group to be zero. So it accepts exactly the texts the encoder writes
(`decode_eq_some_iff`): every byte string has one encoding.
-/

namespace P2PMessenger.Text.Base64

/-- The character of a value below 64. -/
def sextetChar (v : Nat) : UInt8 :=
  if v < 26 then UInt8.ofNat (65 + v)
  else if v < 52 then UInt8.ofNat (71 + v)
  else if v < 62 then UInt8.ofNat (v - 4)
  else if v = 62 then 43
  else 47

/-- The value of a character of the alphabet. -/
def charSextet (c : UInt8) : Option Nat :=
  if 65 ≤ c ∧ c ≤ 90 then some (c.toNat - 65)
  else if 97 ≤ c ∧ c ≤ 122 then some (c.toNat - 71)
  else if 48 ≤ c ∧ c ≤ 57 then some (c.toNat + 4)
  else if c = 43 then some 62
  else if c = 47 then some 63
  else none

def encode : Bytes → Bytes
  | [] => []
  | [a] => [sextetChar (a.toNat / 4), sextetChar (a.toNat % 4 * 16), 61, 61]
  | [a, b] =>
    [sextetChar (a.toNat / 4), sextetChar (a.toNat % 4 * 16 + b.toNat / 16),
      sextetChar (b.toNat % 16 * 4), 61]
  | a :: b :: c :: rest =>
    sextetChar (a.toNat / 4) :: sextetChar (a.toNat % 4 * 16 + b.toNat / 16) ::
      sextetChar (b.toNat % 16 * 4 + c.toNat / 64) :: sextetChar (c.toNat % 64) :: encode rest

def firstByte (v u : Nat) : UInt8 := UInt8.ofNat (v * 4 + u / 16)

def secondByte (u t : Nat) : UInt8 := UInt8.ofNat (u % 16 * 16 + t / 4)

def thirdByte (t s : Nat) : UInt8 := UInt8.ofNat (t % 4 * 64 + s)

def decode : Bytes → Option Bytes
  | [] => some []
  | w :: x :: y :: z :: rest =>
    match charSextet w, charSextet x with
    | some v, some u =>
      if rest = [] ∧ z = 61 ∧ y = 61 then
        if u % 16 = 0 then some [firstByte v u] else none
      else match charSextet y with
        | none => none
        | some t =>
          if rest = [] ∧ z = 61 then
            if t % 4 = 0 then some [firstByte v u, secondByte u t] else none
          else match charSextet z, decode rest with
            | some s, some bs => some (firstByte v u :: secondByte u t :: thirdByte t s :: bs)
            | _, _ => none
    | _, _ => none
  | _ => none

/-! ## The alphabet -/

theorem charSextet_sextetChar : ∀ v < 64, charSextet (sextetChar v) = some v := by
  decide +kernel

theorem sextetChar_of_charSextet : ∀ c : UInt8, ∀ v, charSextet c = some v →
    v < 64 ∧ sextetChar v = c := by
  have hAll : ∀ c : UInt8, (charSextet c).all fun v => v < 64 ∧ sextetChar v = c := by
    decide +kernel
  intro c v h
  have hc := hAll c
  rw [h] at hc
  simpa using hc

theorem sextetChar_ne_pad : ∀ v < 64, sextetChar v ≠ 61 := by
  decide +kernel

theorem ofNat_eq {n : Nat} {a : UInt8} (h : n = a.toNat) : UInt8.ofNat n = a := by
  rw [h, UInt8.ofNat_toNat]

/-! ## Decoding what was encoded -/

theorem decode_encode (bs : Bytes) : decode (encode bs) = some bs := by
  induction bs using encode.induct with
  | case1 => rfl
  | case2 a =>
    have ha := a.toNat_lt
    simp only [encode, decode, charSextet_sextetChar (a.toNat / 4) (by omega),
      charSextet_sextetChar (a.toNat % 4 * 16) (by omega), and_self, if_true]
    rw [if_pos (by omega), firstByte, ofNat_eq (a := a) (by omega)]
  | case3 a b =>
    have ha := a.toNat_lt
    have hb := b.toNat_lt
    have hy := sextetChar_ne_pad (b.toNat % 16 * 4) (by omega)
    simp only [encode, decode, charSextet_sextetChar (a.toNat / 4) (by omega),
      charSextet_sextetChar (a.toNat % 4 * 16 + b.toNat / 16) (by omega),
      charSextet_sextetChar (b.toNat % 16 * 4) (by omega), hy, and_false, if_false, and_self,
      if_true]
    rw [if_pos (by omega), firstByte, secondByte, ofNat_eq (a := a) (by omega),
      ofNat_eq (a := b) (by omega)]
  | case4 a b c rest ih =>
    have ha := a.toNat_lt
    have hb := b.toNat_lt
    have hc := c.toNat_lt
    have hz := sextetChar_ne_pad (c.toNat % 64) (by omega)
    simp only [encode, decode, charSextet_sextetChar (a.toNat / 4) (by omega),
      charSextet_sextetChar (a.toNat % 4 * 16 + b.toNat / 16) (by omega),
      charSextet_sextetChar (b.toNat % 16 * 4 + c.toNat / 64) (by omega),
      charSextet_sextetChar (c.toNat % 64) (by omega), hz, false_and, and_false, if_false, ih]
    rw [firstByte, secondByte, thirdByte, ofNat_eq (a := a) (by omega),
      ofNat_eq (a := b) (by omega), ofNat_eq (a := c) (by omega)]

theorem encode_injective : Function.Injective encode := by
  intro a b h
  have hdec := decode_encode a
  rw [h, decode_encode] at hdec
  exact (Option.some.inj hdec).symm

/-! ## Every accepted text is an encoding -/

theorem firstByte_toNat {v u : Nat} (hv : v < 64) (hu : u < 64) :
    (firstByte v u).toNat = v * 4 + u / 16 := by
  simp only [firstByte, UInt8.toNat_ofNat']
  omega

theorem secondByte_toNat {u t : Nat} (ht : t < 64) :
    (secondByte u t).toNat = u % 16 * 16 + t / 4 := by
  simp only [secondByte, UInt8.toNat_ofNat']
  omega

theorem thirdByte_toNat {t s : Nat} (hs : s < 64) :
    (thirdByte t s).toNat = t % 4 * 64 + s := by
  simp only [thirdByte, UInt8.toNat_ofNat']
  omega

theorem encode_of_decode {text bs : Bytes} (h : decode text = some bs) : encode bs = text := by
  induction text using decode.induct generalizing bs with
  | case1 =>
    cases h
    rfl
  | case2 w x y z rest v u hx hw hPad hBits =>
    obtain ⟨hv, rfl⟩ := sextetChar_of_charSextet w v hw
    obtain ⟨hu, rfl⟩ := sextetChar_of_charSextet x u hx
    simp only [decode, hw, hx, if_pos hPad, if_pos hBits, Option.some.injEq] at h
    obtain ⟨rfl, rfl, rfl⟩ := hPad
    subst h
    simp only [encode, firstByte_toNat hv hu]
    rw [show (v * 4 + u / 16) / 4 = v by omega, show (v * 4 + u / 16) % 4 * 16 = u by omega]
  | case3 w x y z rest v u hx hw hPad hBits =>
    simp [decode, hw, hx, hPad, hBits] at h
  | case4 w x y z rest v u hx hw hPad hy =>
    simp [decode, hw, hx, hPad, hy] at h
  | case5 w x y z rest v u hx hw hNoPad t hy hPad hBits =>
    obtain ⟨hv, rfl⟩ := sextetChar_of_charSextet w v hw
    obtain ⟨hu, rfl⟩ := sextetChar_of_charSextet x u hx
    obtain ⟨ht, rfl⟩ := sextetChar_of_charSextet y t hy
    simp only [decode, hw, hx, hy, if_neg hNoPad, if_pos hPad, if_pos hBits,
      Option.some.injEq] at h
    obtain ⟨rfl, rfl⟩ := hPad
    subst h
    simp only [encode, firstByte_toNat hv hu, secondByte_toNat ht]
    rw [show (v * 4 + u / 16) / 4 = v by omega,
      show (v * 4 + u / 16) % 4 * 16 + (u % 16 * 16 + t / 4) / 16 = u by omega,
      show (u % 16 * 16 + t / 4) % 16 * 4 = t by omega]
  | case6 w x y z rest v u hx hw hNoPad t hy hPad hBits =>
    simp only [decode, hw, hx, hy, if_neg hNoPad, if_pos hPad, if_neg hBits, reduceCtorEq] at h
  | case7 w x y z rest v u hx hw hNoPad t hy hPad s bs' hrest hz ih =>
    obtain ⟨hv, rfl⟩ := sextetChar_of_charSextet w v hw
    obtain ⟨hu, rfl⟩ := sextetChar_of_charSextet x u hx
    obtain ⟨ht, rfl⟩ := sextetChar_of_charSextet y t hy
    obtain ⟨hs, rfl⟩ := sextetChar_of_charSextet z s hz
    simp only [decode, hw, hx, hy, hz, hrest, if_neg hNoPad, if_neg hPad,
      Option.some.injEq] at h
    subst h
    simp only [encode, firstByte_toNat hv hu, secondByte_toNat ht, thirdByte_toNat hs,
      ih hrest]
    rw [show (v * 4 + u / 16) / 4 = v by omega,
      show (v * 4 + u / 16) % 4 * 16 + (u % 16 * 16 + t / 4) / 16 = u by omega,
      show (u % 16 * 16 + t / 4) % 16 * 4 + (t % 4 * 64 + s) / 64 = t by omega,
      show (t % 4 * 64 + s) % 64 = s by omega]
  | case8 w x y z rest v u hx hw hNoPad t hy hPad hNone ih =>
    simp only [decode, hw, hx, hy, if_neg hNoPad, if_neg hPad, reduceCtorEq] at h
  | case9 w x y z rest hNone =>
    simp only [decode, reduceCtorEq] at h
  | case10 text hNil hCons =>
    unfold decode at h
    split at h
    · exact (hNil rfl).elim
    · exact (hCons _ _ _ _ _ rfl).elim
    · cases h

theorem decode_eq_some_iff {text bs : Bytes} : decode text = some bs ↔ text = encode bs := by
  constructor
  · exact fun h => (encode_of_decode h).symm
  · rintro rfl
    exact decode_encode bs

/-! ## Separators never occur in an encoding -/

def InAlphabet (c : UInt8) : Bool := c = 61 || (charSextet c).isSome

theorem inAlphabet_sextetChar : ∀ v < 64, InAlphabet (sextetChar v) = true := by
  decide +kernel

theorem inAlphabet_of_mem_encode {bs : Bytes} {c : UInt8} (h : c ∈ encode bs) :
    InAlphabet c = true := by
  induction bs using encode.induct with
  | case1 => cases h
  | case2 a =>
    have ha := a.toNat_lt
    simp only [encode, List.mem_cons, List.not_mem_nil, or_false] at h
    rcases h with rfl | rfl | rfl | rfl
    · exact inAlphabet_sextetChar _ (by omega)
    · exact inAlphabet_sextetChar _ (by omega)
    · rfl
    · rfl
  | case3 a b =>
    have ha := a.toNat_lt
    have hb := b.toNat_lt
    simp only [encode, List.mem_cons, List.not_mem_nil, or_false] at h
    rcases h with rfl | rfl | rfl | rfl
    · exact inAlphabet_sextetChar _ (by omega)
    · exact inAlphabet_sextetChar _ (by omega)
    · exact inAlphabet_sextetChar _ (by omega)
    · rfl
  | case4 a b c rest ih =>
    have ha := a.toNat_lt
    have hb := b.toNat_lt
    have hc := c.toNat_lt
    simp only [encode, List.mem_cons] at h
    rcases h with rfl | rfl | rfl | rfl | h
    · exact inAlphabet_sextetChar _ (by omega)
    · exact inAlphabet_sextetChar _ (by omega)
    · exact inAlphabet_sextetChar _ (by omega)
    · exact inAlphabet_sextetChar _ (by omega)
    · exact ih h

theorem not_mem_encode {c : UInt8} (h : InAlphabet c = false) (bs : Bytes) : c ∉ encode bs := by
  intro hmem
  rw [inAlphabet_of_mem_encode hmem] at h
  cases h

theorem encode_ne_nil {bs : Bytes} (h : bs ≠ []) : encode bs ≠ [] := by
  intro hnil
  exact h (encode_injective (hnil.trans rfl))

end P2PMessenger.Text.Base64
