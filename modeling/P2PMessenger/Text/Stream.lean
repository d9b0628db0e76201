import P2PMessenger.Text.Bytes

/-!
# Formatted output

The part of `std::ostringstream` that formats characters and non-negative integers. A value
is one field: it is filled up on the left to the width, which holds for one field only, while
the fill character and the base stay until they are set again.
-/

namespace P2PMessenger.Text

structure OStringStream where
  text : Bytes := []
  width : Nat := 0
  fill : UInt8 := 32
  base : Nat := 10

namespace OStringStream

/-- `std::hex`. -/
def hex (s : OStringStream) : OStringStream := { s with base := 16 }

def setw (s : OStringStream) (n : Nat) : OStringStream := { s with width := n }

def setfill (s : OStringStream) (c : UInt8) : OStringStream := { s with fill := c }

def putField (s : OStringStream) (field : Bytes) : OStringStream :=
  { s with text := s.text ++ field.leftpad s.width s.fill, width := 0 }

def putChar (s : OStringStream) (c : UInt8) : OStringStream := s.putField [c]

/-- The digits in the present base, without leading zeros and in lower case. -/
def putNat (s : OStringStream) (n : Nat) : OStringStream :=
  s.putField ((Nat.toDigits s.base n).map fun c => UInt8.ofNat c.toNat)

/-- Without a width a character is written as it is. -/
theorem putChar_of_width {s : OStringStream} (h : s.width = 0) (c : UInt8) :
    s.putChar c = { s with text := s.text ++ [c] } := by
  obtain ⟨text, width, fill, base⟩ := s
  obtain rfl : width = 0 := h
  rfl

end OStringStream

end P2PMessenger.Text
