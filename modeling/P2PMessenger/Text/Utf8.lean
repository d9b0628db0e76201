import P2PMessenger.Text.Bytes

/-!
# Texts in UTF-8

`encode` and `decode?` between characters and bytes, by the codec of the core library, and
what cutting a text does on the other side: a `std::string` read as a C string ends at its
first zero byte (`cString`), and white space at the end of the characters is white space at
the end of the bytes.
-/

namespace P2PMessenger.Text

def encode (cs : List Char) : Bytes := cs.flatMap String.utf8EncodeChar

def decode? (b : Bytes) : Option (List Char) := b.toByteArray.utf8Decode?.map Array.toList

theorem decode?_encode (cs : List Char) : decode? (encode cs) = some cs := by
  have hBytes : (encode cs).toByteArray = cs.utf8Encode := rfl
  rw [decode?, hBytes, List.utf8Decode?_utf8Encode]
  rfl

theorem decode?_eq_some_iff {b : Bytes} {cs : List Char} :
    decode? b = some cs ↔ b = encode cs := by
  constructor
  · intro h
    obtain ⟨chars, hChars, rfl⟩ := Option.map_eq_some_iff.mp h
    have hBytes : chars.toList.utf8Encode = b.toByteArray := by
      have hGet := ByteArray.utf8Encode_get_utf8Decode? (b := b.toByteArray)
        (h := by rw [hChars]; rfl)
      simpa [hChars] using hGet
    exact List.toByteArray_inj.mp hBytes.symm
  · rintro rfl
    exact decode?_encode cs

theorem encode_injective : Function.Injective encode := by
  intro cs ds hEq
  have hDecode : some cs = some ds := by rw [← decode?_encode cs, hEq, decode?_encode]
  exact Option.some.inj hDecode

theorem encode_append (cs ds : List Char) : encode (cs ++ ds) = encode cs ++ encode ds :=
  List.flatMap_append

theorem encode_eq_nil {cs : List Char} : encode cs = [] ↔ cs = [] := by
  cases cs with
  | nil => simp [encode]
  | cons c cs => simp [encode]

/-! ## C strings -/

/-- What a reader of a C string sees. -/
def cString (b : Bytes) : Bytes := b.takeWhile fun c => c ≠ 0

theorem cString_eq_self {b : Bytes} : cString b = b ↔ 0 ∉ b := by
  rw [cString, List.takeWhile_eq_self_iff]
  constructor
  · intro h hZero
    simpa using h 0 hZero
  · intro h c hc
    have hne : c ≠ 0 := fun hEq => h (hEq ▸ hc)
    simpa using hne

theorem zero_not_mem_cString (b : Bytes) : 0 ∉ cString b := by
  intro hZero
  simpa using List.mem_takeWhile_imp hZero

theorem ofNat_ne_zero {n : Nat} (h : n % 256 ≠ 0) : (0 : UInt8) ≠ UInt8.ofNat n := by
  intro hEq
  have hNat : (0 : UInt8).toNat = (UInt8.ofNat n).toNat := congrArg UInt8.toNat hEq
  rw [UInt8.toNat_ofNat'] at hNat
  exact h hNat.symm

/-- Only the zero character has a zero byte: the bytes of a longer code have a high bit. -/
theorem zero_not_mem_utf8EncodeChar {c : Char} (h : c ≠ '\x00') :
    0 ∉ String.utf8EncodeChar c := by
  have hVal : c.val.toNat ≠ 0 := fun hZero => h (Char.ext (UInt32.toNat_inj.mp hZero))
  unfold String.utf8EncodeChar
  dsimp only
  split
  · simp only [List.mem_cons, List.not_mem_nil, or_false]
    exact ofNat_ne_zero (by omega)
  · split
    · simp only [List.mem_cons, List.not_mem_nil, or_false, not_or]
      exact ⟨ofNat_ne_zero (by omega), ofNat_ne_zero (by omega)⟩
    · split
      · simp only [List.mem_cons, List.not_mem_nil, or_false, not_or]
        exact ⟨ofNat_ne_zero (by omega), ofNat_ne_zero (by omega), ofNat_ne_zero (by omega)⟩
      · simp only [List.mem_cons, List.not_mem_nil, or_false, not_or]
        exact ⟨ofNat_ne_zero (by omega), ofNat_ne_zero (by omega), ofNat_ne_zero (by omega),
          ofNat_ne_zero (by omega)⟩

theorem zero_mem_encode {cs : List Char} : 0 ∈ encode cs ↔ '\x00' ∈ cs := by
  rw [encode, List.mem_flatMap]
  constructor
  · rintro ⟨c, hc, hZero⟩
    by_contra hAbsent
    have hne : c ≠ '\x00' := fun hEq => hAbsent (hEq ▸ hc)
    exact zero_not_mem_utf8EncodeChar hne hZero
  · intro hMem
    exact ⟨'\x00', hMem, by decide⟩

/-- A text cut at its first zero byte is still a text. -/
theorem cString_encode (cs : List Char) :
    cString (encode cs) = encode (cs.takeWhile fun c => c ≠ '\x00') := by
  induction cs with
  | nil => rfl
  | cons c cs ih =>
    have hCons : encode (c :: cs) = String.utf8EncodeChar c ++ encode cs := rfl
    rw [hCons]
    by_cases hZero : c = '\x00'
    · subst hZero
      rfl
    · have hKept : ∀ b ∈ String.utf8EncodeChar c, (decide (b ≠ 0)) = true := by
        intro b hb
        have hne : b ≠ 0 := fun hEq => zero_not_mem_utf8EncodeChar hZero (hEq ▸ hb)
        simpa using hne
      rw [cString, List.takeWhile_append_of_pos hKept,
        List.takeWhile_cons_of_pos (by simpa using hZero)]
      exact congrArg (String.utf8EncodeChar c ++ ·) ih

theorem isPrefix_cString (b : Bytes) : cString b <+: b := List.takeWhile_prefix _

/-! ## White space at the end -/

/-- The white space that `wxString::Trim` removes. -/
def isSpaceChar (c : Char) : Bool := c ∈ [' ', '\t', '\n', '\x0b', '\x0c', '\r']

theorem encode_space {c : Char} (h : isSpaceChar c = true) :
    ∃ b, encode [c] = [b] ∧ isSpace b = true := by
  simp only [isSpaceChar, decide_eq_true_eq, List.mem_cons, List.not_mem_nil, or_false] at h
  rcases h with rfl | rfl | rfl | rfl | rfl | rfl
  · exact ⟨32, rfl, rfl⟩
  · exact ⟨9, rfl, rfl⟩
  · exact ⟨10, rfl, rfl⟩
  · exact ⟨11, rfl, rfl⟩
  · exact ⟨12, rfl, rfl⟩
  · exact ⟨13, rfl, rfl⟩

theorem isSpace_ofNat {n : Nat} (hn : n < 256) (h : isSpace (UInt8.ofNat n) = true) :
    n = 32 ∨ (9 ≤ n ∧ n ≤ 13) := by
  have hNat : (UInt8.ofNat n).toNat = n := by
    rw [UInt8.toNat_ofNat']
    exact Nat.mod_eq_of_lt hn
  simp only [isSpace, Bool.or_eq_true, Bool.and_eq_true, decide_eq_true_eq,
    UInt8.le_iff_toNat_le, ← UInt8.toNat_inj, hNat] at h
  exact h

theorem isSpaceChar_of_toNat {c : Char}
    (h : c.val.toNat = 32 ∨ (9 ≤ c.val.toNat ∧ c.val.toNat ≤ 13)) : isSpaceChar c = true := by
  have hChar : c = Char.ofNat c.val.toNat := (Char.ofNat_toNat c).symm
  generalize c.val.toNat = n at h hChar
  subst hChar
  have hCases : n = 32 ∨ n = 9 ∨ n = 10 ∨ n = 11 ∨ n = 12 ∨ n = 13 := by omega
  rcases hCases with rfl | rfl | rfl | rfl | rfl | rfl <;> decide

/-- White space has no other code: the bytes of a longer code are too large. -/
theorem isSpace_utf8EncodeChar {c : Char} (h : isSpaceChar c = false) {b : UInt8}
    (hMem : b ∈ String.utf8EncodeChar c) : isSpace b = false := by
  by_contra hSpace
  rw [Bool.not_eq_false] at hSpace
  unfold String.utf8EncodeChar at hMem
  dsimp only at hMem
  split at hMem
  · simp only [List.mem_cons, List.not_mem_nil, or_false] at hMem
    subst hMem
    have hCode := isSpace_ofNat (by omega) hSpace
    rw [isSpaceChar_of_toNat hCode] at h
    cases h
  · split at hMem
    · simp only [List.mem_cons, List.not_mem_nil, or_false] at hMem
      rcases hMem with rfl | rfl <;> have hCode := isSpace_ofNat (by omega) hSpace <;> omega
    · split at hMem
      · simp only [List.mem_cons, List.not_mem_nil, or_false] at hMem
        rcases hMem with rfl | rfl | rfl <;> have hCode := isSpace_ofNat (by omega) hSpace <;>
          omega
      · simp only [List.mem_cons, List.not_mem_nil, or_false] at hMem
        rcases hMem with rfl | rfl | rfl | rfl <;>
          have hCode := isSpace_ofNat (by omega) hSpace <;> omega

def trimRight (cs : List Char) : List Char := cs.rdropWhile isSpaceChar

@[simp] theorem trimRight_trimRight (cs : List Char) : trimRight (trimRight cs) = trimRight cs :=
  List.rdropWhile_idempotent isSpaceChar cs

/-- A text without white space at its ends has none at the ends of its bytes. -/
theorem trim_encode {cs : List Char} (hLeft : cs.dropWhile isSpaceChar = cs)
    (hRight : trimRight cs = cs) : trim isSpace (encode cs) = encode cs := by
  apply trim_eq_self
  · intro b hHead
    cases cs with
    | nil => cases hHead
    | cons c rest =>
      have hFirst : isSpaceChar c = false := by
        apply head?_dropWhile (l := c :: rest)
        rw [hLeft]
        rfl
      apply isSpace_utf8EncodeChar hFirst
      have hBytes : encode (c :: rest) = String.utf8EncodeChar c ++ encode rest := rfl
      rw [hBytes, List.head?_append_of_ne_nil _ (by simp)] at hHead
      exact List.mem_of_head? hHead
  · intro b hLast
    rcases List.eq_nil_or_concat cs with rfl | ⟨before, c, rfl⟩
    · cases hLast
    · rw [List.concat_eq_append] at hRight hLast
      have hFinal : isSpaceChar c = false := by
        apply getLast?_rdropWhile (l := before ++ [c])
        rw [show (before ++ [c]).rdropWhile isSpaceChar = before ++ [c] from hRight]
        simp
      apply isSpace_utf8EncodeChar hFinal
      have hBytes : encode [c] = String.utf8EncodeChar c := by simp [encode]
      rw [encode_append, hBytes, List.getLast?_append_of_ne_nil _ (by simp)] at hLast
      exact List.mem_of_getLast? hLast

/-- Characters whose bytes do not end in white space are left alone. -/
theorem trimRight_eq_self {cs : List Char}
    (h : ∀ b, (encode cs).getLast? = some b → isSpace b = false) : trimRight cs = cs := by
  apply rdropWhile_eq_self
  intro c hLast
  by_contra hSpace
  obtain ⟨b, hByte, hb⟩ := encode_space (by simpa using hSpace)
  obtain ⟨before, rfl⟩ := List.getLast?_eq_some_iff.mp hLast
  have hLastByte : (encode (before ++ [c])).getLast? = some b := by
    rw [encode_append, hByte]
    simp
  rw [h b hLastByte] at hb
  cases hb

/-- Characters whose bytes do not start with white space do not trim to nothing. -/
theorem trimRight_ne_nil {cs : List Char} (hne : cs ≠ [])
    (h : ∀ b, (encode cs).head? = some b → isSpace b = false) : trimRight cs ≠ [] := by
  obtain ⟨c, rest, rfl⟩ := List.exists_cons_of_ne_nil hne
  intro hNil
  have hSpace : isSpaceChar c = true := List.rdropWhile_eq_nil_iff.mp hNil c List.mem_cons_self
  obtain ⟨b, hByte, hb⟩ := encode_space hSpace
  have hHead : (encode (c :: rest)).head? = some b := by
    rw [show c :: rest = [c] ++ rest from rfl, encode_append, hByte]
    rfl
  rw [h b hHead] at hb
  cases hb

theorem isPrefix_encode_trimRight (cs : List Char) : encode (trimRight cs) <+: encode cs := by
  obtain ⟨rest, hRest⟩ := List.rdropWhile_prefix isSpaceChar cs
  refine ⟨encode rest, ?_⟩
  rw [← encode_append]
  exact congrArg encode hRest

end P2PMessenger.Text
