import Mathlib.Data.List.DropRight
import Mathlib.Tactic.Ring

/-!
# Byte strings cut at a separator

A `std::string` is a list of bytes. This file has the four ways in which a text is cut:
at the first separator (`cutFirst`), at the last one (`cutLast`), at every one in the
manner of a `getline` loop (`getlines`), and by dropping elements from both ends (`trim`).
Each cut is characterised by the text it came from, so that callers never unfold it.
-/

namespace P2PMessenger.Text

abbrev Bytes := List UInt8

-- one instance for the membership tests of all files
instance : LawfulBEq Bytes := inferInstance

/-- The bytes of a literal in UTF-8. -/
def bytes (s : String) : Bytes := s.toList.flatMap String.utf8EncodeChar

section Cut

variable {α : Type} [DecidableEq α]

/-! ## The first separator -/

/-- The text before and after the first `sep`. -/
def cutFirst (sep : α) : List α → Option (List α × List α)
  | [] => none
  | c :: cs => if c = sep then some ([], cs) else (cutFirst sep cs).map fun p => (c :: p.1, p.2)

theorem cutFirst_append {sep : α} {a : List α} (h : sep ∉ a) (b : List α) :
    cutFirst sep (a ++ sep :: b) = some (a, b) := by
  induction a with
  | nil => simp [cutFirst]
  | cons c cs ih =>
    simp only [List.mem_cons, not_or] at h
    simp only [List.cons_append, cutFirst, if_neg (Ne.symm h.1), ih h.2, Option.map_some]

theorem cutFirst_eq_some_iff {sep : α} {l a b : List α} :
    cutFirst sep l = some (a, b) ↔ l = a ++ sep :: b ∧ sep ∉ a := by
  constructor
  · intro h
    induction l generalizing a b with
    | nil => cases h
    | cons c cs ih =>
      by_cases hc : c = sep
      · simp only [cutFirst, if_pos hc, Option.some.injEq, Prod.mk.injEq] at h
        obtain ⟨rfl, rfl⟩ := h
        simp [hc]
      · simp only [cutFirst, if_neg hc, Option.map_eq_some_iff] at h
        obtain ⟨⟨a', b'⟩, hcut, hab⟩ := h
        obtain ⟨rfl, rfl⟩ := Prod.mk.inj hab
        obtain ⟨rfl, hmem⟩ := ih hcut
        simp [Ne.symm hc, hmem]
  · rintro ⟨rfl, h⟩
    exact cutFirst_append h b

theorem cutFirst_eq_none_iff {sep : α} {l : List α} : cutFirst sep l = none ↔ sep ∉ l := by
  induction l with
  | nil => simp [cutFirst]
  | cons c cs ih =>
    by_cases hc : c = sep
    · simp [cutFirst, hc]
    · simp [cutFirst, hc, Ne.symm hc, ih]

/-- A text without `sep` in front of the separator is determined by the joined text. -/
theorem append_sep_inj {sep : α} {a a' b b' : List α} (ha : sep ∉ a) (ha' : sep ∉ a')
    (h : a ++ sep :: b = a' ++ sep :: b') : a = a' ∧ b = b' := by
  have hcut := cutFirst_append ha b
  rw [h, cutFirst_append ha' b'] at hcut
  exact ⟨(Prod.mk.inj (Option.some.inj hcut)).1.symm, (Prod.mk.inj (Option.some.inj hcut)).2.symm⟩

/-! ## The last separator -/

/-- The text before and after the last `sep`. -/
def cutLast (sep : α) (l : List α) : Option (List α × List α) :=
  (cutFirst sep l.reverse).map fun p => (p.2.reverse, p.1.reverse)

theorem cutLast_eq_some_iff {sep : α} {l a b : List α} :
    cutLast sep l = some (a, b) ↔ l = a ++ sep :: b ∧ sep ∉ b := by
  simp only [cutLast, Option.map_eq_some_iff, Prod.exists, cutFirst_eq_some_iff, Prod.mk.injEq]
  constructor
  · rintro ⟨x, y, ⟨hl, hmem⟩, rfl, rfl⟩
    have := congrArg List.reverse hl
    simp only [List.reverse_reverse, List.reverse_append, List.reverse_cons] at this
    simp [this, hmem]
  · rintro ⟨rfl, hmem⟩
    exact ⟨b.reverse, a.reverse, by simp [hmem]⟩

theorem cutLast_append {sep : α} {b : List α} (h : sep ∉ b) (a : List α) :
    cutLast sep (a ++ sep :: b) = some (a, b) :=
  cutLast_eq_some_iff.mpr ⟨rfl, h⟩

/-! ## The `getline` loop -/

/-- The parts a `while (getline(stream, part, sep))` loop collects: the text between the
separators, except that an empty text behind the last separator is not a part. -/
def getlines (sep : α) : List α → List (List α)
  | [] => []
  | c :: cs =>
    if c = sep then [] :: getlines sep cs
    else match getlines sep cs with
      | [] => [[c]]
      | part :: parts => (c :: part) :: parts

theorem getlines_append {sep : α} {a : List α} (h : sep ∉ a) (b : List α) :
    getlines sep (a ++ sep :: b) = a :: getlines sep b := by
  induction a with
  | nil => simp [getlines]
  | cons c cs ih =>
    simp only [List.mem_cons, not_or] at h
    simp only [List.cons_append, getlines, if_neg (Ne.symm h.1), ih h.2]

theorem getlines_last {sep : α} {a : List α} (h : sep ∉ a) (hne : a ≠ []) :
    getlines sep a = [a] := by
  induction a with
  | nil => exact absurd rfl hne
  | cons c cs ih =>
    simp only [List.mem_cons, not_or] at h
    rcases eq_or_ne cs [] with rfl | hcs
    · simp [getlines, Ne.symm h.1]
    · simp only [getlines, if_neg (Ne.symm h.1), ih h.2 hcs]

theorem getlines_eq_nil {sep : α} {l : List α} (h : getlines sep l = []) : l = [] := by
  cases l with
  | nil => rfl
  | cons c cs =>
    unfold getlines at h
    split at h
    · cases h
    · split at h <;> cases h

/-- Two parts come from a text with a separator. -/
theorem getlines_eq_cons_cons {sep : α} {l a b : List α} {parts : List (List α)}
    (h : getlines sep l = a :: b :: parts) :
    ∃ l', l = a ++ sep :: l' ∧ sep ∉ a ∧ getlines sep l' = b :: parts := by
  cases hCut : cutFirst sep l with
  | none =>
    have hAbsent : sep ∉ l := cutFirst_eq_none_iff.mp hCut
    rcases eq_or_ne l [] with rfl | hne
    · cases h
    · rw [getlines_last hAbsent hne] at h
      cases h
  | some cut =>
    obtain ⟨a', l'⟩ := cut
    obtain ⟨rfl, hmem⟩ := cutFirst_eq_some_iff.mp hCut
    rw [getlines_append hmem] at h
    obtain ⟨rfl, hRest⟩ := List.cons.inj h
    exact ⟨l', rfl, hmem, hRest⟩

/-- The parts with a separator between each two. -/
def joinLines (sep : α) : List (List α) → List α
  | [] => []
  | part :: parts => part ++ parts.flatMap fun part => sep :: part

/-- Joining the parts again gives back all but a separator at the end. -/
theorem joinLines_getlines (sep : α) (l : List α) :
    joinLines sep (getlines sep l) = if l.getLast? = some sep then l.dropLast else l := by
  induction l with
  | nil => rfl
  | cons c cs ih =>
    rcases eq_or_ne cs [] with rfl | hne
    · by_cases hc : c = sep
      · simp [getlines, joinLines, hc]
      · simp [getlines, joinLines, hc]
    · have hLast : (c :: cs).getLast? = cs.getLast? := by
        rw [List.getLast?_cons, List.getLast?_eq_some_getLast hne]
        rfl
      have hSome : getlines sep cs ≠ [] := fun hNil => hne (getlines_eq_nil hNil)
      obtain ⟨part, parts, hParts⟩ := List.exists_cons_of_ne_nil hSome
      have hJoin : joinLines sep (getlines sep (c :: cs)) =
          c :: joinLines sep (getlines sep cs) := by
        rw [getlines, hParts]
        split
        · rename_i hc
          simp [joinLines, hc]
        · rfl
      rw [hJoin, ih, hLast, List.dropLast_cons_of_ne_nil hne]
      split <;> rfl

end Cut

/-! ## Dropping elements from both ends -/

section Trim

variable {α : Type} (p : α → Bool)

def trim (l : List α) : List α := (l.dropWhile p).rdropWhile p

variable {p}

theorem mem_of_mem_trim {l : List α} {c : α} (h : c ∈ trim p l) : c ∈ l :=
  (List.dropWhile_suffix p).subset ((List.rdropWhile_prefix p _).subset h)

theorem dropWhile_eq_self {l : List α} (h : ∀ c, l.head? = some c → p c = false) :
    l.dropWhile p = l := by
  cases l with
  | nil => rfl
  | cons c cs => simp [List.dropWhile, h c rfl]

theorem rdropWhile_eq_self {l : List α} (h : ∀ c, l.getLast? = some c → p c = false) :
    l.rdropWhile p = l := by
  rw [List.rdropWhile_eq_self_iff]
  intro hne
  simp [h _ (List.getLast?_eq_some_getLast hne)]

theorem trim_eq_self {l : List α} (hHead : ∀ c, l.head? = some c → p c = false)
    (hLast : ∀ c, l.getLast? = some c → p c = false) : trim p l = l := by
  rw [trim, dropWhile_eq_self hHead, rdropWhile_eq_self hLast]

theorem head?_dropWhile {l : List α} {c : α} (h : (l.dropWhile p).head? = some c) :
    p c = false := by
  have hkept := List.head?_dropWhile_not p l
  rwa [h] at hkept

theorem getLast?_rdropWhile {l : List α} {c : α} (h : (l.rdropWhile p).getLast? = some c) :
    p c = false := by
  rw [List.rdropWhile, List.getLast?_reverse] at h
  exact head?_dropWhile h

/-- A trimmed text starts with an element that is kept. -/
theorem head?_trim {l : List α} {c : α} (h : (trim p l).head? = some c) : p c = false := by
  obtain ⟨rest, hrest⟩ := List.rdropWhile_prefix p (l.dropWhile p)
  refine head?_dropWhile (l := l) ?_
  rw [← hrest, List.head?_append]
  simp only [trim] at h
  simp [h]

/-- A trimmed text ends with an element that is kept. -/
theorem getLast?_trim {l : List α} {c : α} (h : (trim p l).getLast? = some c) : p c = false :=
  getLast?_rdropWhile h

@[simp] theorem trim_trim (l : List α) : trim p (trim p l) = trim p l :=
  trim_eq_self (fun _ h => head?_trim h) (fun _ h => getLast?_trim h)

end Trim

/-! ## White space -/

/-- `std::isspace` in the C locale. -/
def isSpace (b : UInt8) : Bool := b = 32 || (9 ≤ b && b ≤ 13)

end P2PMessenger.Text
