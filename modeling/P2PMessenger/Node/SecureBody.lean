import P2PMessenger.Node.Wire

/-!
# Cutting a secure body

`ParseSecureBody` collects parts with `getline` and joins those behind the third pipe again.
A `getline` loop has no part behind a pipe at the end, so that pipe is lost: the body is cut
at its first three pipes, except where it ends in a pipe.
-/

namespace P2PMessenger

open Text

/-- The texts before, between and behind the first three pipes. -/
structure CutAt (body messageId nonce timestamp ciphertext : Bytes) : Prop where
  body_eq : body = messageId ++ pipe :: (nonce ++ pipe :: (timestamp ++ pipe :: ciphertext))
  messageId : pipe ∉ messageId
  nonce : pipe ∉ nonce
  timestamp : pipe ∉ timestamp

/-- The body is parsed if and only if it has three pipes and a number before the third, and
then into the texts around the first three. -/
def SplitsAtFirstThreePipes (body : Bytes) : Prop :=
  ∀ start packet, parseSecureBody body start = some packet ↔
    ∃ messageId nonce timestamp ciphertext t,
      CutAt body messageId nonce timestamp ciphertext ∧ stoll timestamp = some t ∧
        packet = { start with
          messageId := messageId
          nonce := nonce
          timestamp := t
          ciphertext := ciphertext }

/-- There are no three pipes, or no number before the third, or no pipe at the end. -/
def NoPipeAtEnd (body : Bytes) : Prop :=
  ∀ messageId nonce timestamp ciphertext,
    CutAt body messageId nonce timestamp ciphertext → stoll timestamp ≠ none →
      body.getLast? ≠ some pipe

namespace CutAt

variable {body m n t c : Bytes}

theorem getlines_eq (h : CutAt body m n t c) :
    getlines pipe body = m :: n :: t :: getlines pipe c := by
  rw [h.body_eq, getlines_append h.messageId, getlines_append h.nonce, getlines_append h.timestamp]

/-- The body ends in its third pipe or in a later one. -/
theorem getLast?_eq_pipe_iff (h : CutAt body m n t c) :
    body.getLast? = some pipe ↔ c = [] ∨ c.getLast? = some pipe := by
  have hBody : body.getLast? = (pipe :: c).getLast? := by
    rw [h.body_eq]
    simp [List.getLast?_cons]
  rw [hBody, List.getLast?_cons]
  cases hLast : c.getLast? with
  | none => simp [List.getLast?_eq_none_iff.mp hLast]
  | some last =>
    have hne : c ≠ [] := by
      rintro rfl
      cases hLast
    simp [hne]

/-- The parser at a body with three pipes. -/
theorem parse_eq (h : CutAt body m n t c) (start : EncryptedPacket) :
    parseSecureBody body start =
      if c = [] then none
      else (stoll t).map fun timestamp =>
        { start with
          messageId := m
          nonce := n
          timestamp := timestamp
          ciphertext := joinLines pipe (getlines pipe c) } := by
  unfold parseSecureBody
  rw [h.getlines_eq]
  by_cases hNil : c = []
  · subst hNil
    rfl
  · have hSome : getlines pipe c ≠ [] := fun hNone => hNil (getlines_eq_nil hNone)
    obtain ⟨part, parts, hParts⟩ := List.exists_cons_of_ne_nil hSome
    rw [if_neg hNil, hParts]
    dsimp only
    cases stoll t with
    | none => rfl
    | some timestamp => rfl

/-- Without a pipe at the end the text behind the third pipe is kept. -/
theorem parse_of_no_pipe (h : CutAt body m n t c) (hLast : body.getLast? ≠ some pipe)
    {timestamp : Int} (hStoll : stoll t = some timestamp) (start : EncryptedPacket) :
    parseSecureBody body start = some { start with
      messageId := m
      nonce := n
      timestamp := timestamp
      ciphertext := c } := by
  obtain ⟨hne, hLast'⟩ := not_or.mp (h.getLast?_eq_pipe_iff.not.mp hLast)
  rw [h.parse_eq, if_neg hne, hStoll, joinLines_getlines, if_neg hLast']
  rfl

/-- With a pipe at the end the text behind the third pipe is not kept. -/
theorem parse_of_pipe (h : CutAt body m n t c) (hLast : body.getLast? = some pipe)
    {start packet : EncryptedPacket} (hParsed : parseSecureBody body start = some packet) :
    packet.ciphertext ≠ c := by
  rw [h.parse_eq] at hParsed
  split at hParsed
  · cases hParsed
  · rename_i hne
    have hEnd : c.getLast? = some pipe := (h.getLast?_eq_pipe_iff.mp hLast).resolve_left hne
    obtain ⟨timestamp, -, rfl⟩ := Option.map_eq_some_iff.mp hParsed
    dsimp only
    rw [joinLines_getlines, if_pos hEnd]
    intro hSame
    have hLength := congrArg List.length hSame
    have hPos : 0 < c.length := List.length_pos_iff.mpr hne
    rw [List.length_dropLast] at hLength
    omega

theorem stoll_of_parse (h : CutAt body m n t c) {start packet : EncryptedPacket}
    (hParsed : parseSecureBody body start = some packet) :
    ∃ timestamp, stoll t = some timestamp := by
  rw [h.parse_eq] at hParsed
  split at hParsed
  · cases hParsed
  · obtain ⟨timestamp, hStoll, -⟩ := Option.map_eq_some_iff.mp hParsed
    exact ⟨timestamp, hStoll⟩

end CutAt

/-- What is parsed has three pipes. -/
theorem exists_cutAt {body : Bytes} {start packet : EncryptedPacket}
    (h : parseSecureBody body start = some packet) : ∃ m n t c, CutAt body m n t c := by
  unfold parseSecureBody at h
  split at h
  · rename_i m n t c more hParts
    obtain ⟨rest, rfl, hm, hRest⟩ := getlines_eq_cons_cons hParts
    obtain ⟨rest', rfl, hn, hRest'⟩ := getlines_eq_cons_cons hRest
    obtain ⟨c', rfl, ht, -⟩ := getlines_eq_cons_cons hRest'
    exact ⟨m, n, t, c', rfl, hm, hn, ht⟩
  · cases h

/-- A body is cut at its first three pipes if and only if it does not end in a pipe, or has
fewer than three, or has no number before the third. -/
theorem splits_at_first_three_pipes_iff (body : Bytes) :
    SplitsAtFirstThreePipes body ↔ NoPipeAtEnd body := by
  constructor
  · intro hSplits m n t c hCut hNumber hLast
    obtain ⟨timestamp, hStoll⟩ := Option.ne_none_iff_exists'.mp hNumber
    have hParsed := (hSplits {} _).mpr ⟨m, n, t, c, timestamp, hCut, hStoll, rfl⟩
    exact hCut.parse_of_pipe hLast hParsed rfl
  · intro hEnd start packet
    constructor
    · intro hParsed
      obtain ⟨m, n, t, c, hCut⟩ := exists_cutAt hParsed
      obtain ⟨timestamp, hStoll⟩ := hCut.stoll_of_parse hParsed
      have hLast : body.getLast? ≠ some pipe := hEnd m n t c hCut (by simp [hStoll])
      rw [hCut.parse_of_no_pipe hLast hStoll] at hParsed
      exact ⟨m, n, t, c, timestamp, hCut, hStoll, (Option.some.inj hParsed).symm⟩
    · rintro ⟨m, n, t, c, timestamp, hCut, hStoll, rfl⟩
      have hLast : body.getLast? ≠ some pipe := hEnd m n t c hCut (by simp [hStoll])
      exact hCut.parse_of_no_pipe hLast hStoll start

/-- The fourth pipe of this body is lost. -/
theorem last_pipe_lost : ¬ SplitsAtFirstThreePipes (bytes "a|b|1|c|") := by
  intro hSplits
  have hCut : CutAt (bytes "a|b|1|c|") (bytes "a") (bytes "b") (bytes "1") (bytes "c|") :=
    ⟨by decide +kernel, by decide +kernel, by decide +kernel, by decide +kernel⟩
  have hParsed := (hSplits {} _).mpr
    ⟨bytes "a", bytes "b", bytes "1", bytes "c|", 1, hCut, by decide +kernel, rfl⟩
  revert hParsed
  decide +kernel

end P2PMessenger
