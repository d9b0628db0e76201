import Mathlib.Data.List.Infix

/-!
# Runs of a deterministic machine

A machine is a function `step : σ → ε → σ`; the events `ε` hold every choice of the
environment, so a run is a list of events. `Along` says that a condition holds at every
step of a run, of the state before the step and the event taken. The rules of this file
are the inductions over runs that the developments of single machines use.
-/

namespace P2PMessenger.Run

variable {σ ε : Type}

def run (step : σ → ε → σ) (s : σ) (es : List ε) : σ := es.foldl step s

/-- `P` holds at every step of the run, of the state before the step and its event. -/
def Along (step : σ → ε → σ) (P : σ → ε → Prop) : σ → List ε → Prop
  | _, [] => True
  | s, e :: es => P s e ∧ Along step P (step s e) es

section Rules

variable {step : σ → ε → σ} {P Q : σ → ε → Prop}

instance [h : ∀ s e, Decidable (P s e)] : ∀ s es, Decidable (Along step P s es)
  | _, [] => inferInstanceAs (Decidable True)
  | s, e :: es =>
    let _ := instDecidableAlong (step s e) es
    inferInstanceAs (Decidable (P s e ∧ Along step P (step s e) es))

@[simp] theorem run_nil (s : σ) : run step s [] = s := rfl

@[simp] theorem run_cons (s : σ) (e : ε) (es : List ε) :
    run step s (e :: es) = run step (step s e) es := rfl

theorem run_append (s : σ) (es fs : List ε) :
    run step s (es ++ fs) = run step (run step s es) fs := List.foldl_append

theorem run_snoc (s : σ) (es : List ε) (e : ε) :
    run step s (es ++ [e]) = step (run step s es) e := run_append s es [e]

theorem along_append (s : σ) (es fs : List ε) :
    Along step P s (es ++ fs) ↔ Along step P s es ∧ Along step P (run step s es) fs := by
  induction es generalizing s with
  | nil => simp [Along]
  | cons e es ih => simp [Along, ih, and_assoc]

theorem Along.of_prefix {s : σ} {es fs : List ε} (h : Along step P s fs) (hp : es <+: fs) :
    Along step P s es := by
  obtain ⟨rest, rfl⟩ := hp
  exact ((along_append s es rest).mp h).1

theorem Along.mono {s : σ} {es : List ε} (h : Along step P s es) (hPQ : ∀ s e, P s e → Q s e) :
    Along step Q s es := by
  induction es generalizing s with
  | nil => trivial
  | cons e es ih => exact ⟨hPQ s e h.1, ih h.2⟩

theorem along_of_forall_mem {p : ε → Prop} {es : List ε} (h : ∀ e ∈ es, p e) (s : σ) :
    Along step (fun _ e => p e) s es := by
  induction es generalizing s with
  | nil => trivial
  | cons e es ih =>
    exact ⟨h e List.mem_cons_self, ih (fun e' he => h e' (List.mem_cons_of_mem e he)) (step s e)⟩

/-- A condition along a run, read at one of its steps. -/
theorem Along.at {s : σ} {pre post : List ε} {e : ε} (h : Along step P s (pre ++ e :: post)) :
    P (run step s pre) e := ((along_append s pre (e :: post)).mp h).2.1

/-! ## Invariants -/

/-- What every step preserves holds at the end of a run. -/
theorem run_invariant {I : σ → Prop} (hStep : ∀ s e, I s → I (step s e)) {s : σ} (h : I s)
    (es : List ε) : I (run step s es) := by
  induction es generalizing s with
  | nil => exact h
  | cons e es ih => exact ih (hStep s e h)

/-- The same under a condition on the steps of the run. -/
theorem run_invariant_along {I : σ → Prop} (hStep : ∀ s e, I s → P s e → I (step s e)) {s : σ}
    (h : I s) {es : List ε} (hP : Along step P s es) : I (run step s es) := by
  induction es generalizing s with
  | nil => exact h
  | cons e es ih => exact ih (hStep s e h hP.1) hP.2

/-- An invariant that also speaks of the events taken so far. -/
theorem run_history {I : List ε → σ → Prop} {s : σ} (h : I [] s) {es : List ε}
    (hP : Along step P s es)
    (hStep : ∀ past s e, I past s → P s e → I (past ++ [e]) (step s e)) :
    I es (run step s es) := by
  induction es using List.reverseRecOn with
  | nil => exact h
  | append_singleton es e ih =>
    obtain ⟨hPast, hLast⟩ := (along_append s es [e]).mp hP
    rw [run_snoc]
    exact hStep es _ e (ih hPast) hLast.1

/-- What is in a history at the end of a run was there at the start or was added by a step. -/
theorem mem_history {α : Type} {f : σ → List α} {new : σ → ε → List α}
    (hStep : ∀ s e, f (step s e) = f s ++ new s e) {s : σ} {es : List ε} {x : α}
    (hx : x ∈ f (run step s es)) :
    x ∈ f s ∨ ∃ pre e post, es = pre ++ e :: post ∧ x ∈ new (run step s pre) e := by
  induction es generalizing s with
  | nil => exact Or.inl hx
  | cons e es ih =>
    rcases ih hx with hNext | ⟨pre, e', post, rfl, hNew⟩
    · rw [hStep, List.mem_append] at hNext
      rcases hNext with hOld | hNew
      · exact Or.inl hOld
      · exact Or.inr ⟨[], e, es, rfl, hNew⟩
    · exact Or.inr ⟨e :: pre, e', post, rfl, hNew⟩

/-- What the steps of a run add, in order. -/
def added {α : Type} (step : σ → ε → σ) (new : σ → ε → List α) : σ → List ε → List α
  | _, [] => []
  | s, e :: es => new s e ++ added step new (step s e) es

theorem history_run {α : Type} {f : σ → List α} {new : σ → ε → List α}
    (hStep : ∀ s e, f (step s e) = f s ++ new s e) (s : σ) (es : List ε) :
    f (run step s es) = f s ++ added step new s es := by
  induction es generalizing s with
  | nil => exact (List.append_nil (f s)).symm
  | cons e es ih => rw [run_cons, ih, hStep, added, List.append_assoc]

theorem forall_mem_added {α : Type} {f : σ → ε → List α} {p : α → Prop}
    (h : ∀ s e, ∀ x ∈ f s e, p x) (s : σ) (es : List ε) : ∀ x ∈ added step f s es, p x := by
  induction es generalizing s with
  | nil => exact fun x hx => nomatch hx
  | cons e es ih =>
    intro x hx
    rcases List.mem_append.mp hx with hNew | hLater
    · exact h s e x hNew
    · exact ih (step s e) x hLater

theorem added_filterMap {α β : Type} {new : σ → ε → List α} {new' : σ → ε → List β}
    {g : α → Option β} (h : ∀ s e, new' s e = (new s e).filterMap g) (s : σ) (es : List ε) :
    added step new' s es = (added step new s es).filterMap g := by
  induction es generalizing s with
  | nil => rfl
  | cons e es ih => rw [added, added, List.filterMap_append, h, ih]

/-- A history in which no tag occurs twice has at most one entry with a given tag. -/
theorem length_filter_le_one {α β : Type} {l : List α} {tag : α → β} {p : α → Bool} {b : β}
    (hNodup : (l.map tag).Nodup) (hTag : ∀ x ∈ l, p x = true → tag x = b) :
    (l.filter p).length ≤ 1 := by
  have hSub : ((l.filter p).map tag).Nodup := hNodup.sublist (List.filter_sublist.map tag)
  have hAll : (l.filter p).map tag = List.replicate ((l.filter p).map tag).length b := by
    apply List.eq_replicate_of_mem
    intro y hy
    obtain ⟨x, hx, rfl⟩ := List.mem_map.mp hy
    exact hTag x (List.mem_filter.mp hx).1 (List.mem_filter.mp hx).2
  rw [hAll, List.nodup_replicate, List.length_map] at hSub
  exact hSub

/-- When each step makes `Q` true of the next state exactly if `Q` held and the step meets
`P`, a run ends in `Q` exactly if it starts in `Q` and meets `P` throughout. -/
theorem run_iff_along {I Q : σ → Prop} {R : σ → ε → Prop}
    (hInv : ∀ s e, I s → R s e → I (step s e))
    (hStep : ∀ s e, I s → R s e → (Q (step s e) ↔ Q s ∧ P s e)) {s : σ} (h : I s) {es : List ε}
    (hR : Along step R s es) : Q (run step s es) ↔ Q s ∧ Along step P s es := by
  induction es generalizing s with
  | nil => simp [Along]
  | cons e es ih =>
    rw [run_cons, ih (hInv s e h hR.1) hR.2, hStep s e h hR.1, Along, and_assoc]

/-- When a step from a state with `Q` leads to one with `Q` exactly if it meets `P`, a run
keeps `Q` in all its states exactly if all its steps meet `P`. -/
theorem forall_prefix_iff_along {I Q : σ → Prop} (hInv : ∀ s e, I s → I (step s e))
    (hStep : ∀ s e, I s → Q s → (Q (step s e) ↔ P s e)) {s : σ} (h : I s) (hQ : Q s)
    (es : List ε) : (∀ pre, pre <+: es → Q (run step s pre)) ↔ Along step P s es := by
  induction es generalizing s with
  | nil =>
    simp only [List.prefix_nil, Along, iff_true]
    rintro pre rfl
    exact hQ
  | cons e es ih =>
    constructor
    · intro hAll
      have hNext : Q (step s e) := hAll [e] (List.prefix_append [e] es)
      refine ⟨(hStep s e h hQ).mp hNext, (ih (hInv s e h) hNext).mp ?_⟩
      intro pre hPre
      exact hAll (e :: pre) ((List.prefix_cons_inj e).mpr hPre)
    · rintro ⟨hFirst, hRest⟩ pre hPre
      have hNext : Q (step s e) := (hStep s e h hQ).mpr hFirst
      rcases List.prefix_cons_iff.mp hPre with rfl | ⟨pre', rfl, hPre'⟩
      · exact hQ
      · exact (ih (hInv s e h) hNext).mpr hRest pre' hPre'

end Rules

/-! ## First occurrences -/

section FirstBy

variable {α β : Type} [DecidableEq β] (key : α → β)

/-- The elements whose key has not occurred before, in order. -/
def firstBy : List α → List α
  | [] => []
  | x :: rest => x :: (firstBy rest).filter fun y => key y ≠ key x

variable {key}

theorem firstBy_sublist (l : List α) : (firstBy key l).Sublist l := by
  induction l with
  | nil => exact List.Sublist.refl []
  | cons x rest ih => exact (List.filter_sublist.trans ih).cons_cons x

/-- No key is lost. -/
theorem mem_map_firstBy {l : List α} {b : β} : b ∈ (firstBy key l).map key ↔ b ∈ l.map key := by
  induction l with
  | nil => rfl
  | cons x rest ih =>
    rw [firstBy, List.map_cons, List.map_cons, List.mem_cons, List.mem_cons, ← ih]
    by_cases hb : b = key x
    · simp only [hb, true_or]
    · simp only [hb, false_or, List.mem_map, List.mem_filter, decide_eq_true_eq]
      constructor
      · rintro ⟨y, ⟨hy, -⟩, hKey⟩
        exact ⟨y, hy, hKey⟩
      · rintro ⟨y, hy, rfl⟩
        exact ⟨y, ⟨hy, hb⟩, rfl⟩

theorem nodup_map_firstBy (l : List α) : ((firstBy key l).map key).Nodup := by
  induction l with
  | nil => exact List.nodup_nil
  | cons x rest ih =>
    rw [firstBy, List.map_cons, List.nodup_cons]
    constructor
    · intro hMem
      obtain ⟨y, hy, hKey⟩ := List.mem_map.mp hMem
      exact of_decide_eq_true (List.mem_filter.mp hy).2 hKey
    · exact ih.sublist (List.filter_sublist.map key)

/-- A last element is kept if its key is new. -/
theorem firstBy_append_singleton (l : List α) (x : α) :
    firstBy key (l ++ [x]) = if key x ∈ l.map key then firstBy key l else firstBy key l ++ [x] := by
  induction l with
  | nil => rfl
  | cons y rest ih =>
    rw [List.cons_append, firstBy, ih, firstBy, List.map_cons]
    by_cases hRest : key x ∈ rest.map key
    · rw [if_pos hRest, if_pos (List.mem_cons_of_mem _ hRest)]
    · rw [if_neg hRest, List.filter_append]
      by_cases hSame : key x = key y
      · simp [hSame]
      · have hNew : key x ∉ key y :: rest.map key := by
          simp only [List.mem_cons, hSame, hRest, or_self, not_false_eq_true]
        rw [if_neg hNew]
        simp [hSame]

end FirstBy

end P2PMessenger.Run
