import P2PMessenger.Run.Trace
import Mathlib.Algebra.Order.Monoid.Defs
import Mathlib.Algebra.Order.Group.Multiset

/-!
# Simulations and balances

Two ways to read one run through another, and the bookkeeping of what enters and leaves a
machine. A map that commutes with the steps carries a run to a run. A part of a machine may
take any number of steps of its own while the whole takes one; its run is then a run on the
events of all steps, in order. Where each step balances what is held, what comes in and what
goes out, a whole run does.
-/

namespace P2PMessenger.Run

variable {σ τ ε φ α : Type}

theorem along_and {step : σ → ε → σ} {P Q : σ → ε → Prop} {s : σ} {es : List ε} :
    Along step (fun s e => P s e ∧ Q s e) s es ↔ Along step P s es ∧ Along step Q s es := by
  induction es generalizing s with
  | nil => simp [Along]
  | cons e es ih => simp only [Along, ih, and_and_and_comm]

/-- What every step keeps holds before each step of a run. -/
theorem Along.invariant {step : σ → ε → σ} {I : σ → Prop} {P : σ → ε → Prop}
    (hStep : ∀ s e, I s → P s e → I (step s e)) {s : σ} (h : I s) {es : List ε}
    (hP : Along step P s es) : Along step (fun s e => I s ∧ P s e) s es := by
  induction es generalizing s with
  | nil => trivial
  | cons e es ih => exact ⟨⟨h, hP.1⟩, ih (hStep s e h hP.1) hP.2⟩

theorem along_toList {step : σ → ε → σ} {P : σ → ε → Prop} {s : σ} {e : Option ε}
    (h : ∀ e' ∈ e, P s e') : Along step P s e.toList := by
  cases e with
  | none => trivial
  | some e => exact ⟨h e rfl, trivial⟩

/-! ## Runs seen through a map -/

/-- A map of states that commutes with the steps carries runs to runs. -/
theorem run_map {step : σ → ε → σ} {step' : τ → φ → τ} {f : σ → τ} {g : ε → φ}
    (hStep : ∀ s e, step' (f s) (g e) = f (step s e)) (s : σ) (es : List ε) :
    run step' (f s) (es.map g) = f (run step s es) := by
  rw [run, List.foldl_map]
  exact List.foldl_hom f hStep

/-- The run of a part that takes the events `events s e` while the whole takes the step `e`. -/
theorem run_part {step : σ → ε → σ} {step' : τ → φ → τ} {f : σ → τ} {events : σ → ε → List φ}
    (hStep : ∀ s e, f (step s e) = run step' (f s) (events s e)) (s : σ) (es : List ε) :
    f (run step s es) = run step' (f s) (added step events s es) := by
  induction es generalizing s with
  | nil => rfl
  | cons e es ih => rw [run_cons, ih, hStep, added, run_append]

/-- A condition on the steps of the part, read along the run of the whole. -/
theorem along_part {step : σ → ε → σ} {step' : τ → φ → τ} {f : σ → τ} {events : σ → ε → List φ}
    (hStep : ∀ s e, f (step s e) = run step' (f s) (events s e)) {P : τ → φ → Prop} {s : σ}
    {es : List ε} (h : Along step (fun s e => Along step' P (f s) (events s e)) s es) :
    Along step' P (f s) (added step events s es) := by
  induction es generalizing s with
  | nil => trivial
  | cons e es ih =>
    rw [added, along_append, ← hStep]
    exact ⟨h.1, ih h.2⟩

/-- A relation that the steps of two machines keep holds between their runs. -/
theorem run_related {step : σ → ε → σ} {step' : τ → ε → τ} {R : σ → τ → Prop}
    (hStep : ∀ s t e, R s t → R (step s e) (step' t e)) {s : σ} {t : τ} (h : R s t)
    (es : List ε) : R (run step s es) (run step' t es) := by
  induction es generalizing s t with
  | nil => exact h
  | cons e es ih => exact ih (hStep s t e h)

theorem added_append (step : σ → ε → σ) (new : σ → ε → List α) (s : σ) (es fs : List ε) :
    added step new s (es ++ fs) = added step new s es ++ added step new (run step s es) fs := by
  induction es generalizing s with
  | nil => rfl
  | cons e es ih => rw [List.cons_append, added, ih, added, run_cons, List.append_assoc]

theorem added_sublist {step : σ → ε → σ} {new new' : σ → ε → List α}
    (h : ∀ s e, (new s e).Sublist (new' s e)) (s : σ) (es : List ε) :
    (added step new s es).Sublist (added step new' s es) := by
  induction es generalizing s with
  | nil => exact List.Sublist.refl _
  | cons e es ih => exact (h s e).append (ih (step s e))

theorem added_toList (step : σ → ε → σ) (part : ε → Option α) (s : σ) (es : List ε) :
    added step (fun _ e => (part e).toList) s es = es.filterMap part := by
  induction es generalizing s with
  | nil => rfl
  | cons e es ih => cases h : part e <;> simp [added, h, ih]

/-- Every element of a history was added at some step. -/
theorem mem_added {step : σ → ε → σ} {new : σ → ε → List α} {s : σ} {es : List ε} {x : α}
    (h : x ∈ added step new s es) :
    ∃ pre e post, es = pre ++ e :: post ∧ x ∈ new (run step s pre) e := by
  induction es generalizing s with
  | nil => cases h
  | cons e es ih =>
    rcases List.mem_append.mp h with hNew | hLater
    · exact ⟨[], e, es, rfl, hNew⟩
    · obtain ⟨pre, e', post, rfl, hNew⟩ := ih hLater
      exact ⟨e :: pre, e', post, rfl, hNew⟩

/-! ## Balances -/

section Balance

/-- What the steps of a run amount to. -/
def total {M : Type} [AddCommMonoid M] (step : σ → ε → σ) (f : σ → ε → M) : σ → List ε → M
  | _, [] => 0
  | s, e :: es => f s e + total step f (step s e) es

theorem total_coe (step : σ → ε → σ) (new : σ → ε → List α) (s : σ) (es : List ε) :
    total step (fun s e => (new s e : Multiset α)) s es = (added step new s es : Multiset α) := by
  induction es generalizing s with
  | nil => rfl
  | cons e es ih => rw [total, added, ih, Multiset.coe_add]

theorem total_add {M : Type} [AddCommMonoid M] (step : σ → ε → σ) (f g : σ → ε → M) (s : σ)
    (es : List ε) :
    total step (fun s e => f s e + g s e) s es = total step f s es + total step g s es := by
  induction es generalizing s with
  | nil => exact (add_zero 0).symm
  | cons e es ih => rw [total, total, total, ih, add_add_add_comm]

variable {M : Type} [AddCommMonoid M] {step : σ → ε → σ} (held : σ → M)
  (inflow outflow : σ → ε → M)

/-- If every step of a run balances, the run does. -/
theorem balance_run {I : σ → Prop} {P : σ → ε → Prop} (hInv : ∀ s e, I s → P s e → I (step s e))
    (hStep : ∀ s e, I s → P s e → held (step s e) + outflow s e = held s + inflow s e)
    {s : σ} (h : I s) {es : List ε} (hP : Along step P s es) :
    held (run step s es) + total step outflow s es = held s + total step inflow s es := by
  induction es generalizing s with
  | nil => rfl
  | cons e es ih =>
    have hRest := ih (hInv s e h hP.1) hP.2
    calc held (run step (step s e) es) + (outflow s e + total step outflow (step s e) es)
        _ = outflow s e + (held (run step (step s e) es) + total step outflow (step s e) es) :=
          add_left_comm _ _ _
        _ = outflow s e + (held (step s e) + total step inflow (step s e) es) := by rw [hRest]
        _ = (held (step s e) + outflow s e) + total step inflow (step s e) es := by
          rw [← add_assoc, add_comm (outflow s e)]
        _ = (held s + inflow s e) + total step inflow (step s e) es := by
          rw [hStep s e h hP.1]
        _ = held s + (inflow s e + total step inflow (step s e) es) := add_assoc _ _ _

/-- If no step lets out or keeps more than it had and took in, no run does. -/
theorem balance_run_le [PartialOrder M] [IsOrderedAddMonoid M]
    (hStep : ∀ s e, held (step s e) + outflow s e ≤ held s + inflow s e) (s : σ) (es : List ε) :
    held (run step s es) + total step outflow s es ≤ held s + total step inflow s es := by
  induction es generalizing s with
  | nil => exact le_refl _
  | cons e es ih =>
    calc held (run step (step s e) es) + (outflow s e + total step outflow (step s e) es)
        _ = outflow s e + (held (run step (step s e) es) + total step outflow (step s e) es) :=
          add_left_comm _ _ _
        _ ≤ outflow s e + (held (step s e) + total step inflow (step s e) es) :=
          add_le_add_right (ih (step s e)) _
        _ = (held (step s e) + outflow s e) + total step inflow (step s e) es := by
          rw [← add_assoc, add_comm (outflow s e)]
        _ ≤ (held s + inflow s e) + total step inflow (step s e) es :=
          add_le_add_left (hStep s e) _
        _ = held s + (inflow s e + total step inflow (step s e) es) := add_assoc _ _ _

/-- Two balances that share what is started and what is ended make one. -/
theorem balance_trans {M : Type} [AddCancelCommMonoid M] {held held' started ended fates sent : M}
    (hHeld : held' + ended = held + started) (hEnded : fates + started = ended + sent) :
    held' + fates = held + sent := by
  apply add_right_cancel (b := started)
  calc held' + fates + started
      _ = held' + (ended + sent) := by rw [add_assoc, hEnded]
      _ = held + started + sent := by rw [← add_assoc, hHeld]
      _ = held + sent + started := add_right_comm _ _ _

end Balance

end P2PMessenger.Run
