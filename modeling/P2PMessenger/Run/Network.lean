import P2PMessenger.Run.Trace
import Mathlib.Logic.Function.Basic

/-!
# Networks of one machine

One copy of a machine at each place; an event is taken at one of the places and changes
the state there. The copies share nothing, so a run of the network is, at each place, the
run of the machine on the events taken there, in the order in which they were taken.
-/

namespace P2PMessenger.Run

variable {ι σ ε : Type} [DecidableEq ι]

def netStep (step : σ → ε → σ) (s : ι → σ) (e : ι × ε) : ι → σ :=
  Function.update s e.1 (step (s e.1) e.2)

/-- The events taken at one place. -/
def eventsAt (i : ι) (es : List (ι × ε)) : List ε :=
  es.filterMap fun e => if e.1 = i then some e.2 else none

variable {step : σ → ε → σ}

@[simp] theorem netStep_self (s : ι → σ) (i : ι) (e : ε) :
    netStep step s (i, e) i = step (s i) e := by
  simp [netStep]

theorem netStep_of_ne {i j : ι} (hne : j ≠ i) (s : ι → σ) (e : ε) :
    netStep step s (i, e) j = s j := by
  simp [netStep, hne]

theorem mem_eventsAt {i : ι} {e : ε} {es : List (ι × ε)} :
    e ∈ eventsAt i es ↔ (i, e) ∈ es := by
  simp only [eventsAt, List.mem_filterMap, Option.ite_none_right_eq_some, Option.some.injEq]
  constructor
  · rintro ⟨⟨j, f⟩, hmem, rfl, rfl⟩
    exact hmem
  · exact fun hmem => ⟨(i, e), hmem, rfl, rfl⟩

theorem eventsAt_cons_self (i : ι) (e : ε) (es : List (ι × ε)) :
    eventsAt i ((i, e) :: es) = e :: eventsAt i es := by
  simp [eventsAt]

theorem eventsAt_cons_of_ne {i j : ι} (hne : j ≠ i) (e : ε) (es : List (ι × ε)) :
    eventsAt j ((i, e) :: es) = eventsAt j es := by
  simp [eventsAt, hne.symm]

theorem run_netStep_apply (s : ι → σ) (es : List (ι × ε)) (i : ι) :
    run (netStep step) s es i = run step (s i) (eventsAt i es) := by
  induction es generalizing s with
  | nil => rfl
  | cons e es ih =>
    obtain ⟨j, e⟩ := e
    rw [run_cons, ih]
    by_cases hij : i = j
    · subst hij
      rw [netStep_self, eventsAt_cons_self, run_cons]
    · rw [netStep_of_ne hij, eventsAt_cons_of_ne hij]

/-- A condition on the single places holds along the run at each of them. -/
theorem Along.eventsAt {P : ι → σ → ε → Prop} {s : ι → σ} {es : List (ι × ε)}
    (h : Along (netStep step) (fun s e => P e.1 (s e.1) e.2) s es) (i : ι) :
    Along step (P i) (s i) (eventsAt i es) := by
  induction es generalizing s with
  | nil => trivial
  | cons e es ih =>
    obtain ⟨j, e⟩ := e
    have hRest := ih h.2
    by_cases hij : i = j
    · subst hij
      rw [netStep_self] at hRest
      rw [eventsAt_cons_self]
      exact ⟨h.1, hRest⟩
    · rw [netStep_of_ne hij] at hRest
      rw [eventsAt_cons_of_ne hij]
      exact hRest

/-- What the steps at one place add is what its own run adds. -/
theorem added_netStep {α : Type} (new : σ → ε → List α) (s : ι → σ) (es : List (ι × ε)) (i : ι) :
    added (netStep step) (fun s e => if e.1 = i then new (s i) e.2 else []) s es =
      added step new (s i) (eventsAt i es) := by
  induction es generalizing s with
  | nil => rfl
  | cons e es ih =>
    obtain ⟨j, e⟩ := e
    rw [added, ih]
    by_cases hij : j = i
    · subst hij
      rw [netStep_self, eventsAt_cons_self, if_pos rfl, added]
    · rw [netStep_of_ne (Ne.symm hij), eventsAt_cons_of_ne (Ne.symm hij), if_neg hij,
        List.nil_append]

/-! ## Networks of parts -/

section Parts

variable {τ φ : Type}

theorem eventsAt_append (i : ι) (es fs : List (ι × ε)) :
    eventsAt i (es ++ fs) = eventsAt i es ++ eventsAt i fs := List.filterMap_append

theorem eventsAt_at (i j : ι) (events : List φ) :
    eventsAt i (events.map (Prod.mk j)) = if j = i then events else [] := by
  by_cases hij : j = i
  · simp [eventsAt, hij, List.filterMap_map]
  · simp [eventsAt, hij, List.filterMap_map]

/-- The network of the parts takes the events of the part at the place of a step. -/
theorem netStep_part {step' : τ → φ → τ} {f : σ → τ} {events : σ → ε → List φ}
    (hStep : ∀ s e, f (step s e) = run step' (f s) (events s e)) (s : ι → σ) (e : ι × ε) :
    (fun i => f (netStep step s e i)) =
      run (netStep step') (fun i => f (s i)) ((events (s e.1) e.2).map (Prod.mk e.1)) := by
  obtain ⟨j, e⟩ := e
  funext i
  rw [run_netStep_apply, eventsAt_at]
  by_cases hij : i = j
  · subst hij
    rw [netStep_self, if_pos rfl, hStep]
  · rw [netStep_of_ne hij, if_neg (Ne.symm hij), run_nil]

theorem eventsAt_added (events : σ → ε → List φ) (s : ι → σ) (es : List (ι × ε)) (i : ι) :
    eventsAt i (added (netStep step)
        (fun s e => (events (s e.1) e.2).map (Prod.mk e.1)) s es) =
      added step events (s i) (eventsAt i es) := by
  induction es generalizing s with
  | nil => rfl
  | cons e es ih =>
    obtain ⟨j, e⟩ := e
    rw [added, eventsAt_append, ih, eventsAt_at]
    by_cases hij : i = j
    · subst hij
      rw [netStep_self, eventsAt_cons_self, if_pos rfl, added]
    · rw [netStep_of_ne hij, eventsAt_cons_of_ne hij, if_neg (Ne.symm hij), List.nil_append]

end Parts

end P2PMessenger.Run
