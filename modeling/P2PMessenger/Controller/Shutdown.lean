import P2PMessenger.Controller.Quiescence

/-!
# Closing the window

`OnClose` lets the network thread finish what it has, even a start in the middle, and then
stops the node. What is left to do at that moment is bounded by the renames so far, a close
admits no more of it, and a node that was stopped for good answers no callback.
-/

namespace P2PMessenger

open Text Crypto Run

namespace P2PNode

variable (S : Sodium)

/-- A stopped node that is only called from the window, and by callbacks that come too late,
puts, reports and decrypts nothing. -/
theorem step_of_stopped {n : P2PNode} (hWhole : n.Whole) (hRunning : n.running = false)
    {e : Event} (hKeeps : e.keeps = true) (hPublish : ∀ profile, e ≠ .publishProfile profile) :
    (n.step S e).puts = n.puts ∧ (n.step S e).reports = n.reports ∧
      (n.step S e).crypto = n.crypto := by
  have hDht : n.dht.running = false := hWhole.dht.trans hRunning
  have hAction (op : Nat) (values : List Bytes) : n.lookupAction op values = .ignore := by
    simp [lookupAction, pending, hDht]
  obtain ⟨rest, hStep⟩ := step_effect S n e
  refine ⟨?_, ?_, ?_⟩
  · have hNone : n.newPuts S e = [] := by
      cases e with
      | publishProfile profile => exact absurd rfl (hPublish profile)
      | refreshProfile => simp [newPuts, hRunning]
      | lookup op values io => simp [newPuts, hAction]
      | _ => rfl
    rw [step_puts, hNone, List.append_nil]
  · have hNone : n.newReports S e = [] := by
      cases e with
      | lookup op values io => simp [newReports, hAction]
      | _ => rfl
    rw [step_reports, hNone, List.append_nil]
  · rw [hStep]
    show (n.effect S e).crypto = n.crypto
    cases e with
    | setNodeConfig port id => cases hKeeps
    | startNode io => cases hKeeps
    | stopNode => cases hKeeps
    | sendMessage op toPeerId text =>
      simp only [effect]
      split <;> rfl
    | inbox values expired =>
      simp only [effect]
      split <;> rfl
    | lookup op values io => simp [effect, afterLookup, hAction]
    | _ => rfl

end P2PNode

/-! ## How much work is left -/

/-- The steps of the network thread that a piece of work takes at most. -/
def Task.steps : Task → Nat
  | .start _ _ => 6
  | _ => 1

namespace Action

def isWork : Action → Bool
  | .work _ => true
  | _ => false

def isRename : Action → Bool
  | .changePeerId _ => true
  | _ => false

def isClose : Action → Bool
  | .close => true
  | _ => false

end Action

theorem AppController.steps_perform (a : AppController) (io : StartInput) (task : Task) :
    ((a.perform io task).2.map Task.steps).sum < task.steps := by
  cases task with
  | start bootstrapHost bootstrapPort =>
    simp only [perform]
    split
    · exact Nat.succ_pos 5
    · unfold startTasks
      split <;> simp [Task.steps]
  | _ => exact Nat.one_pos

namespace System

def backlog (s : System) : Nat := (s.todo.map Task.steps).sum

theorem todo_of_backlog {s : System} (h : s.backlog = 0) : s.todo = [] := by
  cases hTodo : s.todo with
  | nil => rfl
  | cons task rest =>
    have hPos : 0 < task.steps := by cases task <;> simp [Task.steps]
    simp only [backlog, hTodo, List.map_cons, List.sum_cons] at h
    omega

theorem backlog_work (s : System) (io : StartInput) : (s.work io).backlog ≤ s.backlog - 1 := by
  unfold work backlog
  cases hTodo : s.todo with
  | nil => simp [hTodo]
  | cons task rest =>
    have hLess := AppController.steps_perform s.app io task
    simp only [List.map_append, List.sum_append, List.map_cons, List.sum_cons]
    omega

/-- The queued work and the stop that a close may still queue. -/
def toCome (s : System) : Nat := s.backlog + if s.shuttingDown then 0 else 1

theorem backlog_le_toCome (s : System) : s.backlog ≤ s.toCome := Nat.le_add_right _ _

variable (S : Sodium)

/-- Only a rename makes more work than was to come. -/
theorem toCome_step (s : System) (action : Action) :
    (s.step S action).toCome ≤ s.toCome + if action.isRename then 8 else 0 := by
  cases action with
  | work io =>
    have hWork := s.backlog_work io
    have hShut : (s.work io).shuttingDown = s.shuttingDown := by
      unfold work
      split <;> rfl
    simp only [step, toCome, hShut]
    omega
  | changePeerId newPeerId =>
    simp only [step, changePeerId, Action.isRename]
    split
    · exact Nat.le_add_right _ _
    · simp [toCome, backlog, Task.steps, Nat.add_right_comm]
  | close =>
    simp only [step, close]
    split
    · exact Nat.le_add_right _ _
    · simp_all [toCome, backlog, Task.steps]
  | _ => exact Nat.le_add_right _ _

theorem toCome_run (s : System) (actions : List Action) :
    (run (step S) s actions).toCome ≤ s.toCome + 8 * actions.countP Action.isRename := by
  induction actions generalizing s with
  | nil => exact Nat.le_refl _
  | cons action actions ih =>
    have hStep := toCome_step S s action
    have hRest := ih (s.step S action)
    rw [run_cons, List.countP_cons]
    cases hRename : action.isRename with
    | true =>
      rw [hRename, if_pos rfl] at hStep
      rw [if_pos rfl]
      omega
    | false =>
      rw [hRename, if_neg Bool.false_ne_true] at hStep
      rw [if_neg Bool.false_ne_true]
      omega

theorem shuttingDown_step {s : System} (hShut : s.shuttingDown = true) (action : Action) :
    (s.step S action).shuttingDown = true := by
  cases action with
  | work io =>
    simp only [step, work]
    split <;> exact hShut
  | changePeerId newPeerId => simp [step, changePeerId, hShut]
  | close => simp [step, close, hShut]
  | _ => exact hShut

/-- A step that adds no work: nothing is asked, or nobody listens any more. -/
def Calm (s : System) (action : Action) : Prop :=
  s.shuttingDown = true ∨ (action.isRename = false ∧ action.isClose = false)

theorem calm_of_closed {s : System} (hShut : s.shuttingDown = true) (actions : List Action) :
    Along (step S) Calm s actions := by
  induction actions generalizing s with
  | nil => trivial
  | cons action actions ih => exact ⟨Or.inl hShut, ih (shuttingDown_step S hShut action)⟩

theorem backlog_run_calm {s : System} {actions : List Action}
    (hCalm : Along (step S) Calm s actions) :
    (run (step S) s actions).backlog ≤ s.backlog - actions.countP Action.isWork := by
  induction actions generalizing s with
  | nil => exact Nat.le_refl _
  | cons action actions ih =>
    have hStep : (s.step S action).backlog ≤ s.backlog - if action.isWork then 1 else 0 := by
      cases action with
      | work io => exact s.backlog_work io
      | changePeerId newPeerId =>
        have hShut : s.shuttingDown = true := by simpa [Calm, Action.isRename] using hCalm.1
        simp [step, changePeerId, hShut, Action.isWork]
      | close =>
        have hShut : s.shuttingDown = true := by simpa [Calm, Action.isClose] using hCalm.1
        simp [step, close, hShut, Action.isWork]
      | _ => exact Nat.le_refl _
    have hRest := ih hCalm.2
    rw [run_cons, List.countP_cons]
    omega

/-- Enough steps of the network thread, while nothing new is asked, empty its queue. -/
theorem todo_run_calm (peerId : Bytes) (port : Nat) (bootstrapHost bootstrapPort : Bytes)
    {actions more : List Action}
    (hCalm : Along (step S) Calm
      (run (step S) (launch peerId port bootstrapHost bootstrapPort) actions) more)
    (hWork : 7 + 8 * actions.countP Action.isRename ≤ more.countP Action.isWork) :
    (run (step S) (launch peerId port bootstrapHost bootstrapPort) (actions ++ more)).todo = [] := by
  have hBound : (run (step S) (launch peerId port bootstrapHost bootstrapPort) actions).backlog ≤
      7 + 8 * actions.countP Action.isRename :=
    (backlog_le_toCome _).trans
      (toCome_run S (launch peerId port bootstrapHost bootstrapPort) actions)
  have hRest := backlog_run_calm S hCalm
  apply todo_of_backlog
  rw [run_append]
  omega

theorem ask_run_calm {more : List Action}
    (hCalm : ∀ action ∈ more, action.isRename = false ∧ action.isClose = false) (l : Life) :
    run Life.ask l more = l := by
  induction more with
  | nil => rfl
  | cons action more ih =>
    have hSame : l.ask action = l := by
      have hAction := hCalm action List.mem_cons_self
      cases action <;> simp_all [Life.ask, Action.isRename, Action.isClose]
    rw [run_cons, hSame]
    exact ih fun a hMem => hCalm a (List.mem_cons_of_mem action hMem)

/-- A rename to Bob while the start as Alice is under way. -/
def renameAmidStart : List Action :=
  [.work { generated := .constant 7 }, .work { generated := .constant 7 },
    .changePeerId (bytes "bob")]

/-- The window is closed, the network thread has no work and the node is stopped. -/
structure Down (s : System) : Prop where
  shut : s.shuttingDown = true
  todo : s.todo = []
  app : s.app.running = false
  running : s.app.node.running = false
  whole : s.app.node.Whole

/-- What a node has shown to the outside, apart from the window. -/
structure Quiet (n m : P2PNode) : Prop where
  puts : m.puts = n.puts
  reports : m.reports = n.reports
  crypto : m.crypto = n.crypto

theorem Down.onNode {s : System} (h : s.Down) {e : Event} (hKeeps : e.keeps = true)
    (hPublish : ∀ profile, e ≠ .publishProfile profile) (contacts : List Bytes) :
    ({ s with app := { s.app.onNode S e with contacts := contacts } } : System).Down ∧
      Quiet s.app.node (s.app.onNode S e).node := by
  have hSame : P2PNode.SameSession s.app.node (s.app.node.step S e) :=
    P2PNode.step_sameSession S hKeeps
  obtain ⟨hPuts, hReports, hCrypto⟩ :=
    P2PNode.step_of_stopped S h.whole h.running hKeeps hPublish
  exact ⟨⟨h.shut, h.todo, h.app, hSame.running.trans h.running, h.whole.sameSession hSame⟩,
    hPuts, hReports, hCrypto⟩

theorem Down.step {s : System} (h : s.Down) (action : Action) :
    (s.step S action).Down ∧ Quiet s.app.node (s.step S action).app.node := by
  have hStay : s.Down ∧ Quiet s.app.node s.app.node := ⟨h, rfl, rfl, rfl⟩
  rcases step_cases S s action with ⟨io, rfl⟩ | ⟨newPeerId, rfl⟩ | rfl |
    ⟨-, hSame | ⟨e, contacts, hKeeps, hProfile, -, hStep⟩⟩
  · simpa [System.step, System.work, h.todo] using hStay
  · simpa [System.step, System.changePeerId, h.shut] using hStay
  · simpa [System.step, System.close, h.shut] using hStay
  · rw [hSame]
    exact hStay
  · rw [hStep]
    exact h.onNode S hKeeps hProfile contacts

theorem Down.run {s : System} (h : s.Down) (actions : List Action) :
    (run (System.step S) s actions).Down ∧
      Quiet s.app.node (run (System.step S) s actions).app.node := by
  refine run_invariant (I := fun t : System => t.Down ∧ Quiet s.app.node t.app.node) ?_
    ⟨h, rfl, rfl, rfl⟩ actions
  intro t action hDown
  obtain ⟨hNext, hQuiet⟩ := hDown.1.step S action
  exact ⟨hNext, hQuiet.puts.trans hDown.2.puts, hQuiet.reports.trans hDown.2.reports,
    hQuiet.crypto.trans hDown.2.crypto⟩

theorem ask_of_closed {actions : List Action} (h : .close ∈ actions) (l : Life) :
    (run Life.ask l actions).phase = .idle := by
  obtain ⟨pre, post, rfl⟩ := List.append_of_mem h
  rw [run_append, run_cons]
  refine run_invariant (I := fun l : Life => l.phase = .idle) ?_ rfl post
  intro l action hIdle
  cases action <;> simp [Life.ask, hIdle]

/-- Once the window is closed, the network thread needs at most seven steps and eight for each
rename so far to stop the node; from then on nothing that any thread does puts a value,
reports a message or touches the crypto service. -/
theorem close_stops (peerId : Bytes) (port : Nat) (bootstrapHost bootstrapPort : Bytes)
    {actions more : List Action} (hClosed : .close ∈ actions)
    (hWork : 7 + 8 * actions.countP Action.isRename ≤ more.countP Action.isWork)
    (later : List Action) :
    (run (step S) (launch peerId port bootstrapHost bootstrapPort)
      (actions ++ more)).Down ∧
    Quiet
      (run (step S) (launch peerId port bootstrapHost bootstrapPort)
        (actions ++ more)).app.node
      (run (step S) (launch peerId port bootstrapHost bootstrapPort)
        (actions ++ more ++ later)).app.node := by
  have hShut (es : List Action) (hMem : .close ∈ es) :
      (run (step S) (launch peerId port bootstrapHost bootstrapPort) es).shuttingDown = true := by
    have hPhase := (heading_run S peerId port bootstrapHost bootstrapPort es).phase
    rw [ask_of_closed hMem] at hPhase
    by_contra hOpen
    rw [if_neg hOpen] at hPhase
    cases hPhase
  have hEmpty := todo_run_calm S peerId port bootstrapHost bootstrapPort
    (calm_of_closed S (hShut actions hClosed) more) hWork
  have hMem : .close ∈ actions ++ more := List.mem_append_left more hClosed
  have hDoes := does_asked S peerId port bootstrapHost bootstrapPort (actions ++ more) hEmpty
  have hIdle := ask_of_closed hMem ⟨.up, configuredId peerId⟩
  have hDown : (run (step S) (launch peerId port bootstrapHost bootstrapPort)
      (actions ++ more)).Down := by
    refine ⟨hShut _ hMem, hEmpty, ?_, ?_,
      (heading_run S peerId port bootstrapHost bootstrapPort (actions ++ more)).steady.whole⟩
    · rw [hDoes.app, hIdle]
      rfl
    · rw [hDoes.node, hIdle]
      rfl
  refine ⟨hDown, ?_⟩
  rw [run_append _ (actions ++ more) later]
  exact (hDown.run S later).2

/-- The window is closed while the start as Alice is under way; a lookup is answered and the
worker wakes up behind the stop. -/
theorem closedAmidStart_stops :
    (run (step Sodium.additive) (launch (bytes "alice") 4222 (bytes "127.0.0.1") (bytes "0"))
      ([.work { generated := .constant 7 }, .close] ++
        List.replicate 7 (.work { generated := .constant 7 }))).Down ∧
    Quiet
      (run (step Sodium.additive) (launch (bytes "alice") 4222 (bytes "127.0.0.1") (bytes "0"))
        ([.work { generated := .constant 7 }, .close] ++
          List.replicate 7 (.work { generated := .constant 7 }))).app.node
      (run (step Sodium.additive) (launch (bytes "alice") 4222 (bytes "127.0.0.1") (bytes "0"))
        ([.work { generated := .constant 7 }, .close] ++
          List.replicate 7 (.work { generated := .constant 7 }) ++
          [.lookup 0 [] { now := 7, draws := .constant 5 9 }, .refreshProfile])).app.node :=
  close_stops Sodium.additive _ _ _ _ (by simp) (by decide +kernel) _

end System

end P2PMessenger
