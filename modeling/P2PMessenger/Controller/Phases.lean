import P2PMessenger.Controller.System
import P2PMessenger.Node.Effect

/-!
# The phases of the network thread

Between `startNode` and the end of `start` the node runs and the controller does not say so.
That is one of three phases, and each piece of work of the network thread has the phases in
which it is in its place. They make a machine over the queue, with the id that the controller
is given, and the controller follows it (`perform_next`). A result that needs more of a queue
says so beside the machine.
-/

namespace P2PMessenger

open Text Crypto Run

inductive Phase where
  | idle
  | starting
  | up
  deriving DecidableEq

structure Life where
  phase : Phase
  id : Bytes
  deriving DecidableEq

namespace Life

/-- What a piece of work makes of the phase and the id, if it is in its place. -/
def next (l : Life) : Task → Option Life
  | .stop => if l.phase ≠ .starting then some ⟨.idle, l.id⟩ else none
  | .configure peerId => if l.phase = .idle then some ⟨.idle, configuredId peerId⟩ else none
  | .start _ _ => if l.phase ≠ .starting then some ⟨.up, l.id⟩ else none
  | .startNode => if l.phase = .idle then some ⟨.starting, l.id⟩ else none
  | .publishProfile profile => if l.phase = .starting ∧ profile.userId = l.id then some l else none
  | .bootstrap _ _ => if l.phase = .starting then some l else none
  | .setRunning => if l.phase = .starting then some ⟨.up, l.id⟩ else none

def after (l : Life) (tasks : List Task) : Option Life := tasks.foldlM next l

@[simp] theorem after_nil (l : Life) : l.after [] = some l := rfl

@[simp] theorem after_cons (l : Life) (task : Task) (tasks : List Task) :
    l.after (task :: tasks) = (l.next task).bind fun l' => l'.after tasks := rfl

@[simp] theorem after_append (l : Life) (tasks more : List Task) :
    l.after (tasks ++ more) = (l.after tasks).bind fun l' => l'.after more := by
  simp [after, List.foldlM_append]

/-- The work of a restart, behind a queue that does not end amid a start. -/
theorem after_restart {l : Life} (hPhase : l.phase ≠ .starting)
    (newPeerId bootstrapHost bootstrapPort : Bytes) :
    l.after [.stop, .configure newPeerId, .start bootstrapHost bootstrapPort] =
      some ⟨.up, configuredId newPeerId⟩ := by
  simp [next, hPhase]

theorem after_stop {l : Life} (hPhase : l.phase ≠ .starting) :
    l.after [.stop] = some ⟨.idle, l.id⟩ := by
  simp [next, hPhase]

theorem after_start {l : Life} (hPhase : l.phase ≠ .starting)
    (bootstrapHost bootstrapPort : Bytes) :
    l.after [.start bootstrapHost bootstrapPort] = some ⟨.up, l.id⟩ := by
  simp [next, hPhase]

end Life

/-! ## Every `configure` belongs to a restart -/

def Restarts : List Task → Prop
  | [] => True
  | .configure _ :: rest => (∃ host port, rest.head? = some (.start host port)) ∧ Restarts rest
  | _ :: rest => Restarts rest

theorem Restarts.tail {task : Task} {rest : List Task} (h : Restarts (task :: rest)) :
    Restarts rest := by
  cases task with
  | configure peerId => exact h.2
  | _ => exact h

theorem Restarts.append {todo more : List Task} (h : Restarts todo) (hMore : Restarts more) :
    Restarts (todo ++ more) := by
  induction todo with
  | nil => exact hMore
  | cons task rest ih =>
    have hRest := ih h.tail
    cases task with
    | configure peerId =>
      obtain ⟨⟨host, port, hHead⟩, -⟩ := h
      exact ⟨⟨host, port, List.mem_head?_append_of_mem_head? hHead⟩, hRest⟩
    | _ => exact hRest

theorem restarts_changePeerId (newPeerId bootstrapHost bootstrapPort : Bytes) :
    Restarts [.stop, .configure newPeerId, .start bootstrapHost bootstrapPort] :=
  ⟨⟨_, _, rfl⟩, trivial⟩

theorem restarts_of_not_mem {todo : List Task} (h : ∀ peerId, .configure peerId ∉ todo) :
    Restarts todo := by
  induction todo with
  | nil => trivial
  | cons task rest ih =>
    have hRest := ih fun peerId hMem => h peerId (List.mem_cons_of_mem _ hMem)
    cases task with
    | configure peerId => exact absurd List.mem_cons_self (h peerId)
    | _ => exact hRest

theorem configure_not_mem_perform (a : AppController) (io : StartInput) (task : Task)
    (peerId : Bytes) : .configure peerId ∉ (a.perform io task).2 := by
  cases task with
  | start bootstrapHost bootstrapPort =>
    simp only [AppController.perform, AppController.startTasks]
    split
    · exact List.not_mem_nil
    · split <;> simp
  | _ => exact List.not_mem_nil

/-! ## The node between its starts and stops -/

namespace P2PNode

/-- The node runs, with its DHT, its keys and its inbox under its id, or nothing of it does. -/
structure Whole (n : P2PNode) : Prop where
  dht : n.dht.running = n.running
  up : n.running = true → n.keyOwner = n.myId ∧ n.dht.listenName = some (inboxName n.myId)
  down : n.running = false → n.dht.listenName = none

variable (S : Sodium)

theorem Whole.sameSession {n m : P2PNode} (h : n.Whole) (hSame : SameSession n m) : m.Whole where
  dht := hSame.dhtRunning.trans (h.dht.trans hSame.running.symm)
  up hUp := by
    obtain ⟨hOwner, hListens⟩ := h.up (hSame.running.symm.trans hUp)
    rw [hSame.keyOwner, hSame.listenName, hSame.myId]
    exact ⟨hOwner, hListens⟩
  down hDown := hSame.listenName.trans (h.down (hSame.running.symm.trans hDown))

theorem Whole.startNode {n : P2PNode} (h : n.Whole) (io : StartInput) : (n.startNode io).Whole := by
  unfold P2PNode.startNode
  split
  · exact h
  · refine ⟨rfl, fun _ => ⟨rfl, rfl⟩, ?_⟩
    intro hDown
    cases hDown

theorem Whole.stopNode {n : P2PNode} (h : n.Whole) : n.stopNode.Whole := by
  unfold P2PNode.stopNode
  split
  · exact h
  · refine ⟨rfl, ?_, fun _ => rfl⟩
    intro hUp
    cases hUp

end P2PNode

/-! ## The controller follows the machine -/

namespace AppController

def phase (a : AppController) : Phase :=
  if a.running then .up else if a.node.running then .starting else .idle

def life (a : AppController) : Life := ⟨a.phase, a.peerId⟩

theorem phase_eq_idle {a : AppController} :
    a.phase = .idle ↔ a.running = false ∧ a.node.running = false := by
  unfold phase
  cases a.running <;> cases a.node.running <;> simp

theorem phase_eq_starting {a : AppController} :
    a.phase = .starting ↔ a.running = false ∧ a.node.running = true := by
  unfold phase
  cases a.running <;> cases a.node.running <;> simp

theorem phase_eq_up {a : AppController} : a.phase = .up ↔ a.running = true := by
  unfold phase
  cases a.running <;> cases a.node.running <;> simp

/-- The node runs while the controller says so, and its id is that of the controller. -/
structure Steady (a : AppController) : Prop where
  running : a.running = true → a.node.running = true
  myId : a.node.myId = trim isSpace a.peerId
  whole : a.node.Whole

variable (S : Sodium)

theorem life_onNode {a : AppController} {e : Event} (hKeeps : e.keeps = true) :
    (a.onNode S e).life = a.life := by
  have hRunning : (a.node.step S e).running = a.node.running :=
    (P2PNode.step_sameSession S hKeeps).running
  simp only [life, phase, onNode, hRunning]

theorem Steady.onNode {a : AppController} (h : a.Steady) {e : Event} (hKeeps : e.keeps = true) :
    (a.onNode S e).Steady := by
  have hSame : P2PNode.SameSession a.node (a.node.step S e) := P2PNode.step_sameSession S hKeeps
  exact ⟨fun hRunning => hSame.running.trans (h.running hRunning), hSame.myId.trans h.myId,
    h.whole.sameSession hSame⟩

/-- A stop outside a start finds the controller stopped, or its node running. -/
theorem Steady.stop_eq {a : AppController} (h : a.Steady) (hPhase : a.phase ≠ .starting) :
    (a.phase = .idle ∧ a.stop = a) ∨
      a.stop = { a with
        node := { a.node with running := false, dht := {} }.notifyNetworkStatus
          (bytes "Node stopped")
        running := false } := by
  cases hRunning : a.running with
  | false =>
    refine Or.inl ⟨?_, by simp [AppController.stop, hRunning]⟩
    cases hCase : a.phase with
    | idle => rfl
    | starting => exact absurd hCase hPhase
    | up => exact absurd ((phase_eq_up.mp hCase).symm.trans hRunning) Bool.noConfusion
  | true =>
    have hNode : a.node.running = true := h.running hRunning
    refine Or.inr ?_
    simp only [AppController.stop, hRunning, P2PNode.stopNode_of_running hNode]
    rfl

theorem Steady.stop {a : AppController} (h : a.Steady) (hPhase : a.phase ≠ .starting) :
    a.stop.Steady ∧ a.stop.life = ⟨.idle, a.peerId⟩ := by
  rcases h.stop_eq hPhase with ⟨hIdle, hStop⟩ | hStop
  · rw [hStop]
    exact ⟨h, by rw [life, hIdle]⟩
  · rw [hStop]
    refine ⟨⟨?_, h.myId, rfl, ?_, fun _ => rfl⟩, rfl⟩
    · intro hUp
      cases hUp
    · intro hUp
      cases hUp

theorem Steady.configure {a : AppController} (h : a.Steady) (hPhase : a.phase = .idle)
    (peerId : Bytes) (port : Nat) :
    (a.configure peerId port).Steady ∧
      (a.configure peerId port).life = ⟨.idle, configuredId peerId⟩ := by
  obtain ⟨hRunning, hNode⟩ := phase_eq_idle.mp hPhase
  have hMyId : (a.configure peerId port).node.myId = trim isSpace (configuredId peerId) := by
    simp [AppController.configure, P2PNode.setNodeConfig, configuredId_ne_nil]
  refine ⟨⟨?_, hMyId, h.whole.dht, ?_, h.whole.down⟩, ?_⟩
  · intro hUp
    rw [show (a.configure peerId port).running = a.running from rfl, hRunning] at hUp
    cases hUp
  · intro hUp
    rw [show (a.configure peerId port).node.running = a.node.running from rfl, hNode] at hUp
    cases hUp
  · exact congrArg (fun phase => Life.mk phase (configuredId peerId))
      (phase_eq_idle.mpr ⟨hRunning, hNode⟩)

theorem Steady.startNode {a : AppController} (h : a.Steady) (hPhase : a.phase = .idle)
    (io : StartInput) :
    ({ a with node := a.node.startNode io } : AppController).Steady ∧
      ({ a with node := a.node.startNode io } : AppController).life = ⟨.starting, a.peerId⟩ := by
  obtain ⟨hRunning, hNode⟩ := phase_eq_idle.mp hPhase
  have hStart : (a.node.startNode io).running = true ∧
      (a.node.startNode io).myId = a.node.myId := by
    rw [P2PNode.startNode_of_stopped hNode]
    exact ⟨rfl, rfl⟩
  refine ⟨⟨fun _ => hStart.1, hStart.2.trans h.myId, h.whole.startNode io⟩, ?_⟩
  exact congrArg (fun phase => Life.mk phase a.peerId) (phase_eq_starting.mpr ⟨hRunning, hStart.1⟩)

/-- The tasks that `start` unfolds to lead from a stopped to a running controller. -/
theorem after_startTasks (a : AppController) (bootstrapHost bootstrapPort : Bytes) :
    Life.after ⟨.idle, a.peerId⟩ (a.startTasks bootstrapHost bootstrapPort) =
      some ⟨.up, a.peerId⟩ := by
  unfold startTasks
  by_cases hDials : Dials bootstrapPort
  · simp [hDials, Life.next, ownProfile]
  · simp [hDials, Life.next, ownProfile]

/-- The controller follows the machine of the phases. -/
theorem perform_next {a : AppController} (h : a.Steady) {task : Task} {l : Life}
    (hNext : a.life.next task = some l) (io : StartInput) :
    (a.perform io task).1.Steady ∧
      (a.perform io task).1.life.after (a.perform io task).2 = some l := by
  cases task with
  | stop =>
    obtain ⟨hPhase, hLife⟩ := Option.ite_none_right_eq_some.mp hNext
    obtain ⟨hSteady, hIdle⟩ := h.stop hPhase
    exact ⟨hSteady, (congrArg some hIdle).trans hLife⟩
  | configure peerId =>
    obtain ⟨hPhase, hLife⟩ := Option.ite_none_right_eq_some.mp hNext
    obtain ⟨hSteady, hIdle⟩ := h.configure hPhase peerId a.port
    exact ⟨hSteady, (congrArg some hIdle).trans hLife⟩
  | start bootstrapHost bootstrapPort =>
    obtain ⟨hPhase, hLife⟩ := Option.ite_none_right_eq_some.mp hNext
    refine ⟨h, ?_⟩
    rw [← hLife]
    show a.life.after (if a.running then [] else a.startTasks bootstrapHost bootstrapPort) =
      some ⟨.up, a.peerId⟩
    cases hCase : a.phase with
    | starting => exact absurd hCase hPhase
    | up => simp [life, hCase, phase_eq_up.mp hCase]
    | idle =>
      rw [(phase_eq_idle.mp hCase).1, life, hCase]
      exact after_startTasks a bootstrapHost bootstrapPort
  | startNode =>
    obtain ⟨hPhase, hLife⟩ := Option.ite_none_right_eq_some.mp hNext
    obtain ⟨hSteady, hStarting⟩ := h.startNode hPhase io
    exact ⟨hSteady, (congrArg some hStarting).trans hLife⟩
  | publishProfile profile =>
    obtain ⟨-, hLife⟩ := Option.ite_none_right_eq_some.mp hNext
    -- neither of these two calls reads a primitive of libsodium
    have hSame : (a.onNode Sodium.additive (.publishProfile profile)).life = a.life :=
      life_onNode Sodium.additive rfl
    exact ⟨h.onNode Sodium.additive (e := .publishProfile profile) rfl,
      (congrArg some hSame).trans hLife⟩
  | bootstrap host port =>
    obtain ⟨-, hLife⟩ := Option.ite_none_right_eq_some.mp hNext
    have hSame : (a.onNode Sodium.additive (.bootstrap host port)).life = a.life :=
      life_onNode Sodium.additive rfl
    exact ⟨h.onNode Sodium.additive (e := .bootstrap host port) rfl,
      (congrArg some hSame).trans hLife⟩
  | setRunning =>
    obtain ⟨hPhase, hLife⟩ := Option.ite_none_right_eq_some.mp hNext
    have hNode : a.node.running = true := (phase_eq_starting.mp hPhase).2
    exact ⟨⟨fun _ => hNode, h.myId, h.whole⟩, hLife⟩

end AppController

namespace System

/-- The controller is steady and its queue leads it to `t`. -/
structure Follows (s : System) (t : Life) : Prop where
  steady : s.app.Steady
  queue : s.app.life.after s.todo = some t

variable (S : Sodium)

theorem launch_node (peerId : Bytes) (port : Nat) (bootstrapHost bootstrapPort : Bytes) :
    (launch peerId port bootstrapHost bootstrapPort).app.node.myId =
        trim isSpace (configuredId peerId) ∧
      (launch peerId port bootstrapHost bootstrapPort).app.node.puts = [] ∧
      (launch peerId port bootstrapHost bootstrapPort).app.node.running = false := by
  simp only [launch, AppController.setBootstrapHost, AppController.configure,
    P2PNode.setBootstrapHost, P2PNode.setNodeConfig, configuredId_ne_nil, if_false]
  split <;> exact ⟨rfl, rfl, rfl⟩

theorem follows_launch (peerId : Bytes) (port : Nat) (bootstrapHost bootstrapPort : Bytes) :
    (launch peerId port bootstrapHost bootstrapPort).Follows ⟨.up, configuredId peerId⟩ := by
  obtain ⟨hMyId, -, hStopped⟩ := launch_node peerId port bootstrapHost bootstrapPort
  have hDht : (launch peerId port bootstrapHost bootstrapPort).app.node.dht = {} := by
    simp only [launch, AppController.setBootstrapHost, P2PNode.setBootstrapHost]
    split <;> rfl
  have hIdle : (launch peerId port bootstrapHost bootstrapPort).app.phase = .idle :=
    AppController.phase_eq_idle.mpr ⟨rfl, hStopped⟩
  refine ⟨⟨?_, hMyId, ?_, ?_, ?_⟩, ?_⟩
  · intro hUp
    cases hUp
  · rw [hDht, hStopped]
  · intro hUp
    rw [hStopped] at hUp
    cases hUp
  · rw [hDht]
    exact fun _ => rfl
  · rw [AppController.life, hIdle]
    rfl

theorem Follows.onNode {s : System} {t : Life} (h : s.Follows t) {e : Event}
    (hKeeps : e.keeps = true) (contacts : List Bytes) :
    ({ s with app := { s.app.onNode S e with contacts := contacts } } : System).Follows t := by
  have hSteady := h.steady.onNode S hKeeps
  refine ⟨⟨hSteady.running, hSteady.myId, hSteady.whole⟩, ?_⟩
  show (s.app.onNode S e).life.after s.todo = some t
  rw [AppController.life_onNode S hKeeps]
  exact h.queue

/-- A stopped node changes in nothing that the phases depend on. -/
theorem Follows.stopped {s : System} {t : Life} (h : s.Follows t)
    (hStopped : s.app.node.running = false) {n : P2PNode} (hRunning : n.running = false)
    (hMyId : n.myId = s.app.node.myId) (hDht : n.dht = s.app.node.dht) :
    ({ s with app := { s.app with node := n } } : System).Follows t := by
  refine ⟨⟨?_, hMyId.trans h.steady.myId, ?_, ?_, ?_⟩, ?_⟩
  · intro hUp
    exact absurd ((h.steady.running hUp).symm.trans hStopped) Bool.noConfusion
  · rw [hDht, hRunning, h.steady.whole.dht, hStopped]
  · intro hUp
    exact absurd (hUp.symm.trans hRunning) Bool.noConfusion
  · intro _
    rw [hDht]
    exact h.steady.whole.down hStopped
  · have hQueue := h.queue
    simp only [AppController.life, AppController.phase, hStopped] at hQueue
    simpa only [AppController.life, AppController.phase, hRunning] using hQueue

theorem Follows.append {s : System} {t t' : Life} (h : s.Follows t) {more : List Task}
    (hMore : t.after more = some t') (shuttingDown : Bool) :
    ({ s with todo := s.todo ++ more, shuttingDown := shuttingDown } : System).Follows t' := by
  refine ⟨h.steady, ?_⟩
  show s.app.life.after (s.todo ++ more) = some t'
  rw [Life.after_append, h.queue]
  exact hMore

/-- The first task of the queue is in its place. -/
theorem Follows.next {s : System} {t : Life} (h : s.Follows t) {task : Task} {rest : List Task}
    (hTodo : s.todo = task :: rest) :
    ∃ l, s.app.life.next task = some l ∧ l.after rest = some t := by
  have hQueue := h.queue
  rw [hTodo, Life.after_cons] at hQueue
  exact Option.bind_eq_some_iff.mp hQueue

theorem Follows.work {s : System} {t : Life} (h : s.Follows t) (io : StartInput) :
    (s.work io).Follows t := by
  cases hTodo : s.todo with
  | nil => simpa [System.work, hTodo] using h
  | cons task rest =>
    obtain ⟨l, hNext, hRest⟩ := h.next hTodo
    obtain ⟨hSteady, hAfter⟩ := AppController.perform_next h.steady hNext io
    rw [work_of_todo hTodo]
    refine ⟨hSteady, ?_⟩
    show (s.app.perform io task).1.life.after ((s.app.perform io task).2 ++ rest) = some t
    rw [Life.after_append, hAfter]
    exact hRest

theorem restarts_work {s : System} (h : Restarts s.todo) (io : StartInput) :
    Restarts (s.work io).todo := by
  cases hTodo : s.todo with
  | nil => simpa [System.work, hTodo] using h
  | cons task rest =>
    rw [hTodo] at h
    rw [work_of_todo hTodo]
    exact (restarts_of_not_mem (configure_not_mem_perform s.app io task)).append h.tail

theorem restarts_step {s : System} (h : Restarts s.todo) (action : Action) :
    Restarts (s.step S action).todo := by
  rcases step_cases S s action with
    ⟨io, rfl⟩ | ⟨newPeerId, rfl⟩ | rfl | ⟨-, hSame | ⟨e, contacts, -, -, -, hStep⟩⟩
  · exact restarts_work h io
  · simp only [step, changePeerId]
    split
    · exact h
    · exact h.append (restarts_changePeerId _ _ _)
  · simp only [step, close]
    split
    · exact h
    · exact h.append trivial
  · rw [hSame]
    exact h
  · rw [hStep]
    exact h

end System

end P2PMessenger
