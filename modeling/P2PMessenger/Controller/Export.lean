import P2PMessenger.Controller.Phases
import P2PMessenger.Node.OwnKeys

/-!
# The exported identity

The window reads the id from the controller and the base64 key from the node, at any time.
A restart writes the two at different steps of the network thread, so here the task
`startNode` is taken apart into loading the keys, caching the base64 key and running the
DHT. The cached key belongs to the exported id except between the `configure` of a restart
and its own caching of the key, where it still belongs to the id before.
-/

namespace P2PMessenger

open Text Crypto Run

namespace AppController

def localPeerId (a : AppController) : Bytes := a.peerId

def localPublicKeyBase64 (a : AppController) : Bytes := a.node.publicKeyB64

/-- The id and the key that `OnExportIdentity` gives to its dialog. -/
def onExportIdentity (a : AppController) : Bytes × Bytes := (a.localPeerId, a.localPublicKeyBase64)

end AppController

/-- How far the network thread is inside `startNode`. -/
inductive StartStage where
  | entered
  | keysLoaded
  | keyCached
  deriving DecidableEq

/-- A `configure`: the id and the exported key before it, and the id it was given. -/
structure Reconfiguration where
  previousId : Bytes := []
  previousKey : Bytes := []
  newPeerId : Bytes

/-- No key was exported before it, or it was given the id of before. -/
def Reconfiguration.Harmless (c : Reconfiguration) : Prop :=
  c.previousKey = [] ∨ trim isSpace c.previousId = trim isSpace (configuredId c.newPeerId)

/-- `cachedFor` and `awaiting` are histories: the id whose key was cached last, and the last
`configure` until a key is cached behind it. -/
structure NetworkWorker where
  system : System
  stage : StartStage := .entered
  cachedFor : Bytes := []
  awaiting : Option Reconfiguration := none

/-- A further call of `AppController::start`, or a step of the system. -/
inductive WorkerAction where
  | start (bootstrapHost bootstrapPort : Bytes)
  | system (action : Action)

namespace NetworkWorker

def launch (peerId : Bytes) (port : Nat) (bootstrapHost bootstrapPort : Bytes) : NetworkWorker :=
  { system := System.launch peerId port bootstrapHost bootstrapPort
    awaiting := some { newPeerId := peerId } }

/-- The worker with another node. -/
def withNode (w : NetworkWorker) (n : P2PNode) : NetworkWorker :=
  { w with system := { w.system with app := { w.system.app with node := n } } }

/-- One step inside the task `startNode`, which ends before `rest`. -/
def startStep (w : NetworkWorker) (rest : List Task) (io : StartInput) : NetworkWorker :=
  let n := w.system.app.node
  if n.running then { w with system := { w.system with todo := rest } }
  else
    match w.stage with
    | .entered => { w.withNode (n.initNodeKeys io) with stage := .keysLoaded }
    | .keysLoaded =>
      { w.withNode n.cachePublicKey with
        stage := .keyCached
        cachedFor := n.keyOwner
        awaiting := none }
    | .keyCached =>
      { w with
        system := { w.system with app := { w.system.app with node := n.runDht }, todo := rest }
        stage := .entered }

/-- What the task `configure` is recorded as. -/
def reconfiguration (w : NetworkWorker) (newPeerId : Bytes) : Reconfiguration where
  previousId := w.system.app.localPeerId
  previousKey := w.system.app.localPublicKeyBase64
  newPeerId := newPeerId

def work (w : NetworkWorker) (io : StartInput) : NetworkWorker :=
  match w.system.todo with
  | .startNode :: rest => w.startStep rest io
  | .configure newPeerId :: _ =>
    { w with system := w.system.work io, awaiting := some (w.reconfiguration newPeerId) }
  | _ => { w with system := w.system.work io }

variable (S : Sodium)

def step (w : NetworkWorker) : WorkerAction → NetworkWorker
  | .start bootstrapHost bootstrapPort =>
    { w with system := { w.system with
        todo := w.system.todo ++ [.start bootstrapHost bootstrapPort] } }
  | .system (.work io) => w.work io
  | .system action => { w with system := w.system.step S action }

/-- Three undisturbed steps carry out the task `startNode` of the system. -/
theorem run_startNode {w : NetworkWorker} {rest : List Task}
    (hTodo : w.system.todo = .startNode :: rest) (hStage : w.stage = .entered)
    (hStopped : w.system.app.node.running = false) (io : StartInput) :
    (run (step S) w (List.replicate 3 (.system (.work io)))).system = w.system.work io := by
  have hFirst : w.step S (.system (.work io)) =
      { w.withNode (w.system.app.node.initNodeKeys io) with stage := .keysLoaded } := by
    simp only [step, work, hTodo, startStep, hStopped, hStage, Bool.false_eq_true, if_false]
  have hCache : (w.system.app.node.initNodeKeys io).running = false := hStopped
  rw [List.replicate_succ, run_cons, hFirst]
  simp [List.replicate, step, work, startStep, withNode, hTodo, hCache, P2PNode.cachePublicKey,
    System.work, AppController.perform, P2PNode.startNode, hStopped]

/-! ## Where the cached key belongs -/

/-- The exported key is empty or belongs to the exported id. -/
def Consistent (w : NetworkWorker) : Prop :=
  w.system.app.onExportIdentity.2 = [] ∨
    w.cachedFor = trim isSpace w.system.app.onExportIdentity.1

instance (w : NetworkWorker) : Decidable w.Consistent := by
  unfold Consistent
  infer_instance

/-- A step of the worker that configures does so harmlessly. -/
def ConfiguresHarmlessly (w : NetworkWorker) : WorkerAction → Prop
  | .system (.work _) => ∀ newPeerId rest, w.system.todo = .configure newPeerId :: rest →
      (w.reconfiguration newPeerId).Harmless
  | _ => True

/-- The id that the cached key belongs to, if there is one: while the own key of the present
id is awaited, it is the one before. -/
def keyId (w : NetworkWorker) : Bytes :=
  match w.awaiting with
  | some c => c.previousId
  | none => w.system.app.peerId

/-- A `configure` awaits its key only in front of a start, and a stage of `startNode` belongs to
the task in front. -/
structure InOrder (w : NetworkWorker) : Prop where
  follows : ∃ l, w.system.Follows l ∧ l.phase ≠ .starting
  restarts : Restarts w.system.todo
  front : w.awaiting ≠ none → w.system.todo.head? = some .startNode ∨
    ∃ host port, w.system.todo.head? = some (.start host port)
  cached : w.system.app.node.running = true → w.awaiting = none
  stage : w.stage = .entered ∨
    w.system.app.node.running = false ∧ w.system.todo.head? = some .startNode
  keysLoaded : w.stage ≠ .entered → w.system.app.node.keyOwner = w.system.app.node.myId
  keyCached : w.stage = .keyCached → w.awaiting = none
  key : w.system.app.node.publicKeyB64 = [] ∨ w.cachedFor = trim isSpace w.keyId
  awaiting : ∀ c, w.awaiting = some c → w.system.app.node.publicKeyB64 = c.previousKey ∧
    w.system.app.peerId = configuredId c.newPeerId

theorem inOrder_launch (peerId : Bytes) (port : Nat) (bootstrapHost bootstrapPort : Bytes) :
    (launch peerId port bootstrapHost bootstrapPort).InOrder := by
  obtain ⟨-, -, hStopped⟩ := System.launch_node peerId port bootstrapHost bootstrapPort
  have hKey : (launch peerId port bootstrapHost bootstrapPort).system.app.node.publicKeyB64 =
      [] := by
    simp only [launch, System.launch, AppController.setBootstrapHost, P2PNode.setBootstrapHost]
    split <;> rfl
  refine ⟨⟨_, System.follows_launch peerId port bootstrapHost bootstrapPort, Phase.noConfusion⟩,
    trivial, fun _ => Or.inr ⟨_, _, rfl⟩, ?_, Or.inl rfl, fun hStage => absurd rfl hStage, ?_,
    Or.inl hKey, ?_⟩
  · intro hRunning
    exact absurd (hRunning.symm.trans hStopped) Bool.noConfusion
  · intro hStage
    cases hStage
  · intro c hAwaiting
    obtain rfl := Option.some.inj hAwaiting
    exact ⟨hKey, rfl⟩

variable (S : Sodium)

/-! ## Steps beside the worker -/

/-- The node takes an event of its own, and the controller may note a contact. -/
theorem InOrder.onNode {w : NetworkWorker} (h : w.InOrder) {e : Event} (hKeeps : e.keeps = true)
    (contacts : List Bytes) :
    ({ w with system := { w.system with app := { w.system.app.onNode S e with
      contacts := contacts } } } : NetworkWorker).InOrder := by
  have hSame : P2PNode.SameSession w.system.app.node (w.system.app.node.step S e) :=
    P2PNode.step_sameSession S hKeeps
  have hKey : (w.system.app.node.step S e).publicKeyB64 = w.system.app.node.publicKeyB64 :=
    P2PNode.publicKeyB64_step S hKeeps
  obtain ⟨l, hFollows, hPhase⟩ := h.follows
  refine ⟨⟨l, hFollows.onNode S hKeeps contacts, hPhase⟩, h.restarts, h.front, ?_, ?_, ?_,
    h.keyCached, ?_, ?_⟩
  · intro hRunning
    exact h.cached (hSame.running.symm.trans hRunning)
  · rcases h.stage with hEntered | ⟨hStopped, hTodo⟩
    · exact Or.inl hEntered
    · exact Or.inr ⟨hSame.running.trans hStopped, hTodo⟩
  · intro hStage
    exact hSame.keyOwner.trans ((h.keysLoaded hStage).trans hSame.myId.symm)
  · show (w.system.app.node.step S e).publicKeyB64 = [] ∨ _
    rw [hKey]
    exact h.key
  · intro c hAwaiting
    obtain ⟨hPrevious, hPeerId⟩ := h.awaiting c hAwaiting
    exact ⟨hKey.trans hPrevious, hPeerId⟩

/-- Work is queued behind the rest. -/
theorem InOrder.enqueue {w : NetworkWorker} (h : w.InOrder) {tasks : List Task}
    (hTasks : ∀ l : Life, l.phase ≠ .starting → ∃ t, l.after tasks = some t ∧ t.phase ≠ .starting)
    (hRestarts : Restarts tasks) (shuttingDown : Bool) :
    ({ w with system := { w.system with
      todo := w.system.todo ++ tasks, shuttingDown := shuttingDown } } :
        NetworkWorker).InOrder := by
  obtain ⟨l, hFollows, hPhase⟩ := h.follows
  obtain ⟨t, hAfter, hSettled⟩ := hTasks l hPhase
  have hHead {task : Task} (hTask : w.system.todo.head? = some task) :
      (w.system.todo ++ tasks).head? = some task := by
    rw [List.head?_append, hTask]
    rfl
  refine ⟨⟨t, hFollows.append hAfter shuttingDown, hSettled⟩, h.restarts.append hRestarts, ?_,
    h.cached, h.stage.imp_right (And.imp_right hHead), h.keysLoaded, h.keyCached, h.key,
    h.awaiting⟩
  intro hAwaiting
  rcases h.front hAwaiting with hStart | ⟨host, port, hStart⟩
  · exact Or.inl (hHead hStart)
  · exact Or.inr ⟨host, port, hHead hStart⟩

/-! ## Steps of the worker -/

theorem InOrder.entered {w : NetworkWorker} (h : w.InOrder) {task : Task} {rest : List Task}
    (hTodo : w.system.todo = task :: rest) (hTask : task ≠ .startNode) : w.stage = .entered := by
  rcases h.stage with hEntered | ⟨-, hStart⟩
  · exact hEntered
  · rw [hTodo] at hStart
    exact absurd (Option.some.inj hStart) hTask

/-- Only a start finds a `configure` that awaits its key. -/
theorem InOrder.answered {w : NetworkWorker} (h : w.InOrder) {task : Task} {rest : List Task}
    (hTodo : w.system.todo = task :: rest) (hTask : task ≠ .startNode)
    (hStart : ∀ host port, task ≠ .start host port) : w.awaiting = none := by
  by_contra hAwaiting
  have hFront := h.front hAwaiting
  rw [hTodo] at hFront
  rcases hFront with hNode | ⟨host, port, hHead⟩
  · exact hTask (Option.some.inj hNode)
  · exact hStart host port (Option.some.inj hHead)

/-- A task is done that leaves the exported id and key as they are. -/
theorem InOrder.perform {w : NetworkWorker} (h : w.InOrder) {task : Task} {rest : List Task}
    (hTodo : w.system.todo = task :: rest) (hTask : task ≠ .startNode) (io : StartInput)
    (hFront : w.awaiting ≠ none → ∃ tasks, (w.system.app.perform io task).2 = .startNode :: tasks)
    (hCached : (w.system.app.perform io task).1.node.running = true → w.awaiting = none)
    (hKey : (w.system.app.perform io task).1.node.publicKeyB64 = w.system.app.node.publicKeyB64)
    (hPeerId : (w.system.app.perform io task).1.peerId = w.system.app.peerId) :
    ({ w with system := w.system.work io } : NetworkWorker).InOrder := by
  have hEntered : w.stage = .entered := h.entered hTodo hTask
  obtain ⟨l, hFollows, hPhase⟩ := h.follows
  have hNext := hFollows.work io
  have hRestarts := System.restarts_work h.restarts io
  rw [System.work_of_todo hTodo] at hNext hRestarts ⊢
  refine ⟨⟨l, hNext, hPhase⟩, hRestarts, ?_, hCached, Or.inl hEntered,
    fun hStage => absurd hEntered hStage, h.keyCached, ?_, ?_⟩
  · intro hAwaiting
    obtain ⟨tasks, hTasks⟩ := hFront hAwaiting
    refine Or.inl ?_
    dsimp only
    rw [hTasks]
    rfl
  · have hNow := h.key
    dsimp only [keyId] at hNow ⊢
    rw [hKey, hPeerId]
    exact hNow
  · intro c hAwaiting
    obtain ⟨hPrevious, hConfigured⟩ := h.awaiting c hAwaiting
    exact ⟨hKey.trans hPrevious, hPeerId.trans hConfigured⟩

theorem InOrder.configure {w : NetworkWorker} (h : w.InOrder) {newPeerId : Bytes}
    {rest : List Task} (hTodo : w.system.todo = .configure newPeerId :: rest) (io : StartInput) :
    ({ w with
      system := w.system.work io
      awaiting := some (w.reconfiguration newPeerId) } : NetworkWorker).InOrder := by
  have hEntered : w.stage = .entered := h.entered hTodo Task.noConfusion
  have hAnswered : w.awaiting = none :=
    h.answered hTodo Task.noConfusion fun _ _ => Task.noConfusion
  obtain ⟨l, hFollows, hPhase⟩ := h.follows
  obtain ⟨l', hNext, -⟩ := hFollows.next hTodo
  have hIdle : w.system.app.phase = .idle := (Option.ite_none_right_eq_some.mp hNext).1
  have hStopped : w.system.app.node.running = false := (AppController.phase_eq_idle.mp hIdle).2
  have hWork := hFollows.work io
  have hRestarts := h.restarts
  rw [System.work_of_todo hTodo] at hWork ⊢
  rw [hTodo] at hRestarts
  obtain ⟨⟨host, port, hHead⟩, hRest⟩ := hRestarts
  refine ⟨⟨l, hWork, hPhase⟩, hRest, fun _ => Or.inr ⟨host, port, hHead⟩, ?_, Or.inl hEntered,
    fun hStage => absurd hEntered hStage, ?_, ?_, ?_⟩
  · intro hUp
    exact absurd (hUp.symm.trans hStopped) Bool.noConfusion
  · intro hStage
    exact absurd (hEntered.symm.trans hStage) StartStage.noConfusion
  · -- the key of the previous id is still cached
    have hKey := h.key
    rw [keyId, hAnswered] at hKey
    exact hKey
  · intro c hAwaiting
    obtain rfl := Option.some.inj hAwaiting
    exact ⟨rfl, rfl⟩

/-- Inside `startNode`: the keys are loaded for the configured id, then one of them is
cached, then the node runs. -/
theorem InOrder.startStep {w : NetworkWorker} (h : w.InOrder) {rest : List Task}
    (hTodo : w.system.todo = .startNode :: rest) (io : StartInput) :
    (w.startStep rest io).InOrder := by
  obtain ⟨l, hFollows, hPhase⟩ := h.follows
  obtain ⟨l', hNext, hRest⟩ := hFollows.next hTodo
  obtain ⟨hIdle, hStarting⟩ := Option.ite_none_right_eq_some.mp hNext
  obtain ⟨hRunning, hStopped⟩ := AppController.phase_eq_idle.mp hIdle
  have hHead : w.system.todo.head? = some .startNode := by
    rw [hTodo]
    rfl
  have hNotRunning {P : Prop} (hUp : w.system.app.node.running = true) : P :=
    absurd (hUp.symm.trans hStopped) Bool.noConfusion
  unfold NetworkWorker.startStep
  simp only [hStopped, Bool.false_eq_true, if_false]
  cases hStage : w.stage with
  | entered =>
    refine ⟨⟨l, hFollows.stopped hStopped hStopped rfl rfl, hPhase⟩, h.restarts, h.front,
      fun hUp => hNotRunning hUp, Or.inr ⟨hStopped, hHead⟩, fun _ => rfl, ?_, h.key, h.awaiting⟩
    intro hCached
    cases hCached
  | keysLoaded =>
    have hLoaded : w.system.app.node.keyOwner = w.system.app.node.myId := by
      refine h.keysLoaded ?_
      rw [hStage]
      exact StartStage.noConfusion
    refine ⟨⟨l, hFollows.stopped hStopped hStopped rfl rfl, hPhase⟩, h.restarts, ?_,
      fun _ => rfl, Or.inr ⟨hStopped, hHead⟩, fun _ => hLoaded, fun _ => rfl,
      Or.inr (hLoaded.trans hFollows.steady.myId), ?_⟩
    · intro hAwaiting
      exact absurd rfl hAwaiting
    · intro c hAwaiting
      cases hAwaiting
  | keyCached =>
    have hLoaded : w.system.app.node.keyOwner = w.system.app.node.myId := by
      refine h.keysLoaded ?_
      rw [hStage]
      exact StartStage.noConfusion
    have hAnswered : w.awaiting = none := h.keyCached hStage
    have hRestarts := h.restarts
    rw [hTodo] at hRestarts
    refine ⟨⟨l, ⟨⟨fun _ => rfl, hFollows.steady.myId, rfl, fun _ => ⟨hLoaded, rfl⟩, ?_⟩, ?_⟩,
      hPhase⟩, hRestarts, ?_, fun _ => hAnswered, Or.inl rfl, ?_, ?_, h.key, h.awaiting⟩
    · intro hDown
      cases hDown
    · rw [← Option.some.inj hStarting] at hRest
      rw [← hRest]
      simp [AppController.life, AppController.phase, P2PNode.runDht, P2PNode.notifyNetworkStatus,
        hRunning]
    · intro hAwaiting
      exact absurd hAnswered hAwaiting
    · intro hStage
      exact absurd rfl hStage
    · intro hStage
      cases hStage

theorem InOrder.work {w : NetworkWorker} (h : w.InOrder) (io : StartInput) :
    (w.work io).InOrder := by
  cases hTodo : w.system.todo with
  | nil => simpa [NetworkWorker.work, System.work, hTodo] using h
  | cons task rest =>
    obtain ⟨l, hFollows, -⟩ := h.follows
    obtain ⟨l', hNext, -⟩ := hFollows.next hTodo
    have hAnswered (hTask : task ≠ .startNode) (hStart : ∀ host port, task ≠ .start host port) :
        w.awaiting = none := h.answered hTodo hTask hStart
    cases task with
    | startNode => simpa [NetworkWorker.work, hTodo] using h.startStep hTodo io
    | configure peerId => simpa [NetworkWorker.work, hTodo] using h.configure hTodo io
    | start bootstrapHost bootstrapPort =>
      have hDone := h.perform hTodo Task.noConfusion io ?_ h.cached rfl rfl
      · simpa [NetworkWorker.work, hTodo] using hDone
      · -- a running controller awaits no key
        intro hAwaiting
        have hStopped : w.system.app.running = false := by
          by_contra hUp
          exact hAwaiting (h.cached (hFollows.steady.running (by simpa using hUp)))
        rw [AppController.perform, if_neg (by simp [hStopped])]
        exact ⟨_, rfl⟩
    | stop =>
      have hNone := hAnswered Task.noConfusion fun _ _ => Task.noConfusion
      obtain ⟨hPhase, -⟩ := Option.ite_none_right_eq_some.mp hNext
      have hDone := h.perform hTodo Task.noConfusion io (fun hSome => absurd hNone hSome)
        (fun _ => hNone) ?_ ?_
      · simpa [NetworkWorker.work, hTodo] using hDone
      · rcases hFollows.steady.stop_eq hPhase with ⟨-, hStop⟩ | hStop
        · exact congrArg (fun a => a.node.publicKeyB64) hStop
        · exact congrArg (fun a => a.node.publicKeyB64) hStop
      · exact congrArg Life.id (hFollows.steady.stop hPhase).2
    | publishProfile profile =>
      have hNone := hAnswered Task.noConfusion fun _ _ => Task.noConfusion
      have hDone := h.perform hTodo Task.noConfusion io (fun hSome => absurd hNone hSome)
        (fun _ => hNone) rfl rfl
      simpa [NetworkWorker.work, hTodo] using hDone
    | bootstrap host port =>
      have hNone := hAnswered Task.noConfusion fun _ _ => Task.noConfusion
      -- dialling reads no primitive of libsodium
      have hKey := P2PNode.publicKeyB64_step Sodium.additive (n := w.system.app.node)
        (e := .bootstrap host port) rfl
      have hDone := h.perform hTodo Task.noConfusion io (fun hSome => absurd hNone hSome)
        (fun _ => hNone) hKey rfl
      simpa [NetworkWorker.work, hTodo] using hDone
    | setRunning =>
      have hNone := hAnswered Task.noConfusion fun _ _ => Task.noConfusion
      have hDone := h.perform hTodo Task.noConfusion io (fun hSome => absurd hNone hSome)
        (fun _ => hNone) rfl rfl
      simpa [NetworkWorker.work, hTodo] using hDone

/-! ## Every run -/

theorem InOrder.system {w : NetworkWorker} (h : w.InOrder) (action : Action) :
    (w.step S (.system action)).InOrder := by
  have hBeside (hQueues : action.queues = false) :
      w.step S (.system action) = { w with system := w.system.step S action } := by
    cases action with
    | work io => cases hQueues
    | _ => rfl
  rcases System.step_cases S w.system action with ⟨io, rfl⟩ | ⟨newPeerId, rfl⟩ | rfl |
    ⟨hQueues, hSame | ⟨e, contacts, hKeeps, -, -, hStep⟩⟩
  · exact h.work io
  · simp only [step, System.step, System.changePeerId]
    split
    · exact h
    · refine h.enqueue ?_ (restarts_changePeerId newPeerId _ _) w.system.shuttingDown
      exact fun l hPhase => ⟨_, Life.after_restart hPhase newPeerId _ _, Phase.noConfusion⟩
  · simp only [step, System.step, System.close]
    split
    · exact h
    · have hNone : Restarts [.stop] := trivial
      refine h.enqueue ?_ hNone true
      exact fun l hPhase => ⟨_, Life.after_stop hPhase, Phase.noConfusion⟩
  · rw [hBeside hQueues, hSame]
    exact h
  · rw [hBeside hQueues, hStep]
    exact h.onNode S hKeeps contacts

theorem InOrder.step {w : NetworkWorker} (h : w.InOrder) (action : WorkerAction) :
    (w.step S action).InOrder := by
  cases action with
  | start bootstrapHost bootstrapPort =>
    have hNone : Restarts [.start bootstrapHost bootstrapPort] := trivial
    refine h.enqueue ?_ hNone w.system.shuttingDown
    exact fun l hPhase => ⟨_, Life.after_start hPhase bootstrapHost bootstrapPort,
      Phase.noConfusion⟩
  | system action => exact h.system S action

theorem InOrder.consistent_iff {w : NetworkWorker} (h : w.InOrder) :
    w.Consistent ↔ ∀ c, w.awaiting = some c → c.Harmless := by
  have hKey := h.key
  unfold Consistent AppController.onExportIdentity AppController.localPeerId
    AppController.localPublicKeyBase64
  unfold keyId at hKey
  cases hAwaiting : w.awaiting with
  | none =>
    rw [hAwaiting] at hKey
    refine iff_of_true hKey ?_
    intro c hSome
    cases hSome
  | some c =>
    obtain ⟨hPrevious, hPeerId⟩ := h.awaiting c hAwaiting
    rw [hAwaiting, hPrevious] at hKey
    simp only [Option.some.injEq, forall_eq', Reconfiguration.Harmless]
    rw [hPrevious, hPeerId]
    by_cases hNone : c.previousKey = []
    · simp [hNone]
    · rw [or_iff_right hNone] at hKey ⊢
      rw [or_iff_right hNone, hKey]

theorem awaiting_startStep (w : NetworkWorker) (rest : List Task) (io : StartInput) :
    (w.startStep rest io).awaiting = w.awaiting ∨ (w.startStep rest io).awaiting = none := by
  simp only [startStep]
  split
  · exact Or.inl rfl
  · cases w.stage with
    | entered => exact Or.inl rfl
    | keysLoaded => exact Or.inr rfl
    | keyCached => exact Or.inl rfl

/-- A step configures, or it leaves the last `configure` awaiting its key or answers it. -/
theorem awaiting_step (w : NetworkWorker) (action : WorkerAction) :
    (∃ io newPeerId rest, action = .system (.work io) ∧
      w.system.todo = .configure newPeerId :: rest ∧
        (w.step S action).awaiting = some (w.reconfiguration newPeerId)) ∨
    (w.ConfiguresHarmlessly action ∧
      ((w.step S action).awaiting = w.awaiting ∨ (w.step S action).awaiting = none)) := by
  cases action with
  | start bootstrapHost bootstrapPort => exact Or.inr ⟨trivial, Or.inl rfl⟩
  | system action =>
    cases action with
    | work io =>
      cases hTodo : w.system.todo with
      | nil =>
        refine Or.inr ⟨?_, ?_⟩
        · intro newPeerId rest hConfigure
          rw [hTodo] at hConfigure
          cases hConfigure
        · simp [step, work, hTodo]
      | cons task rest =>
        by_cases hTask : ∃ newPeerId, task = .configure newPeerId
        · obtain ⟨newPeerId, rfl⟩ := hTask
          exact Or.inl ⟨io, newPeerId, rest, rfl, rfl, by simp [step, work, hTodo]⟩
        · refine Or.inr ⟨?_, ?_⟩
          · intro newPeerId rest' hConfigure
            rw [hTodo] at hConfigure
            exact absurd ⟨newPeerId, (List.cons.inj hConfigure).1⟩ hTask
          · cases task with
            | configure newPeerId => exact absurd ⟨newPeerId, rfl⟩ hTask
            | startNode =>
              simp only [step, work, hTodo]
              exact awaiting_startStep w rest io
            | _ => simp [step, work, hTodo]
    | _ => exact Or.inr ⟨trivial, Or.inl rfl⟩

theorem harmless_step_iff {w : NetworkWorker} (h : ∀ c, w.awaiting = some c → c.Harmless)
    (action : WorkerAction) :
    (∀ c, (w.step S action).awaiting = some c → c.Harmless) ↔ w.ConfiguresHarmlessly action := by
  rcases awaiting_step S w action with
    ⟨io, newPeerId, rest, rfl, hTodo, hNew⟩ | ⟨hHarmless, hSame | hNone⟩
  · rw [hNew]
    constructor
    · intro hNow newPeerId' rest' hTodo'
      obtain ⟨hTask, -⟩ := List.cons.inj (hTodo.symm.trans hTodo')
      obtain rfl := Task.configure.inj hTask
      exact hNow _ rfl
    · intro hStep c hSome
      obtain rfl := Option.some.inj hSome
      exact hStep newPeerId rest hTodo
  · rw [hSame]
    exact iff_of_true h hHarmless
  · rw [hNone]
    refine iff_of_true ?_ hHarmless
    intro c hSome
    cases hSome

/-- At a point of a run the exported key is empty or belongs to the exported id, if and only
if no `configure` awaits its key there, or no key was exported before it, or it was given
the id of before. So a run exports consistently throughout if and only if all its
`configure` steps are of that kind. -/
theorem export_consistent_iff (peerId : Bytes) (port : Nat) (bootstrapHost bootstrapPort : Bytes)
    (actions : List WorkerAction) :
    let start := launch peerId port bootstrapHost bootstrapPort
    ((run (step S) start actions).Consistent ↔
      ∀ c, (run (step S) start actions).awaiting = some c → c.Harmless) ∧
    ((∀ pre, pre <+: actions → (run (step S) start pre).Consistent) ↔
      Along (step S) ConfiguresHarmlessly start actions) := by
  intro start
  have hLaunch : start.InOrder := inOrder_launch peerId port bootstrapHost bootstrapPort
  have hKeeps : ∀ (w : NetworkWorker) action, w.InOrder → (w.step S action).InOrder :=
    fun _ action h => h.step S action
  have hPoint (pre : List WorkerAction) := (run_invariant hKeeps hLaunch pre).consistent_iff
  refine ⟨hPoint actions, ?_⟩
  simp only [hPoint]
  refine forall_prefix_iff_along (I := fun _ => True)
    (Q := fun w : NetworkWorker => ∀ c, w.awaiting = some c → c.Harmless)
    (fun _ _ _ => trivial) (fun w action _ h => harmless_step_iff S h action) trivial ?_ actions
  intro c hSome
  obtain rfl := Option.some.inj hSome
  exact Or.inl rfl

/-- Alice runs and renames herself to Bob; after two steps of the restart Bob's id is
exported with her key. -/
theorem bob_exported_with_key_of_alice :
    ¬ (run (step Sodium.additive)
      (launch (bytes "alice") 4222 (bytes "127.0.0.1") (bytes "0"))
      (List.replicate 6 (.system (.work { generated := .constant 7 })) ++
        .system (.changePeerId (bytes "bob")) ::
          List.replicate 2 (.system (.work { generated := .constant 9 })))).Consistent := by
  decide +kernel

end NetworkWorker

end P2PMessenger
