import P2PMessenger.Controller.App
import P2PMessenger.Run.Trace

/-!
# The controller under its threads

`MainWindow` constructs the controller, starts it on the network thread, and from then on
the window, the network thread, the worker of the node and the DHT take steps in any order.
The window waits for the network thread before it gives it new work, so its work is one
queue. The steps inside `AppController::start` are steps of their own: the worker runs from
the moment `startNode` returns.
-/

namespace P2PMessenger

open Text Crypto Run

/-- Work of the network thread. -/
inductive Task where
  | stop
  | configure (peerId : Bytes)
  | start (bootstrapHost bootstrapPort : Bytes)
  | startNode
  | publishProfile (profile : UserProfile)
  | bootstrap (host port : Bytes)
  | setRunning
  deriving DecidableEq

namespace AppController

/-- The work inside `start`. The profile is made of members that only this thread writes. -/
def startTasks (a : AppController) (bootstrapHost bootstrapPort : Bytes) : List Task :=
  .startNode :: .publishProfile a.ownProfile ::
    ((if Dials bootstrapPort then
        [.bootstrap bootstrapHost bootstrapPort, .publishProfile a.ownProfile]
      else []) ++ [.setRunning])

/-- One piece of work, and the work it unfolds to. -/
def perform (a : AppController) (io : StartInput) : Task → AppController × List Task
  | .stop => (a.stop, [])
  | .configure peerId => (a.configure peerId a.port, [])
  | .start bootstrapHost bootstrapPort =>
    (a, if a.running then [] else a.startTasks bootstrapHost bootstrapPort)
  | .startNode => ({ a with node := a.node.startNode io }, [])
  | .publishProfile profile => ({ a with node := a.node.publishProfile profile }, [])
  | .bootstrap host port => (a.bootstrap host port, [])
  | .setRunning => ({ a with running := true }, [])

/-- The controller after an event of its node alone. -/
def onNode (S : Sodium) (a : AppController) (e : Event) : AppController :=
  { a with node := a.node.step S e }

end AppController

structure System where
  app : AppController := {}
  bootstrapPort : Bytes := []
  todo : List Task := []
  shuttingDown : Bool := false

/-- A step of the network thread, a call from the window, the refresh of the worker, or a
callback of the DHT. -/
inductive Action where
  | work (io : StartInput)
  | changePeerId (newPeerId : Bytes)
  | close
  | sendMessage (op : Nat) (toPeerId text : Bytes)
  | addContact (op : Nat) (peerId : Bytes)
  | bootstrap (host port : Bytes)
  | refreshProfile
  | profilePut (profile : UserProfile) (success : Bool)
  | inbox (values : List (Nat × Bytes)) (expired : Bool)
  | lookup (op : Nat) (values : List Bytes) (io : CallbackInput)

/-- The steps that read or write the queue. -/
def Action.queues : Action → Bool
  | .work _ | .changePeerId _ | .close => true
  | _ => false

namespace System

/-- The system after the constructor of the window. -/
def launch (peerId : Bytes) (port : Nat) (bootstrapHost bootstrapPort : Bytes) : System :=
  let app := (({} : AppController).configure peerId port).setBootstrapHost bootstrapHost
  { app := app, bootstrapPort := bootstrapPort,
    todo := [.start app.node.bootstrapHost bootstrapPort] }

def work (s : System) (io : StartInput) : System :=
  match s.todo with
  | [] => s
  | task :: rest =>
    { s with app := (s.app.perform io task).1, todo := (s.app.perform io task).2 ++ rest }

def changePeerId (s : System) (newPeerId : Bytes) : System :=
  if s.shuttingDown then s
  else { s with todo := s.todo ++
    [.stop, .configure newPeerId, .start s.app.node.bootstrapHost s.bootstrapPort] }

def close (s : System) : System :=
  if s.shuttingDown then s else { s with shuttingDown := true, todo := s.todo ++ [.stop] }

variable (S : Sodium)

def step (s : System) : Action → System
  | .work io => s.work io
  | .changePeerId newPeerId => s.changePeerId newPeerId
  | .close => s.close
  | .sendMessage op toPeerId text => { s with app := s.app.sendMessage op toPeerId text }
  | .addContact op peerId => { s with app := s.app.addContact op peerId }
  | .bootstrap host port => { s with app := s.app.bootstrap host port }
  | .refreshProfile => { s with app := s.app.onNode S .refreshProfile }
  | .profilePut profile success => { s with app := s.app.onNode S (.profilePut profile success) }
  | .inbox values expired => { s with app := s.app.onNode S (.inbox values expired) }
  | .lookup op values io => { s with app := s.app.onNode S (.lookup op values io) }

theorem work_of_todo {s : System} {task : Task} {rest : List Task} (hTodo : s.todo = task :: rest)
    (io : StartInput) :
    s.work io =
      { s with app := (s.app.perform io task).1, todo := (s.app.perform io task).2 ++ rest } := by
  simp [work, hTodo]

/-- The network thread works, the window queues work, or the node takes an event of its own. -/
theorem step_cases (s : System) (action : Action) :
    (∃ io, action = .work io) ∨ (∃ newPeerId, action = .changePeerId newPeerId) ∨
      action = .close ∨
      (action.queues = false ∧ (s.step S action = s ∨
        ∃ (e : Event) (contacts : List Bytes), e.keeps = true ∧
          (∀ profile, e ≠ .publishProfile profile) ∧
          (e = .refreshProfile → action = .refreshProfile) ∧
          s.step S action =
            { s with app := { s.app.onNode S e with contacts := contacts } })) := by
  cases action with
  | work io => exact Or.inl ⟨io, rfl⟩
  | changePeerId newPeerId => exact Or.inr (Or.inl ⟨newPeerId, rfl⟩)
  | close => exact Or.inr (Or.inr (Or.inl rfl))
  | sendMessage op toPeerId text =>
    refine Or.inr (Or.inr (Or.inr ⟨rfl, ?_⟩))
    by_cases hNone : trim isSpace toPeerId = []
    · exact Or.inl (by simp [step, AppController.sendMessage, hNone])
    · refine Or.inr ⟨.sendMessage op (trim isSpace toPeerId) text, s.app.contacts, rfl,
        fun _ => Event.noConfusion, Event.noConfusion, ?_⟩
      simp [step, AppController.sendMessage, hNone, AppController.onNode, P2PNode.step]
  | addContact op peerId =>
    refine Or.inr (Or.inr (Or.inr ⟨rfl, ?_⟩))
    by_cases hNone : peerId = []
    · exact Or.inl (by simp [step, AppController.addContact, hNone])
    · refine Or.inr ⟨.findPeer op peerId, (s.app.recordContact peerId).contacts, rfl,
        fun _ => Event.noConfusion, Event.noConfusion, ?_⟩
      simp only [step, AppController.addContact, hNone, AppController.recordContact,
        AppController.onNode, P2PNode.step, if_false]
      split <;> rfl
  | refreshProfile =>
    exact Or.inr (Or.inr (Or.inr ⟨rfl, Or.inr ⟨.refreshProfile, s.app.contacts, rfl,
      fun _ => Event.noConfusion, fun _ => rfl, rfl⟩⟩))
  | bootstrap host port =>
    exact Or.inr (Or.inr (Or.inr ⟨rfl, Or.inr ⟨.bootstrap host port, s.app.contacts, rfl,
      fun _ => Event.noConfusion, Event.noConfusion, rfl⟩⟩))
  | profilePut profile success =>
    exact Or.inr (Or.inr (Or.inr ⟨rfl, Or.inr ⟨.profilePut profile success, s.app.contacts, rfl,
      fun _ => Event.noConfusion, Event.noConfusion, rfl⟩⟩))
  | inbox values expired =>
    exact Or.inr (Or.inr (Or.inr ⟨rfl, Or.inr ⟨.inbox values expired, s.app.contacts, rfl,
      fun _ => Event.noConfusion, Event.noConfusion, rfl⟩⟩))
  | lookup op values io =>
    exact Or.inr (Or.inr (Or.inr ⟨rfl, Or.inr ⟨.lookup op values io, s.app.contacts, rfl,
      fun _ => Event.noConfusion, Event.noConfusion, rfl⟩⟩))

/-! ## The queue carries out the methods -/

/-- Six steps of the network thread, undisturbed, carry out `AppController::start`. -/
theorem run_start {s : System} {bootstrapHost bootstrapPort : Bytes}
    (h : s.todo = [.start bootstrapHost bootstrapPort]) (io : StartInput) :
    run (step S) s (List.replicate 6 (.work io)) =
      { s with app := s.app.start bootstrapHost bootstrapPort io, todo := [] } := by
  obtain ⟨app, port, todo, shuttingDown⟩ := s
  obtain rfl : todo = [.start bootstrapHost bootstrapPort] := h
  cases hRunning : app.running with
  | true => simp [List.replicate, step, work, AppController.perform, AppController.start, hRunning]
  | false =>
    by_cases hDials : AppController.Dials bootstrapPort
    · simp [List.replicate, step, work, AppController.perform, AppController.start, hRunning,
        AppController.startTasks, hDials, AppController.ownProfile, AppController.bootstrap]
    · simp [List.replicate, step, work, AppController.perform, AppController.start, hRunning,
        AppController.startTasks, hDials, AppController.ownProfile]

/-- Eight steps carry out `AppController::changePeerId`. -/
theorem run_changePeerId {s : System} {newPeerId bootstrapHost bootstrapPort : Bytes}
    (h : s.todo = [.stop, .configure newPeerId, .start bootstrapHost bootstrapPort])
    (io : StartInput) :
    run (step S) s (List.replicate 8 (.work io)) =
      { s with app := s.app.changePeerId newPeerId bootstrapHost bootstrapPort io, todo := [] } := by
  have hSplit : List.replicate 8 (Action.work io) =
      [.work io, .work io] ++ List.replicate 6 (.work io) := rfl
  have hTwo : run (step S) s [.work io, .work io] =
      { s with
        app := s.app.stop.configure newPeerId s.app.stop.port
        todo := [.start bootstrapHost bootstrapPort] } := by
    simp [step, work, h, AppController.perform]
  rw [hSplit, run_append, hTwo, run_start S rfl]
  rfl

end System

end P2PMessenger
