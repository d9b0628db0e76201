import P2PMessenger.Controller.System
import P2PMessenger.Run.Simulation

/-!
# The node inside the system

Every action of the system is at most one event of its node, so what the theorems about runs
of a node say holds of the node of a running messenger.
-/

namespace P2PMessenger

open Text Crypto Run

/-- The event of the node in a piece of work. -/
def AppController.taskEvent (a : AppController) (io : StartInput) : Task → Option Event
  | .stop => if a.running then some .stopNode else none
  | .configure peerId => some (.setNodeConfig a.port (configuredId peerId))
  | .start _ _ => none
  | .startNode => some (.startNode io)
  | .publishProfile profile => some (.publishProfile profile)
  | .bootstrap host port => some (.bootstrap host port)
  | .setRunning => none

namespace System

/-- The event of the node in an action. -/
def nodeEvent (s : System) : Action → Option Event
  | .work io => s.todo.head?.bind (s.app.taskEvent io)
  | .changePeerId _ => none
  | .close => none
  | .sendMessage op toPeerId text =>
    if trim isSpace toPeerId = [] then none
    else some (.sendMessage op (trim isSpace toPeerId) text)
  | .addContact op peerId => if peerId = [] then none else some (.findPeer op peerId)
  | .bootstrap host port => some (.bootstrap host port)
  | .refreshProfile => some .refreshProfile
  | .profilePut profile success => some (.profilePut profile success)
  | .inbox values expired => some (.inbox values expired)
  | .lookup op values io => some (.lookup op values io)

variable (S : Sodium)

theorem perform_node (a : AppController) (io : StartInput) (task : Task) :
    (a.perform io task).1.node = run (P2PNode.step S) a.node (a.taskEvent io task).toList := by
  cases task with
  | stop =>
    simp only [AppController.perform, AppController.stop, AppController.taskEvent]
    cases a.running <;> rfl
  | _ => rfl

theorem step_node (s : System) (action : Action) :
    (s.step S action).app.node = run (P2PNode.step S) s.app.node (s.nodeEvent action).toList := by
  cases action with
  | work io =>
    simp only [step, work, nodeEvent]
    cases s.todo with
    | nil => rfl
    | cons task rest => exact perform_node S s.app io task
  | changePeerId newPeerId =>
    simp only [step, changePeerId, nodeEvent]
    split <;> rfl
  | close =>
    simp only [step, close, nodeEvent]
    split <;> rfl
  | sendMessage op toPeerId text =>
    simp only [step, AppController.sendMessage, nodeEvent]
    split <;> rfl
  | addContact op peerId =>
    simp only [step, AppController.addContact, nodeEvent]
    split
    · rfl
    · unfold AppController.recordContact
      split <;> rfl
  | _ => rfl

/-- The events of the node in a run of the system. -/
def nodeEvents (s : System) (actions : List Action) : List Event :=
  added (step S) (fun s action => (s.nodeEvent action).toList) s actions

theorem run_node (s : System) (actions : List Action) :
    (run (step S) s actions).app.node =
      run (P2PNode.step S) s.app.node (s.nodeEvents S actions) :=
  run_part (f := fun s : System => s.app.node) (step_node S) s actions

end System

end P2PMessenger
