import P2PMessenger.Controller.Listing
import P2PMessenger.Controller.Shutdown
import P2PMessenger.Program.Messenger
import P2PMessenger.Window.StatusText

/-!
# What the window asked for

The window keeps no id of its own: it hands the answers of its dialog to the controller and
forgets them. The calls it has made, the environment and the flag that it is closing say
together what the network is to be, and once the network thread has had time for its work,
the network is that, with its profile in the DHT.
-/

namespace P2PMessenger

open Text Crypto Run

def ControllerCall.newPeerId : ControllerCall → Option Bytes
  | .changePeerId newPeerId => some newPeerId
  | _ => none

def Action.newPeerId : Action → Option Bytes
  | .changePeerId newPeerId => some newPeerId
  | _ => none

theorem Action.isSome_newPeerId (action : Action) : action.newPeerId.isSome = action.isRename := by
  cases action <;> rfl

theorem ControllerCall.newPeerId_action (op : Nat) (call : ControllerCall) :
    (call.action op).newPeerId = call.newPeerId := by
  cases call <;> rfl

namespace Input

def isWork : Input → Bool
  | .work _ => true
  | _ => false

def isRename : Input → Bool
  | .changePeerId _ _ => true
  | _ => false

def isClose : Input → Bool
  | .close => true
  | _ => false

end Input

namespace Life

/-- Without a close, the last rename is what is asked for. -/
theorem run_ask_up {actions : List Action} (hOpen : ∀ action ∈ actions, action.isClose = false)
    (id : Bytes) :
    run ask ⟨.up, configuredId id⟩ actions =
      ⟨.up, configuredId ((actions.filterMap Action.newPeerId).getLast?.getD id)⟩ := by
  induction actions generalizing id with
  | nil => rfl
  | cons action actions ih =>
    have hRest := ih fun a hMem => hOpen a (List.mem_cons_of_mem action hMem)
    have hHead := hOpen action List.mem_cons_self
    rw [run_cons]
    cases action with
    | changePeerId newPeerId =>
      rw [show ask ⟨.up, configuredId id⟩ (.changePeerId newPeerId) =
        ⟨.up, configuredId newPeerId⟩ from rfl, hRest newPeerId]
      simp [Action.newPeerId, List.getLast?_cons]
    | close => cases hHead
    | _ => exact hRest id

/-- Once nothing is wanted, nothing is asked for. -/
theorem run_ask_idle {actions : List Action} (hOpen : ∀ action ∈ actions, action.isClose = false)
    {l : Life} (hIdle : l.phase = .idle) : run ask l actions = l := by
  induction actions with
  | nil => rfl
  | cons action actions ih =>
    have hSame : l.ask action = l := by
      have hHead := hOpen action List.mem_cons_self
      cases action with
      | changePeerId newPeerId => simp [ask, hIdle]
      | close => cases hHead
      | _ => rfl
    rw [run_cons, hSame]
    exact ih fun a hMem => hOpen a (List.mem_cons_of_mem action hMem)

end Life

namespace System

variable (S : Sodium)

theorem port_work (s : System) (io : StartInput) : (s.work io).app.port = s.app.port := by
  unfold work
  split
  · rfl
  · rename_i task rest hTodo
    cases task with
    | stop =>
      simp only [AppController.perform, AppController.stop]
      split <;> rfl
    | _ => rfl

theorem port_step (s : System) (action : Action) : (s.step S action).app.port = s.app.port := by
  rcases step_cases S s action with ⟨io, rfl⟩ | ⟨newPeerId, rfl⟩ | rfl |
    ⟨-, hSame | ⟨e, contacts, -, -, -, hStep⟩⟩
  · exact s.port_work io
  · simp only [step, changePeerId]
    split <;> rfl
  · simp only [step, close]
    split <;> rfl
  · rw [hSame]
  · rw [hStep]
    rfl

theorem port_run (s : System) (actions : List Action) :
    (run (step S) s actions).app.port = s.app.port :=
  run_invariant (I := fun t : System => t.app.port = s.app.port)
    (fun t action h => (port_step S t action).trans h) rfl actions

end System

namespace Messenger

variable (sameItem : WxString → WxString → Bool) (S : Sodium)

/-! ## The actions of an input -/

theorem calls_nextWindow (m : Messenger) (now : WxString) (input : Input) :
    (m.nextWindow sameItem now input).calls =
      m.window.calls ++ m.handlerCalls sameItem now input := by
  have hPrefix : m.window.calls <+: (m.nextWindow sameItem now input).calls := by
    cases hEvent : m.windowEvent input with
    | none =>
      cases input with
      | connect hostInput portInput => exact List.prefix_refl _
      | close =>
        simp only [nextWindow, MainWindow.onClose]
        split <;> exact List.prefix_refl _
      | _ =>
        simp only [nextWindow, hEvent]
        exact List.prefix_refl _
    | some event =>
      rw [window_of_windowEvent sameItem hEvent, MainWindow.step_calls]
      exact List.prefix_append _ _
  obtain ⟨more, hMore⟩ := hPrefix
  rw [handlerCalls, ← hMore, List.drop_left]

/-- The ids that the handlers of an input give to the controller are the renames among its
actions. -/
theorem renames_actions (m : Messenger) (now : WxString) (input : Input) :
    (m.actions sameItem now input).filterMap Action.newPeerId =
      (m.handlerCalls sameItem now input).filterMap ControllerCall.newPeerId := by
  have hMapped (op : Nat) (calls : List ControllerCall) :
      (calls.map (ControllerCall.action op)).filterMap Action.newPeerId =
        calls.filterMap ControllerCall.newPeerId := by
    rw [List.filterMap_map]
    exact congrArg (calls.filterMap ·) (funext (ControllerCall.newPeerId_action op))
  have hSilent {event : WindowEvent} (hEvent : m.windowEvent input = some event)
      (hNone : m.window.newCalls (now, event) = []) : m.handlerCalls sameItem now input = [] :=
    (handlerCalls_eq sameItem m input hEvent now).trans hNone
  have hKept (hSame : (m.nextWindow sameItem now input).calls = m.window.calls) :
      m.handlerCalls sameItem now input = [] := by
    rw [handlerCalls, hSame, List.drop_length]
  cases input with
  | send op => exact hMapped op _
  | addContact op => exact hMapped op _
  | changePeerId localPeerId answer => exact hMapped 0 _
  | type addContactInput peerIdInput messageInput => rw [hSilent rfl rfl]; rfl
  | selectContact selection => rw [hSilent rfl rfl]; rfl
  | nextEvent =>
    cases hEvent : m.pendingEvent with
    | none => rw [hKept (by simp [nextWindow, windowEvent, hEvent])]; rfl
    | some event =>
      rw [hSilent (by rw [windowEvent, hEvent]; rfl) rfl]
      rfl
  | connect hostInput portInput =>
    rw [hKept rfl]
    simp only [actions]
    split <;> rfl
  | close =>
    rw [hKept (by simp only [nextWindow, MainWindow.onClose]; split <;> rfl)]
    rfl
  | _ => rw [hKept rfl]; rfl

theorem isClose_of_mem_actions {m : Messenger} {now : WxString} {input : Input} {action : Action}
    (hMem : action ∈ m.actions sameItem now input) (hClose : action.isClose = true) :
    input = .close := by
  have hCall (op : Nat) (calls : List ControllerCall)
      (hMem : action ∈ calls.map (ControllerCall.action op)) : False := by
    obtain ⟨call, -, rfl⟩ := List.mem_map.mp hMem
    cases call <;> cases hClose
  cases input with
  | close => rfl
  | send op => exact (hCall op _ hMem).elim
  | addContact op => exact (hCall op _ hMem).elim
  | changePeerId localPeerId answer => exact (hCall 0 _ hMem).elim
  | connect hostInput portInput =>
    simp only [actions] at hMem
    split at hMem
    · cases hMem
    · rw [List.mem_singleton.mp hMem] at hClose
      cases hClose
  | type addContactInput peerIdInput messageInput => cases hMem
  | selectContact selection => cases hMem
  | nextEvent => cases hMem
  | _ =>
    rw [List.mem_singleton.mp hMem] at hClose
    cases hClose

/-! ## The record of the window -/

/-- The ids that the dialog has handed to the controller. -/
def renames (m : Messenger) : List Bytes := m.window.calls.filterMap ControllerCall.newPeerId

/-- What the window has asked for in a messenger that was launched as `peerId`. -/
def wanted (m : Messenger) (peerId : Bytes) : Life :=
  ⟨if m.window.shuttingDown then .idle else .up, configuredId (m.renames.getLast?.getD peerId)⟩

theorem renames_step (m : Messenger) (e : WxString × Input) :
    (m.step sameItem S e).renames =
      m.renames ++ (m.actions sameItem e.1 e.2).filterMap Action.newPeerId := by
  rw [renames_actions]
  show (m.nextWindow sameItem e.1 e.2).calls.filterMap ControllerCall.newPeerId = _
  rw [calls_nextWindow, List.filterMap_append]
  rfl

theorem shuttingDown_nextWindow (m : Messenger) (now : WxString) (input : Input) :
    (m.nextWindow sameItem now input).shuttingDown =
      if input.isClose then true else m.window.shuttingDown := by
  cases hEvent : m.windowEvent input with
  | some event =>
    have hFrame := congrArg Prod.fst (MainWindow.frame_step sameItem m.window (now, event))
    have hKept : (m.window.newFrame event).1 = m.window.shuttingDown := by
      unfold MainWindow.newFrame
      split <;> rfl
    rw [window_of_windowEvent sameItem hEvent]
    refine (hFrame.trans hKept).trans ?_
    cases input with
    | close => cases hEvent
    | _ => rfl
  | none =>
    cases input with
    | connect hostInput portInput => rfl
    | close =>
      simp only [nextWindow, MainWindow.onClose, Input.isClose]
      split
      · assumption
      · rfl
    | _ =>
      simp only [nextWindow, hEvent]
      rfl

/-- Nothing but the answer of a dialog in an open window asks for another id. -/
theorem renames_of_calm {m : Messenger} {input : Input}
    (hCalm : m.window.shuttingDown = true ∨ input.isRename = false) (now : WxString) :
    (m.actions sameItem now input).filterMap Action.newPeerId = [] := by
  have hCalls {event : WindowEvent} (hEvent : m.windowEvent input = some event) :
      m.handlerCalls sameItem now input = m.window.newCalls (now, event) :=
    handlerCalls_eq sameItem m input hEvent now
  cases input with
  | send op =>
    rw [renames_actions, hCalls rfl]
    simp only [MainWindow.newCalls]
    split <;> rfl
  | addContact op =>
    rw [renames_actions, hCalls rfl]
    simp only [MainWindow.newCalls]
    split <;> rfl
  | changePeerId localPeerId answer =>
    have hShut : m.window.shuttingDown = true := hCalm.resolve_right Bool.noConfusion
    rw [renames_actions, hCalls rfl]
    cases answer with
    | none => rfl
    | some value =>
      simp only [MainWindow.newCalls]
      rw [if_pos (Or.inl hShut)]
      rfl
  | connect hostInput portInput =>
    simp only [actions]
    split <;> rfl
  | _ => rfl

/-- What is wanted follows the actions as they reach the controller. -/
theorem wanted_step (peerId : Bytes) (m : Messenger) (e : WxString × Input) :
    (m.step sameItem S e).wanted peerId =
      run Life.ask (m.wanted peerId) (m.actions sameItem e.1 e.2) := by
  have hRenames := renames_step sameItem S m e
  have hFlag : (m.step sameItem S e).window.shuttingDown =
      if e.2.isClose then true else m.window.shuttingDown :=
    shuttingDown_nextWindow sameItem m e.1 e.2
  rw [wanted, hRenames, hFlag]
  by_cases hClose : e.2 = .close
  · rw [hClose]
    simp [actions, Life.ask, wanted, Input.isClose, Action.newPeerId]
  · have hOpen : ∀ action ∈ m.actions sameItem e.1 e.2, action.isClose = false := by
      intro action hMem
      by_contra hAction
      exact hClose (isClose_of_mem_actions sameItem hMem (Bool.eq_true_of_not_eq_false hAction))
    have hNotClose : e.2.isClose = false := by
      cases hInput : e.2 with
      | close => exact absurd hInput hClose
      | _ => rfl
    rw [hNotClose, if_neg Bool.false_ne_true]
    cases hShut : m.window.shuttingDown with
    | true =>
      rw [renames_of_calm sameItem (Or.inl hShut), List.append_nil,
        Life.run_ask_idle hOpen (by simp [wanted, hShut])]
      simp [wanted, hShut]
    | false =>
      have hWanted : m.wanted peerId = ⟨.up, configuredId (m.renames.getLast?.getD peerId)⟩ := by
        simp [wanted, hShut]
      rw [hWanted, Life.run_ask_up hOpen, List.getLast?_append, Option.getD_or]
      rfl

/-! ## Whole runs -/

/-- What a run of the program does to its controller. -/
def systemActions (m : Messenger) (es : List (WxString × Input)) : List Action :=
  added (step sameItem S) (fun m e => m.actions sameItem e.1 e.2) m es

theorem wanted_run (peerId : Bytes) (m : Messenger) (es : List (WxString × Input)) :
    (run (step sameItem S) m es).wanted peerId =
      run Life.ask (m.wanted peerId) (m.systemActions sameItem S es) :=
  run_part (f := fun m : Messenger => m.wanted peerId) (wanted_step sameItem S peerId) m es

theorem system_run (m : Messenger) (es : List (WxString × Input)) :
    (run (step sameItem S) m es).system =
      run (System.step S) m.system (m.systemActions sameItem S es) :=
  run_part (f := Messenger.system) (fun _ _ => rfl) m es

/-- The renames that the controller was asked for are those of the record. -/
theorem renames_run (m : Messenger) (es : List (WxString × Input)) :
    (run (step sameItem S) m es).renames =
      m.renames ++ (m.systemActions sameItem S es).filterMap Action.newPeerId := by
  rw [history_run (f := renames) (renames_step sameItem S)]
  exact congrArg _ (added_filterMap (fun _ _ => rfl) m es)

theorem countP_isRename (actions : List Action) :
    actions.countP Action.isRename = (actions.filterMap Action.newPeerId).length := by
  rw [List.length_filterMap_eq_countP]
  exact List.countP_congr fun action _ => by rw [Action.isSome_newPeerId]

/-- Every turn of the network thread is a step of the system. -/
theorem countP_isWork_le (m : Messenger) (es : List (WxString × Input)) :
    (es.countP fun e => e.2.isWork) ≤
      (m.systemActions sameItem S es).countP Action.isWork := by
  induction es generalizing m with
  | nil => exact Nat.le_refl 0
  | cons e es ih =>
    have hRest := ih (m.step sameItem S e)
    have hHead : (if e.2.isWork then 1 else 0) ≤
        (m.actions sameItem e.1 e.2).countP Action.isWork := by
      cases hInput : e.2 with
      | work io => exact Nat.le_refl 1
      | _ => exact Nat.zero_le _
    rw [systemActions, added, List.countP_append, List.countP_cons]
    unfold systemActions at hRest
    omega

/-- While nobody asks for another id or closes the window, the controller is asked for
neither. -/
theorem calm_systemActions {es : List (WxString × Input)}
    (hCalm : ∀ e ∈ es, e.2.isRename = false ∧ e.2.isClose = false) (m : Messenger) :
    ∀ action ∈ m.systemActions sameItem S es,
      action.isRename = false ∧ action.isClose = false := by
  intro action hMem
  obtain ⟨pre, e, post, rfl, hAction⟩ := mem_added hMem
  obtain ⟨hRename, hClose⟩ := hCalm e (List.mem_append_right pre List.mem_cons_self)
  constructor
  · have hNone := List.filterMap_eq_nil_iff.mp (renames_of_calm sameItem (Or.inr hRename) e.1)
      action hAction
    rw [← Action.isSome_newPeerId, hNone]
    rfl
  · by_contra hAsked
    have hInput := isClose_of_mem_actions sameItem hAction (Bool.eq_true_of_not_eq_false hAsked)
    rw [hInput] at hClose
    cases hClose

/-! ## From the environment to the network -/

/-- The id that the environment gives to the messenger. -/
def envPeerId (getenv : Bytes → Option Bytes) : Bytes :=
  envOrDefault getenv (bytes "P2P_PEER_ID") (bytes "user1")

/-- With time for the work so far, the network is where the record of the window wants it. -/
theorem does_recorded (getenv : Bytes → Option Bytes) {es more : List (WxString × Input)}
    (hCalm : ∀ e ∈ more, e.2.isRename = false ∧ e.2.isClose = false)
    (hWork : 7 + 8 * (run (step sameItem S) (onInit getenv) es).renames.length ≤
      more.countP fun e => e.2.isWork)
    {m : Messenger} (hRun : m = run (step sameItem S) (onInit getenv) (es ++ more)) :
    m.system.Does (m.wanted (envPeerId getenv)) := by
  let before := run (step sameItem S) (onInit getenv) es
  have hSplit : (onInit getenv).systemActions sameItem S (es ++ more) =
      (onInit getenv).systemActions sameItem S es ++ before.systemActions sameItem S more :=
    added_append _ _ _ es more
  have hRenames : before.renames.length =
      ((onInit getenv).systemActions sameItem S es).countP Action.isRename := by
    rw [renames_run, countP_isRename]
    rfl
  have hEnough : 7 + 8 * ((onInit getenv).systemActions sameItem S es).countP Action.isRename ≤
      (before.systemActions sameItem S more).countP Action.isWork := by
    rw [← hRenames]
    exact hWork.trans (countP_isWork_le sameItem S before more)
  have hCalmActions := calm_systemActions sameItem S hCalm before
  have hDone : m.system.todo = [] := by
    rw [hRun, system_run, hSplit]
    exact System.todo_run_calm S _ _ _ _
      ((along_of_forall_mem hCalmActions _).mono fun _ _ hAction => Or.inr hAction) hEnough
  rw [hRun, system_run] at hDone
  rw [hRun, system_run, wanted_run]
  exact System.does_asked S _ _ _ _ _ hDone

/-- The port is that of the environment, or the default where that is none. -/
theorem port_recorded (getenv : Bytes → Option Bytes) (es : List (WxString × Input)) :
    (run (step sameItem S) (onInit getenv) es).system.app.port =
      parsePort (envOrDefault getenv (bytes "P2P_PORT") (bytes "4222")) 4222 := by
  rw [system_run, System.port_run]
  rfl

/-- The environment of Alice on port 8080. -/
def aliceEnv : Bytes → Option Bytes := fun name =>
  if name = bytes "P2P_PEER_ID" then some (bytes "alice")
  else if name = bytes "P2P_PORT" then some (bytes "8080")
  else none

/-- The start as Alice is under way when the dialog is answered with Bob. -/
def renamedAmidStart : List (WxString × Input) :=
  [([], .work { generated := .constant 7 }),
    ([], .changePeerId (bytes "alice") (some (wxT "bob")))] ++
    List.replicate 15 ([], .work { generated := .constant 40 })

end Messenger

end P2PMessenger
