import P2PMessenger.Controller.NodeRun
import P2PMessenger.Controller.Rejoin
import P2PMessenger.Node.Notices
import P2PMessenger.Window.Attribution

/-!
# The program

`main.cpp` reads the environment and constructs the window. From then on the user, the event
loop, the network thread, the worker and the DHT take steps in any order: a handler of the
window runs to its end and calls the controller on the way, and the event loop hands the
events that the node has queued to the window, one at a time and in order.
-/

namespace P2PMessenger

open Text Crypto Run

/-! ## The environment -/

/-- `EnvOrDefault`, with `std::getenv` as a map. -/
def envOrDefault (getenv : Bytes → Option Bytes) (name fallback : Bytes) : Bytes :=
  match getenv name with
  | none => fallback
  | some value => if value ≠ [] then value else fallback

/-- `std::stoi`; `none` where it throws. -/
def stoi (text : Bytes) : Option Int :=
  match stoll text with
  | none => none
  | some value => if -2 ^ 31 ≤ value ∧ value < 2 ^ 31 then some value else none

def parsePort (text : Bytes) (fallback : Nat) : Nat :=
  match stoi text with
  | none => fallback
  | some port => if 0 < port ∧ port ≤ 65535 then port.toNat else fallback

theorem parsePort_range (text : Bytes) {fallback : Nat} (h : 0 < fallback ∧ fallback ≤ 65535) :
    0 < parsePort text fallback ∧ parsePort text fallback ≤ 65535 := by
  unfold parsePort
  split
  · exact h
  · split
    · omega
    · exact h

/-- A port that was printed is read back. -/
theorem parsePort_decimal {port : Nat} (h : 0 < port ∧ port ≤ 65535) (fallback : Nat) :
    parsePort (decimal port) fallback = port := by
  have hRange : InInt64 port := by
    constructor <;> omega
  have hStoi : stoi (decimal port) = some (port : Int) := by
    rw [stoi, stoll_decimal hRange]
    exact if_pos (by omega)
  rw [parsePort, hStoi]
  exact (if_pos (by omega)).trans (Int.toNat_natCast port)

/-! ## The window -/

inductive BoxIcon where
  | warning
  | error
  deriving DecidableEq

/-- A call of `wxMessageBox`. -/
structure MessageBox where
  message : WxString
  caption : WxString
  icon : BoxIcon
  deriving DecidableEq

/-- The box that `ShowError` opens. -/
def errorBox (code message : WxString) : Option MessageBox :=
  if code = WxString.fromUTF8 P2PErrorCode.decryptionFailed ∨
      code = WxString.fromUTF8 P2PErrorCode.networkUnavailable then
    some ⟨message, wxT "P2P Error", .error⟩
  else if code = WxString.fromUTF8 P2PErrorCode.peerNotFound ∨
      code = WxString.fromUTF8 P2PErrorCode.deliveryFailed then
    some ⟨message, wxT "P2P Warning", .warning⟩
  else none

/-- The box that the handler of an event opens as its last action. -/
def ThreadEvent.box : ThreadEvent → Option MessageBox
  | .error payload => errorBox (parseP2PErrorEvent payload).1 (parseP2PErrorEvent payload).2
  | _ => none

namespace MainWindow

/-- The box for an empty answer in `OnChangePeerId`. -/
def changePeerIdBox (w : MainWindow) (answer : Option WxString) : Option MessageBox :=
  match answer with
  | none => none
  | some value =>
    if w.shuttingDown = false ∧ WxString.trimLeft (trimRight value) = [] then
      some ⟨wxT "Peer ID cannot be empty.", wxT "Change Peer ID", .warning⟩
    else none

/-- The line that `OnBootstrapClicked` writes. -/
def bootstrapLine (hostInput portInput : WxString) : WxString :=
  let host := WxString.trimLeft (trimRight hostInput)
  let port := trimRight portInput
  let host := if host = [] then wxT "127.0.0.1" else host
  if port = [] ∨ port = wxT "0" then wxT "[system] Enter a bootstrap port (not 0)."
  else wxT "[system] Bootstrapping to " ++ host ++ wxT ":" ++ port

def onClose (w : MainWindow) : MainWindow :=
  if w.shuttingDown then w
  else { w with shuttingDown := true, statusBar := wxT "Shutting down…" }

end MainWindow

/-! ## The whole program -/

/-- `handled` counts the events of the node that the window has handled. -/
structure Messenger where
  window : MainWindow := {}
  system : System
  handled : Nat := 0
  boxes : List MessageBox := []

inductive Input where
  | type (addContactInput peerIdInput messageInput : WxString)
  | send (op : Nat)
  | addContact (op : Nat)
  | selectContact (selection : Nat)
  /-- The id that the controller reported when the dialog opened, and the answer. -/
  | changePeerId (localPeerId : Bytes) (answer : Option WxString)
  | connect (hostInput portInput : WxString)
  | close
  | nextEvent
  | work (io : StartInput)
  | refreshProfile
  | profilePut (profile : UserProfile) (success : Bool)
  | inbox (values : List (Nat × Bytes)) (expired : Bool)
  | lookup (op : Nat) (values : List Bytes) (io : CallbackInput)

/-- What a call of the controller does; `op` names the lookup it starts. -/
def ControllerCall.action (op : Nat) : ControllerCall → Action
  | .sendMessage toPeerId text => .sendMessage op toPeerId text
  | .addContact peerId => .addContact op peerId
  | .changePeerId newPeerId => .changePeerId newPeerId

namespace Messenger

/-- The status that the constructor of the window shows. -/
def launchStatus (peerId : Bytes) (port : Nat) : WxString :=
  wxT "Peer: " ++ WxString.fromUTF8Sized peerId ++ wxT " | Port: " ++ wxT (toString port) ++
    wxT " | Status: Starting..."

/-- The constructor of the window. -/
def launch (peerId : Bytes) (port : Nat) (bootstrapHost bootstrapPort : Bytes) : Messenger :=
  let system := System.launch peerId port bootstrapHost bootstrapPort
  { window := ({} : MainWindow).updateNetworkStatus system.app.peerId system.app.port
      (launchStatus peerId port)
    system := system }

def onInit (getenv : Bytes → Option Bytes) : Messenger :=
  launch (envOrDefault getenv (bytes "P2P_PEER_ID") (bytes "user1"))
    (parsePort (envOrDefault getenv (bytes "P2P_PORT") (bytes "4222")) 4222)
    (envOrDefault getenv (bytes "P2P_BOOTSTRAP_HOST") (bytes "127.0.0.1"))
    (envOrDefault getenv (bytes "P2P_BOOTSTRAP_PORT") (bytes "0"))

/-- The oldest event of the node that the window has not handled. -/
def pendingEvent (m : Messenger) : Option UiEvent := m.system.app.node.ui[m.handled]?

/-- The event whose handler the window runs. -/
def windowEvent (m : Messenger) : Input → Option WindowEvent
  | .type addContactInput peerIdInput messageInput =>
    some (.type addContactInput peerIdInput messageInput)
  | .send _ => some .send
  | .addContact _ => some .addContact
  | .selectContact selection => some (.selectContact selection)
  | .changePeerId localPeerId answer => some (.changePeerId localPeerId answer)
  | .nextEvent => m.pendingEvent.map fun event =>
    .thread event.queued m.system.app.peerId m.system.app.port
  | _ => none

variable (sameItem : WxString → WxString → Bool)

/-- The window behind a handler. -/
def nextWindow (m : Messenger) (now : WxString) (input : Input) : MainWindow :=
  match input with
  | .connect hostInput portInput =>
    m.window.appendSystemLine (MainWindow.bootstrapLine hostInput portInput) now
  | .close => m.window.onClose
  | input =>
    match m.windowEvent input with
    | none => m.window
    | some event => m.window.step sameItem (now, event)

/-- The calls of the controller that the handler has made. -/
def handlerCalls (m : Messenger) (now : WxString) (input : Input) : List ControllerCall :=
  (m.nextWindow sameItem now input).calls.drop m.window.calls.length

/-- What the input does to the controller and its threads. -/
def actions (m : Messenger) (now : WxString) : Input → List Action
  | .connect hostInput portInput =>
    match bootstrapClick hostInput portInput with
    | none => []
    | some (host, port) => [.bootstrap host port]
  | .close => [.close]
  | .work io => [.work io]
  | .refreshProfile => [.refreshProfile]
  | .profilePut profile success => [.profilePut profile success]
  | .inbox values expired => [.inbox values expired]
  | .lookup op values io => [.lookup op values io]
  | .send op => (m.handlerCalls sameItem now (.send op)).map (ControllerCall.action op)
  | .addContact op => (m.handlerCalls sameItem now (.addContact op)).map (ControllerCall.action op)
  | .changePeerId localPeerId answer =>
    (m.handlerCalls sameItem now (.changePeerId localPeerId answer)).map (ControllerCall.action 0)
  | _ => []

/-- The boxes that the input opens. -/
def newBoxes (m : Messenger) : Input → List MessageBox
  | .changePeerId _ answer => (m.window.changePeerIdBox answer).toList
  | .nextEvent => (m.pendingEvent.bind fun event => event.queued.box).toList
  | _ => []

variable (S : Sodium)

/-- The clock of the window shows `e.1`. -/
def step (m : Messenger) (e : WxString × Input) : Messenger where
  window := m.nextWindow sameItem e.1 e.2
  system := run (System.step S) m.system (m.actions sameItem e.1 e.2)
  handled := match e.2 with
    | .nextEvent => if m.pendingEvent.isSome then m.handled + 1 else m.handled
    | _ => m.handled
  boxes := m.boxes ++ m.newBoxes e.2

/-! ## The parts of the program -/

/-- The events of the node in an input. -/
def nodeEvents (m : Messenger) (e : WxString × Input) : List Event :=
  m.system.nodeEvents S (m.actions sameItem e.1 e.2)

theorem step_node (m : Messenger) (e : WxString × Input) :
    (m.step sameItem S e).system.app.node =
      run (P2PNode.step S) m.system.app.node (m.nodeEvents sameItem S e) :=
  m.system.run_node S _

/-- The node of a new messenger has been configured and nothing else. -/
theorem launch_node (peerId : Bytes) (port : Nat) (bootstrapHost bootstrapPort : Bytes) :
    (launch peerId port bootstrapHost bootstrapPort).system.app.node =
      run (P2PNode.step S) {}
        [.setNodeConfig port (configuredId peerId), .setBootstrapHost bootstrapHost] := rfl

theorem run_node (m : Messenger) (es : List (WxString × Input)) :
    (run (step sameItem S) m es).system.app.node =
      run (P2PNode.step S) m.system.app.node
        (added (step sameItem S) (nodeEvents sameItem S) m es) :=
  run_part (f := fun m : Messenger => m.system.app.node) (step_node sameItem S) m es

/-- What the handlers of the books do to the window, an input does. -/
theorem window_of_windowEvent {m : Messenger} {input : Input} {event : WindowEvent}
    (h : m.windowEvent input = some event) (now : WxString) :
    m.nextWindow sameItem now input = m.window.step sameItem (now, event) := by
  cases input with
  | connect hostInput portInput => cases h
  | close => cases h
  | _ => simp only [nextWindow, h]

theorem books_of_no_windowEvent {m : Messenger} {input : Input} (h : m.windowEvent input = none)
    (now : WxString) : (m.nextWindow sameItem now input).books = m.window.books := by
  cases input with
  | connect hostInput portInput => rfl
  | close =>
    simp only [nextWindow, MainWindow.onClose]
    split <;> rfl
  | _ => simp only [nextWindow, h]

/-- The entries that an input adds to a conversation. -/
def newEntries (m : Messenger) (e : WxString × Input) (key : Bytes) : List ChatEntry :=
  match m.windowEvent e.2 with
  | none => []
  | some event => m.window.newEntries (e.1, event) key

theorem step_history (m : Messenger) (e : WxString × Input) (key : Bytes) :
    (m.step sameItem S e).window.history key = m.window.history key ++ m.newEntries e key := by
  show (m.nextWindow sameItem e.1 e.2).history key = _
  unfold newEntries
  cases hEvent : m.windowEvent e.2 with
  | none =>
    have hBooks := books_of_no_windowEvent sameItem hEvent e.1
    rw [List.append_nil]
    exact congrFun (congrArg MainWindow.Books.history hBooks) key
  | some event =>
    rw [window_of_windowEvent sameItem hEvent]
    exact MainWindow.step_history sameItem m.window (e.1, event) key

/-- The call that a handler has made is the one that enters the books. -/
theorem handlerCalls_eq (m : Messenger) (input : Input) {event : WindowEvent}
    (h : m.windowEvent input = some event) (now : WxString) :
    m.handlerCalls sameItem now input = m.window.newCalls (now, event) := by
  rw [handlerCalls, window_of_windowEvent sameItem h, MainWindow.step_calls, List.drop_left]

/-! ## The event loop -/

/-- The events of the node that the window has handled. -/
def handledEvents (m : Messenger) : List UiEvent := m.system.app.node.ui.take m.handled

/-- The event that an input handles. -/
def newHandled (m : Messenger) : Input → Option UiEvent
  | .nextEvent => m.pendingEvent
  | _ => none

theorem pendingEvent_of_newHandled {m : Messenger} {input : Input} {event : UiEvent}
    (h : event ∈ (m.newHandled input).toList) : m.pendingEvent = some event := by
  cases input with
  | nextEvent => exact Option.mem_toList.mp h
  | _ => cases h

theorem mem_ui_of_newHandled {m : Messenger} {input : Input} {event : UiEvent}
    (h : event ∈ (m.newHandled input).toList) : event ∈ m.system.app.node.ui :=
  List.mem_of_getElem? (pendingEvent_of_newHandled h)

theorem ui_grows (m : Messenger) (e : WxString × Input) :
    m.system.app.node.ui <+: (m.step sameItem S e).system.app.node.ui := by
  rw [step_node, history_run (f := P2PNode.ui) (P2PNode.step_ui S)]
  exact List.prefix_append _ _

theorem handled_step (m : Messenger) (e : WxString × Input) :
    (m.step sameItem S e).handled = m.handled + (m.newHandled e.2).toList.length := by
  obtain ⟨now, input⟩ := e
  cases input with
  | nextEvent =>
    simp only [step, newHandled]
    cases m.pendingEvent <;> rfl
  | _ => rfl

/-- The window handles no event twice and skips none. -/
theorem handledEvents_step {m : Messenger} (h : m.handled ≤ m.system.app.node.ui.length)
    (e : WxString × Input) :
    (m.step sameItem S e).handledEvents = m.handledEvents ++ (m.newHandled e.2).toList := by
  obtain ⟨more, hMore⟩ := ui_grows sameItem S m e
  have hTake : m.system.app.node.ui.take (m.handled + (m.newHandled e.2).toList.length) =
      m.handledEvents ++ (m.newHandled e.2).toList := by
    cases hNew : m.newHandled e.2 with
    | none => simp [handledEvents]
    | some event =>
      have hEvent : m.system.app.node.ui[m.handled]? = some event :=
        pendingEvent_of_newHandled (Option.mem_toList.mpr hNew)
      simp [handledEvents, List.take_add_one, hEvent]
  have hBound : m.handled + (m.newHandled e.2).toList.length ≤ m.system.app.node.ui.length := by
    have hLength := congrArg List.length hTake
    simp only [List.length_take, List.length_append, handledEvents] at hLength
    omega
  rw [handledEvents, handled_step, ← hMore, List.take_append_of_le_length hBound, hTake]

theorem handled_le (m : Messenger) (hStart : m.handled ≤ m.system.app.node.ui.length)
    (es : List (WxString × Input)) :
    (run (step sameItem S) m es).handled ≤
      (run (step sameItem S) m es).system.app.node.ui.length := by
  refine run_invariant (I := fun m : Messenger => m.handled ≤ m.system.app.node.ui.length) ?_
    hStart es
  intro m e h
  have hLength := congrArg List.length (handledEvents_step sameItem S h e)
  simp only [handledEvents, List.length_take, List.length_append, handled_step] at hLength
  rw [handled_step]
  omega

end Messenger

end P2PMessenger
