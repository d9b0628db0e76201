import P2PMessenger.Window.Events
import Mathlib.Logic.Function.Basic

/-!
# The window

The handlers of `MainWindow.cpp` that read or write the conversations. The chat log is the
list of the written lines with their kind. `now` is `CurrentTimestamp()` at the call, and
`sameItem` is the comparison of `wxListBox::FindString`, which ignores case. Calls of the
controller are recorded in order.
-/

namespace P2PMessenger

open Text

inductive ChatMessageKind where
  | incoming
  | outgoing
  | system
  deriving DecidableEq, Repr

structure ChatEntry where
  kind : ChatMessageKind
  peer : WxString
  text : WxString
  timestamp : WxString
  deriving DecidableEq, Repr

inductive ControllerCall where
  | sendMessage (toPeerId text : Bytes)
  | addContact (peerId : Bytes)
  | changePeerId (newPeerId : Bytes)
  deriving DecidableEq, Repr

/-- The label that `UpdateNetworkStatus` sets. -/
def statusLine (localPeerId : Bytes) (localPort : Nat) (status : WxString) : WxString :=
  wxT "Peer: " ++ WxString.fromUTF8Sized localPeerId ++ wxT " | Port: " ++
    wxT (toString localPort) ++ wxT " | " ++ status

structure MainWindow where
  activeContactId : Bytes := []
  history : Bytes → List ChatEntry := fun _ => []
  contactsList : List WxString := []
  chatLog : List (ChatMessageKind × WxString) := []
  addContactInput : WxString := []
  peerIdInput : WxString := []
  messageInput : WxString := []
  statusBar : WxString := wxT "Ready"
  statusText : WxString := wxT "Network status: Initializing..."
  shuttingDown : Bool := false
  calls : List ControllerCall := []

namespace MainWindow

/-! ## The chat log -/

def appendChatMessage (w : MainWindow) (kind : ChatMessageKind)
    (peerLabel text timestamp now : WxString) : MainWindow :=
  let ts := if timestamp = [] then now else timestamp
  let body := match kind with
    | .outgoing => wxT "[you -> " ++ peerLabel ++ wxT "] " ++ text
    | .incoming => wxT "[" ++ peerLabel ++ wxT " -> you] " ++ text
    | .system => text
  { w with chatLog := w.chatLog ++ [(kind, ts ++ wxT "  " ++ body)] }

def appendSystemLine (w : MainWindow) (text now : WxString) : MainWindow :=
  w.appendChatMessage .system [] text [] now

/-! ## Conversations -/

def recordMessage (w : MainWindow) (contactId : Bytes) (kind : ChatMessageKind)
    (peer text now : WxString) : MainWindow :=
  if contactId = [] then w
  else
    let entry : ChatEntry := ⟨kind, peer, text, now⟩
    let w := { w with
      history := Function.update w.history contactId (w.history contactId ++ [entry]) }
    if contactId = w.activeContactId then
      w.appendChatMessage entry.kind entry.peer entry.text entry.timestamp now
    else w

def renderHistory (w : MainWindow) (contactId : Bytes) (now : WxString) : MainWindow :=
  let w := { w with chatLog := [] }
  let w := w.appendSystemLine
    (wxT "[system] Conversation with " ++ WxString.fromUTF8Sized contactId) now
  let w := w.appendSystemLine (wxT "[system] Messages are end-to-end encrypted.") now
  (w.history contactId).foldl
    (fun w entry => w.appendChatMessage entry.kind entry.peer entry.text entry.timestamp now) w

def switchActiveContact (w : MainWindow) (contactId : Bytes) (now : WxString) : MainWindow :=
  if contactId = [] ∨ contactId = w.activeContactId then w
  else { w with activeContactId := contactId }.renderHistory contactId now

variable (sameItem : WxString → WxString → Bool)

def addContactToList (w : MainWindow) (peerId : WxString) : MainWindow :=
  if peerId = [] ∨ w.contactsList.any (sameItem peerId) then w
  else { w with contactsList := w.contactsList ++ [peerId] }

/-! ## Handlers of the user's actions -/

def sendCurrentMessage (w : MainWindow) (now : WxString) : MainWindow :=
  let peerId := WxString.trimLeft (trimRight w.peerIdInput)
  let text := w.messageInput
  if peerId = [] ∨ text = [] then
    { w.appendSystemLine (wxT "[system] Enter a recipient and message text.") now with
      statusBar := wxT "Cannot send: missing recipient or message." }
  else
    let recipient := WxString.utf8_str peerId
    let w := { w with calls := w.calls ++ [ControllerCall.sendMessage recipient (WxString.utf8_str text)] }
    let w := w.addContactToList sameItem peerId
    let w := w.switchActiveContact recipient now
    let w := w.recordMessage recipient .outgoing peerId text now
    { w with messageInput := [], statusBar := wxT "Message sent to " ++ peerId }

def onAddContactClicked (w : MainWindow) (now : WxString) : MainWindow :=
  let peerId := trimRight w.addContactInput
  if peerId = [] then w.appendSystemLine (wxT "[system] Enter a peer ID to add.") now
  else
    let w := { w with calls := w.calls ++ [ControllerCall.addContact (WxString.utf8_str peerId)] }
    let w := { w.addContactToList sameItem peerId with
      peerIdInput := peerId, addContactInput := [] }
    w.appendSystemLine (wxT "[system] Looking up peer: " ++ peerId) now

def onContactSelected (w : MainWindow) (selection : Nat) (now : WxString) : MainWindow :=
  match w.contactsList[selection]? with
  | none => w
  | some contactId =>
    { w with peerIdInput := contactId }.switchActiveContact (WxString.utf8_str contactId) now

/-- `answer` is the text entered in the dialog, if it was confirmed. -/
def onChangePeerId (w : MainWindow) (localPeerId : Bytes) (answer : Option WxString)
    (now : WxString) : MainWindow :=
  let currentId := WxString.fromUTF8Sized localPeerId
  match answer with
  | none => w
  | some value =>
    let newId := WxString.trimLeft (trimRight value)
    if w.shuttingDown ∨ newId = [] ∨ newId = currentId then w
    else
      let w := { w with activeContactId := [], chatLog := [] }
      let w := w.appendSystemLine (wxT "[system] Restarting network as " ++ newId ++ wxT " …") now
      { w with
        statusBar := wxT "Changing Peer ID to " ++ newId ++ wxT "…"
        calls := w.calls ++ [ControllerCall.changePeerId (WxString.utf8_str newId)] }

/-! ## Handlers of the node's events -/

/-- The sender that a message is filed under. -/
def sender (w : MainWindow) (event : MessageEvent) : WxString :=
  let fromPeerId := trimRight (parseMessageReceivedEvent event).1
  if fromPeerId = [] ∧ (parseMessageReceivedEvent event).2 ≠ [] then trimRight w.peerIdInput
  else fromPeerId

def onP2PMessageReceived (w : MainWindow) (event : MessageEvent) (now : WxString) : MainWindow :=
  let text := (parseMessageReceivedEvent event).2
  let sender := w.sender event
  if sender = [] then
    w.appendSystemLine (wxT "[system] Received a message with an unknown sender.") now
  else
    let w := w.addContactToList sameItem sender
    let senderStd := WxString.utf8_str sender
    let w := if w.activeContactId = [] then w.switchActiveContact senderStd now else w
    let w := w.recordMessage senderStd .incoming sender text now
    if w.activeContactId ≠ senderStd then
      { w with statusBar := wxT "New message from " ++ sender }
    else w

def onP2PPeerFound (w : MainWindow) (peerId now : WxString) : MainWindow :=
  (w.addContactToList sameItem peerId).appendSystemLine
    (wxT "[system] Peer found on DHT: " ++ peerId) now

/-- The id and the port are those that the controller reports. -/
def updateNetworkStatus (w : MainWindow) (localPeerId : Bytes) (localPort : Nat)
    (status : WxString) : MainWindow :=
  { w with statusText := statusLine localPeerId localPort status }

def onP2PNetworkStatus (w : MainWindow) (localPeerId : Bytes) (localPort : Nat)
    (status : WxString) : MainWindow :=
  w.updateNetworkStatus localPeerId localPort status

def onP2PError (w : MainWindow) (payload now : WxString) : MainWindow :=
  let message := (parseP2PErrorEvent payload).2
  { w.appendSystemLine (wxT "[error] " ++ message) now with statusBar := message }

end MainWindow

/-! ## The window as a machine -/

inductive WindowEvent where
  /-- The texts typed into the three inputs. -/
  | type (addContactInput peerIdInput messageInput : WxString)
  | send
  | addContact
  | selectContact (selection : Nat)
  | changePeerId (localPeerId : Bytes) (answer : Option WxString)
  | thread (event : ThreadEvent) (localPeerId : Bytes) (localPort : Nat)

/-- A handler runs at the time `e.1`. -/
def MainWindow.step (sameItem : WxString → WxString → Bool) (w : MainWindow)
    (e : WxString × WindowEvent) : MainWindow :=
  match e.2 with
  | .type addContactInput peerIdInput messageInput =>
    { w with
      addContactInput := addContactInput
      peerIdInput := peerIdInput
      messageInput := messageInput }
  | .send => w.sendCurrentMessage sameItem e.1
  | .addContact => w.onAddContactClicked sameItem e.1
  | .selectContact selection => w.onContactSelected selection e.1
  | .changePeerId localPeerId answer => w.onChangePeerId localPeerId answer e.1
  | .thread (.messageReceived event) _ _ => w.onP2PMessageReceived sameItem event e.1
  | .thread (.peerFound peerId) _ _ => w.onP2PPeerFound sameItem peerId e.1
  | .thread (.networkStatus status) localPeerId localPort =>
    w.onP2PNetworkStatus localPeerId localPort status
  | .thread (.error payload) _ _ => w.onP2PError payload e.1

end P2PMessenger
