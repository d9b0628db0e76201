import P2PMessenger.Window.MainWindow

/-!
# What the window keeps

The contact list, the conversations and the calls of the controller are the books of the
window; the chat log, the inputs and the status texts only show. Whatever a handler does, it
enters at most one contact, one message and one call into the books (`books_step`), and the
facts about runs of the window are read off from that.
-/

namespace P2PMessenger

open Text

namespace MainWindow

/-- The recipient that `SendCurrentMessage` reads. -/
def recipient (w : MainWindow) : WxString := WxString.trimLeft (trimRight w.peerIdInput)

/-- The key a received message is filed under; under the empty one it is not filed. -/
def filedUnder (w : MainWindow) (event : MessageEvent) : Bytes := WxString.utf8_str (w.sender event)

/-! ## The books -/

structure Books where
  contactsList : List WxString
  history : Bytes → List ChatEntry
  calls : List ControllerCall

def books (w : MainWindow) : Books where
  contactsList := w.contactsList
  history := w.history
  calls := w.calls

/-- The entry of a message of one conversation. -/
def entryOf (key : Bytes) (m : Bytes × ChatEntry) : Option ChatEntry :=
  if m.1 = key then some m.2 else none

theorem filterMap_entryOf {id : Bytes} (h : id ≠ []) (key : Bytes) (entry : ChatEntry) :
    [(id, entry)].filterMap (entryOf key) = if key = [] ∨ key ≠ id then [] else [entry] := by
  by_cases hKey : id = key
  · subst hKey
    simp [entryOf, h]
  · simp [entryOf, hKey, Ne.symm hKey]

variable (sameItem : WxString → WxString → Bool)

/-- A contact enters the list if it is not found there, a message the conversation with its
key. -/
def Books.enter (b : Books) (contact : WxString) (messages : List (Bytes × ChatEntry))
    (calls : List ControllerCall) : Books where
  contactsList :=
    if contact = [] ∨ b.contactsList.any (sameItem contact) then b.contactsList
    else b.contactsList ++ [contact]
  history key := b.history key ++ messages.filterMap (entryOf key)
  calls := b.calls ++ calls

theorem Books.enter_nothing (b : Books) : b.enter sameItem [] [] [] = b := by
  simp [Books.enter]

/-- A call, a contact and a message, in this order. -/
theorem Books.enter_message (b : Books) (contact : WxString) (messages : List (Bytes × ChatEntry))
    (calls : List ControllerCall) :
    ((b.enter sameItem [] [] calls).enter sameItem contact [] []).enter sameItem [] messages [] =
      b.enter sameItem contact messages calls := by
  simp [Books.enter]

theorem Books.enter_contact (b : Books) (contact : WxString) (calls : List ControllerCall) :
    (b.enter sameItem [] [] calls).enter sameItem contact [] [] =
      b.enter sameItem contact [] calls := by
  simp [Books.enter]

/-! ## Frames -/

/-- A repaint changes only the chat log. -/
theorem renderHistory_eq (w : MainWindow) (contactId : Bytes) (now : WxString) :
    ∃ log, w.renderHistory contactId now = { w with chatLog := log } := by
  suffices h : ∀ (entries : List ChatEntry) (v : MainWindow),
      ∃ log, entries.foldl (fun w entry =>
        w.appendChatMessage entry.kind entry.peer entry.text entry.timestamp now) v =
        { v with chatLog := log } by
    obtain ⟨log, hLog⟩ := h (w.history contactId) _
    exact ⟨log, hLog⟩
  intro entries
  induction entries with
  | nil => exact fun v => ⟨v.chatLog, rfl⟩
  | cons entry entries ih =>
    intro v
    obtain ⟨log, hLog⟩ := ih
      (v.appendChatMessage entry.kind entry.peer entry.text entry.timestamp now)
    exact ⟨log, hLog⟩

theorem switchActiveContact_eq (w : MainWindow) (contactId : Bytes) (now : WxString) :
    ∃ log, w.switchActiveContact contactId now =
      { w with
        activeContactId := if contactId = [] then w.activeContactId else contactId
        chatLog := log } := by
  unfold switchActiveContact
  by_cases hNil : contactId = []
  · exact ⟨w.chatLog, by simp [hNil]⟩
  · by_cases hActive : contactId = w.activeContactId
    · exact ⟨w.chatLog, by simp [hActive]⟩
    · obtain ⟨log, hLog⟩ := renderHistory_eq { w with activeContactId := contactId } contactId now
      refine ⟨log, ?_⟩
      rw [if_neg (by simp [hNil, hActive]), if_neg hNil]
      exact hLog

theorem recordMessage_eq (w : MainWindow) (contactId : Bytes) (kind : ChatMessageKind)
    (peer text now : WxString) :
    ∃ log, w.recordMessage contactId kind peer text now =
      { w with
        history := (w.recordMessage contactId kind peer text now).history
        chatLog := log } := by
  refine ⟨(w.recordMessage contactId kind peer text now).chatLog, ?_⟩
  unfold recordMessage
  split
  · rfl
  · dsimp only
    split <;> rfl

theorem history_recordMessage (w : MainWindow) (contactId : Bytes) (kind : ChatMessageKind)
    (peer text now : WxString) :
    (w.recordMessage contactId kind peer text now).history =
      if contactId = [] then w.history
      else Function.update w.history contactId
        (w.history contactId ++ [⟨kind, peer, text, now⟩]) := by
  unfold recordMessage
  by_cases hId : contactId = []
  · simp only [hId, if_true]
  · simp only [hId, if_false]
    split <;> rfl

/-! ## What the parts of a handler enter -/

@[simp] theorem books_switchActiveContact (w : MainWindow) (contactId : Bytes) (now : WxString) :
    (w.switchActiveContact contactId now).books = w.books := by
  obtain ⟨log, h⟩ := w.switchActiveContact_eq contactId now
  rw [h]
  rfl

@[simp] theorem books_addContactToList (w : MainWindow) (peerId : WxString) :
    (w.addContactToList sameItem peerId).books = w.books.enter sameItem peerId [] [] := by
  unfold addContactToList Books.enter
  split <;> simp_all [books]

theorem books_recordMessage (w : MainWindow) (contactId : Bytes) (kind : ChatMessageKind)
    (peer text now : WxString) :
    (w.recordMessage contactId kind peer text now).books =
      w.books.enter sameItem []
        (if contactId = [] then [] else [(contactId, ⟨kind, peer, text, now⟩)]) [] := by
  obtain ⟨log, h⟩ := w.recordMessage_eq contactId kind peer text now
  rw [h, history_recordMessage]
  by_cases hId : contactId = []
  · simp [hId, books, Books.enter]
  · have hHistory : Function.update w.history contactId
        (w.history contactId ++ [⟨kind, peer, text, now⟩]) = fun key => w.history key ++
          [(contactId, ⟨kind, peer, text, now⟩)].filterMap (entryOf key) := by
      funext key
      by_cases hKey : key = contactId
      · subst hKey
        simp [entryOf]
      · simp [entryOf, hKey, Ne.symm hKey]
    rw [if_neg hId, if_neg hId, hHistory]
    simp [books, Books.enter]

theorem history_switchActiveContact (w : MainWindow) (contactId : Bytes) (now : WxString) :
    (w.switchActiveContact contactId now).history = w.history :=
  congrArg Books.history (books_switchActiveContact w contactId now)

theorem contactsList_addContactToList (w : MainWindow) (peerId : WxString) :
    (w.addContactToList sameItem peerId).contactsList =
      if peerId = [] ∨ w.contactsList.any (sameItem peerId) then w.contactsList
      else w.contactsList ++ [peerId] :=
  congrArg Books.contactsList (books_addContactToList sameItem w peerId)

/-! ## What an event enters -/

/-- The id that an event hands to `AddContactToList`. -/
def newContact (w : MainWindow) (e : WxString × WindowEvent) : WxString :=
  match e.2 with
  | .send => if w.recipient = [] ∨ w.messageInput = [] then [] else w.recipient
  | .addContact => trimRight w.addContactInput
  | .thread (.messageReceived event) _ _ => w.sender event
  | .thread (.peerFound peerId) _ _ => peerId
  | _ => []

/-- The message that an event sends or brings, with the key it belongs to. A recipient that is
read as nothing is sent nothing, and a sender that is read as nothing is unknown. -/
def message (w : MainWindow) (e : WxString × WindowEvent) : List (Bytes × ChatEntry) :=
  match e.2 with
  | .send =>
    if w.recipient = [] ∨ w.messageInput = [] ∨ WxString.utf8_str w.recipient = [] then []
    else [(WxString.utf8_str w.recipient, ⟨.outgoing, w.recipient, w.messageInput, e.1⟩)]
  | .thread (.messageReceived event) _ _ =>
    if w.filedUnder event = [] then []
    else [(w.filedUnder event,
      ⟨.incoming, w.sender event, (parseMessageReceivedEvent event).2, e.1⟩)]
  | _ => []

/-- The call of the controller that an event makes. -/
def newCalls (w : MainWindow) (e : WxString × WindowEvent) : List ControllerCall :=
  match e.2 with
  | .send =>
    if w.recipient = [] ∨ w.messageInput = [] then []
    else [.sendMessage (WxString.utf8_str w.recipient) (WxString.utf8_str w.messageInput)]
  | .addContact =>
    if trimRight w.addContactInput = [] then []
    else [.addContact (WxString.utf8_str (trimRight w.addContactInput))]
  | .changePeerId localPeerId (some value) =>
    if w.shuttingDown ∨ WxString.trimLeft (trimRight value) = [] ∨
        WxString.trimLeft (trimRight value) = WxString.fromUTF8Sized localPeerId then []
    else [.changePeerId (WxString.utf8_str (WxString.trimLeft (trimRight value)))]
  | _ => []

theorem sendCurrentMessage_of_blank {w : MainWindow} (h : w.recipient = [] ∨ w.messageInput = [])
    (now : WxString) :
    w.sendCurrentMessage sameItem now =
      { w.appendSystemLine (wxT "[system] Enter a recipient and message text.") now with
        statusBar := wxT "Cannot send: missing recipient or message." } := by
  unfold sendCurrentMessage
  dsimp only
  exact if_pos h

/-- A message is handed to the controller and recorded in the conversation it opens. -/
theorem sendCurrentMessage_of_sends {w : MainWindow}
    (h : ¬ (w.recipient = [] ∨ w.messageInput = [])) (now : WxString) :
    w.sendCurrentMessage sameItem now =
      { ((({ w with calls := w.calls ++ [.sendMessage (WxString.utf8_str w.recipient)
            (WxString.utf8_str w.messageInput)] } : MainWindow).addContactToList sameItem
              w.recipient).switchActiveContact (WxString.utf8_str w.recipient) now).recordMessage
            (WxString.utf8_str w.recipient) .outgoing w.recipient w.messageInput now with
        messageInput := []
        statusBar := wxT "Message sent to " ++ w.recipient } := by
  unfold sendCurrentMessage
  dsimp only
  exact if_neg h

theorem books_call (w : MainWindow) (calls : List ControllerCall) :
    ({ w with calls := w.calls ++ calls } : MainWindow).books =
      w.books.enter sameItem [] [] calls := by
  simp [books, Books.enter]

theorem books_sendCurrentMessage (w : MainWindow) (now : WxString) :
    (w.sendCurrentMessage sameItem now).books =
      w.books.enter sameItem (w.newContact (now, .send)) (w.message (now, .send))
        (w.newCalls (now, .send)) := by
  simp only [newContact, message, newCalls]
  by_cases hBlank : w.recipient = [] ∨ w.messageInput = []
  · have hNone : w.recipient = [] ∨ w.messageInput = [] ∨ WxString.utf8_str w.recipient = [] := by
      rw [← or_assoc]
      exact Or.inl hBlank
    rw [sendCurrentMessage_of_blank sameItem hBlank, if_pos hBlank, if_pos hNone, if_pos hBlank,
      Books.enter_nothing]
    rfl
  · have hKey : (w.recipient = [] ∨ w.messageInput = [] ∨ WxString.utf8_str w.recipient = []) ↔
        WxString.utf8_str w.recipient = [] := by
      rw [← or_assoc, or_iff_right hBlank]
    rw [sendCurrentMessage_of_sends sameItem hBlank, if_neg hBlank, if_neg hBlank]
    simp only [hKey]
    show (recordMessage _ (WxString.utf8_str w.recipient) .outgoing w.recipient w.messageInput
      now).books = _
    rw [books_recordMessage sameItem, books_switchActiveContact, books_addContactToList,
      books_call sameItem, Books.enter_message]

/-- The handler of a message enters its sender and files it. -/
theorem books_onP2PMessageReceived (w : MainWindow) (event : MessageEvent) (now : WxString) :
    (w.onP2PMessageReceived sameItem event now).books =
      w.books.enter sameItem (w.sender event)
        (if w.filedUnder event = [] then []
          else [(w.filedUnder event,
            ⟨.incoming, w.sender event, (parseMessageReceivedEvent event).2, now⟩)]) [] := by
  unfold onP2PMessageReceived
  by_cases hUnknown : w.sender event = []
  · have hKey : w.filedUnder event = [] := by
      rw [filedUnder, hUnknown]
      rfl
    rw [hKey, hUnknown, if_pos rfl, if_pos rfl, Books.enter_nothing]
    rfl
  · rw [if_neg hUnknown]
    dsimp only
    have hOpened (v : MainWindow) (contactId : Bytes) :
        (if v.activeContactId = [] then v.switchActiveContact contactId now else v).books =
          v.books := by
      split
      · exact books_switchActiveContact v contactId now
      · rfl
    have hStatus (v : MainWindow) (status : WxString) (p : Prop) [Decidable p] :
        (if p then { v with statusBar := status } else v).books = v.books := by
      split <;> rfl
    rw [hStatus, books_recordMessage sameItem, hOpened, books_addContactToList, filedUnder]
    simp [Books.enter]

/-- Whatever an event does, it enters at most one contact, one message and one call. -/
theorem books_step (w : MainWindow) (e : WxString × WindowEvent) :
    (w.step sameItem e).books =
      w.books.enter sameItem (w.newContact e) (w.message e) (w.newCalls e) := by
  have hNothing : w.books = w.books.enter sameItem [] [] [] := (Books.enter_nothing _ _).symm
  obtain ⟨now, e⟩ := e
  cases e with
  | type addContactInput peerIdInput messageInput => exact hNothing
  | send => exact books_sendCurrentMessage sameItem w now
  | addContact =>
    simp only [step, onAddContactClicked, newContact, message, newCalls]
    by_cases hBlank : trimRight w.addContactInput = []
    · rw [if_pos hBlank, if_pos hBlank, hBlank]
      exact hNothing
    · rw [if_neg hBlank, if_neg hBlank]
      show (addContactToList sameItem _ (trimRight w.addContactInput)).books = _
      rw [books_addContactToList, books_call sameItem, Books.enter_contact]
  | selectContact selection =>
    refine Eq.trans ?_ hNothing
    simp only [step, onContactSelected]
    split
    · rfl
    · exact books_switchActiveContact _ _ _
  | changePeerId localPeerId answer =>
    cases answer with
    | none => exact hNothing
    | some value =>
      simp only [step, onChangePeerId, newContact, message, newCalls]
      split
      · exact hNothing
      · exact books_call sameItem w _
  | thread event localPeerId localPort =>
    cases event with
    | messageReceived event => exact books_onP2PMessageReceived sameItem w event now
    | peerFound peerId => exact books_addContactToList sameItem w peerId
    | networkStatus status => exact hNothing
    | error payload => exact hNothing

/-! ## One book at a time -/

theorem step_contactsList (w : MainWindow) (e : WxString × WindowEvent) :
    (w.step sameItem e).contactsList =
      (w.addContactToList sameItem (w.newContact e)).contactsList := by
  have hStep := congrArg Books.contactsList (books_step sameItem w e)
  have hAdd := congrArg Books.contactsList (books_addContactToList sameItem w (w.newContact e))
  exact hStep.trans hAdd.symm

theorem step_conversation (w : MainWindow) (e : WxString × WindowEvent) (key : Bytes) :
    (w.step sameItem e).history key =
      w.history key ++ (w.message e).filterMap (entryOf key) :=
  congrFun (congrArg Books.history (books_step sameItem w e)) key

theorem step_calls (w : MainWindow) (e : WxString × WindowEvent) :
    (w.step sameItem e).calls = w.calls ++ w.newCalls e :=
  congrArg Books.calls (books_step sameItem w e)

end MainWindow

end P2PMessenger
