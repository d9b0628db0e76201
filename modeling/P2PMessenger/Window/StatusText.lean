import P2PMessenger.Window.Books

/-!
# The status line and the flag of the close

Both stand beside the conversations: no handler of a click or a message writes them. The line
is written by the handler of a status event, with the id and the port that the controller
reports at that moment.
-/

namespace P2PMessenger

open Text

namespace MainWindow

/-- The flag of the close and the status line. -/
def frame (w : MainWindow) : Bool × WxString := (w.shuttingDown, w.statusText)

/-- What an event makes of the frame. -/
def newFrame (w : MainWindow) : WindowEvent → Bool × WxString
  | .thread (.networkStatus status) localPeerId localPort =>
    (w.shuttingDown, statusLine localPeerId localPort status)
  | _ => w.frame

theorem frame_switchActiveContact (w : MainWindow) (contactId : Bytes) (now : WxString) :
    (w.switchActiveContact contactId now).frame = w.frame := by
  obtain ⟨log, hLog⟩ := w.switchActiveContact_eq contactId now
  rw [hLog]
  rfl

theorem frame_recordMessage (w : MainWindow) (contactId : Bytes) (kind : ChatMessageKind)
    (peer text now : WxString) : (w.recordMessage contactId kind peer text now).frame = w.frame := by
  obtain ⟨log, hLog⟩ := w.recordMessage_eq contactId kind peer text now
  rw [hLog]
  rfl

variable (sameItem : WxString → WxString → Bool)

theorem frame_addContactToList (w : MainWindow) (peerId : WxString) :
    (w.addContactToList sameItem peerId).frame = w.frame := by
  unfold addContactToList
  split <;> rfl

theorem frame_onP2PMessageReceived (w : MainWindow) (event : MessageEvent) (now : WxString) :
    (w.onP2PMessageReceived sameItem event now).frame = w.frame := by
  have hOpened (v : MainWindow) (contactId : Bytes) :
      (if v.activeContactId = [] then v.switchActiveContact contactId now else v).frame =
        v.frame := by
    split
    · exact frame_switchActiveContact v contactId now
    · rfl
  have hStatus (v : MainWindow) (status : WxString) (p : Prop) [Decidable p] :
      (if p then { v with statusBar := status } else v).frame = v.frame := by
    split <;> rfl
  unfold onP2PMessageReceived
  dsimp only
  split
  · rfl
  · rw [hStatus, frame_recordMessage, hOpened, frame_addContactToList]

theorem frame_step (w : MainWindow) (e : WxString × WindowEvent) :
    (w.step sameItem e).frame = w.newFrame e.2 := by
  obtain ⟨now, e⟩ := e
  cases e with
  | type addContactInput peerIdInput messageInput => rfl
  | send =>
    simp only [step]
    by_cases hBlank : w.recipient = [] ∨ w.messageInput = []
    · rw [sendCurrentMessage_of_blank sameItem hBlank]
      rfl
    · rw [sendCurrentMessage_of_sends sameItem hBlank]
      show (recordMessage _ _ _ _ _ _).frame = _
      rw [frame_recordMessage, frame_switchActiveContact, frame_addContactToList]
      rfl
  | addContact =>
    simp only [step, onAddContactClicked]
    split
    · rfl
    · exact frame_addContactToList sameItem _ _
  | selectContact selection =>
    simp only [step, onContactSelected]
    split
    · rfl
    · exact frame_switchActiveContact _ _ _
  | changePeerId localPeerId answer =>
    cases answer with
    | none => rfl
    | some value =>
      simp only [step, onChangePeerId]
      split <;> rfl
  | thread event localPeerId localPort =>
    cases event with
    | messageReceived event => exact frame_onP2PMessageReceived sameItem w event now
    | peerFound peerId => exact frame_addContactToList sameItem w peerId
    | networkStatus status => rfl
    | error payload => rfl

end MainWindow

end P2PMessenger
