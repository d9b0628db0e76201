import P2PMessenger.Window.Attribution

/-!
# What the chat log shows

Lines reach the chat log on two ways: `RecordMessage` appends one, `RenderHistory` repaints
all. The invariant is that the lines of messages are those of the open conversation; the
conversations themselves are the messages sent and received, sorted by their key.
-/

namespace P2PMessenger

open Text Run

/-- The line an entry is painted as, its timestamp included. -/
def ChatEntry.line (entry : ChatEntry) : ChatMessageKind × WxString :=
  let body := match entry.kind with
    | .outgoing => wxT "[you -> " ++ entry.peer ++ wxT "] " ++ entry.text
    | .incoming => wxT "[" ++ entry.peer ++ wxT " -> you] " ++ entry.text
    | .system => entry.text
  (entry.kind, entry.timestamp ++ wxT "  " ++ body)

/-- The entry of a message, which keeps its timestamp when it is painted again. -/
def ChatEntry.Stamped (entry : ChatEntry) : Prop := entry.kind ≠ .system ∧ entry.timestamp ≠ []

namespace MainWindow

variable (sameItem : WxString → WxString → Bool)

/-- The lines of the chat log that are not system lines. -/
def messageLines (w : MainWindow) : List (ChatMessageKind × WxString) :=
  w.chatLog.filter fun line => line.1 ≠ .system

/-- The chat log shows the open conversation, and none if none is open. -/
structure Painted (w : MainWindow) : Prop where
  lines : w.messageLines = (w.history w.activeContactId).map ChatEntry.line
  nobody : w.history [] = []
  stamped : ∀ key, ∀ entry ∈ w.history key, entry.Stamped

/-! ## Painting -/

theorem messageLines_appendSystemLine (w : MainWindow) (text now : WxString) :
    (w.appendSystemLine text now).messageLines = w.messageLines := by
  unfold messageLines appendSystemLine appendChatMessage
  rw [List.filter_append]
  exact List.append_nil _

theorem chatLog_paint {entry : ChatEntry} (h : entry.Stamped) (w : MainWindow) (now : WxString) :
    w.appendChatMessage entry.kind entry.peer entry.text entry.timestamp now =
      { w with chatLog := w.chatLog ++ [entry.line] } := by
  unfold appendChatMessage
  rw [if_neg h.2]
  rfl

theorem messageLines_paint {entry : ChatEntry} (h : entry.Stamped) (w : MainWindow)
    (now : WxString) :
    (w.appendChatMessage entry.kind entry.peer entry.text entry.timestamp now).messageLines =
      w.messageLines ++ [entry.line] := by
  have hKind : entry.line.1 ≠ .system := h.1
  rw [chatLog_paint h, messageLines, messageLines, List.filter_append]
  simp [hKind]

/-- Painting entries one after the other. -/
theorem messageLines_paintAll {entries : List ChatEntry} (h : ∀ entry ∈ entries, entry.Stamped)
    (w : MainWindow) (now : WxString) :
    (entries.foldl (fun w entry =>
      w.appendChatMessage entry.kind entry.peer entry.text entry.timestamp now) w).messageLines =
      w.messageLines ++ entries.map ChatEntry.line := by
  induction entries generalizing w with
  | nil => exact (List.append_nil _).symm
  | cons entry rest ih =>
    have hFirst : entry.Stamped := h entry List.mem_cons_self
    have hRest : ∀ entry ∈ rest, entry.Stamped := fun e he => h e (List.mem_cons_of_mem _ he)
    rw [List.foldl_cons, ih hRest, messageLines_paint hFirst, List.map_cons, List.append_assoc]
    rfl

theorem messageLines_renderHistory {w : MainWindow} {contactId : Bytes}
    (h : ∀ entry ∈ w.history contactId, entry.Stamped) (now : WxString) :
    (w.renderHistory contactId now).messageLines =
      (w.history contactId).map ChatEntry.line := by
  refine (messageLines_paintAll h _ now).trans ?_
  rw [messageLines_appendSystemLine, messageLines_appendSystemLine]
  exact List.nil_append _

/-! ## The invariant -/

variable {w : MainWindow}

/-- Only three members matter. -/
theorem Painted.of_eq (h : w.Painted) {v : MainWindow} (hLog : v.chatLog = w.chatLog)
    (hHistory : v.history = w.history) (hActive : v.activeContactId = w.activeContactId) :
    v.Painted := by
  refine ⟨?_, hHistory ▸ h.nobody, hHistory ▸ h.stamped⟩
  rw [messageLines, hLog, hHistory, hActive]
  exact h.lines

theorem Painted.appendSystemLine (h : w.Painted) (text now : WxString) :
    (w.appendSystemLine text now).Painted :=
  ⟨(messageLines_appendSystemLine w text now).trans h.lines, h.nobody, h.stamped⟩

theorem Painted.addContactToList (h : w.Painted) (peerId : WxString) :
    (w.addContactToList sameItem peerId).Painted := by
  unfold MainWindow.addContactToList
  split
  · exact h
  · exact h.of_eq rfl rfl rfl

/-- Opening a conversation repaints all of it. -/
theorem Painted.switchActiveContact (h : w.Painted) (contactId : Bytes) (now : WxString) :
    (w.switchActiveContact contactId now).Painted := by
  have hHistory := history_switchActiveContact w contactId now
  refine ⟨?_, ?_, ?_⟩
  · rw [hHistory]
    unfold MainWindow.switchActiveContact
    split
    · exact h.lines
    · obtain ⟨log, hLog⟩ :=
        renderHistory_eq { w with activeContactId := contactId } contactId now
      have hActive : (({ w with activeContactId := contactId } : MainWindow).renderHistory contactId
          now).activeContactId = contactId := by rw [hLog]
      rw [hActive]
      exact messageLines_renderHistory (w := { w with activeContactId := contactId })
        (h.stamped contactId) now
  · rw [hHistory]
    exact h.nobody
  · rw [hHistory]
    exact h.stamped

/-- A recorded message is painted exactly if its conversation is open. -/
theorem Painted.recordMessage (h : w.Painted) (contactId : Bytes) {kind : ChatMessageKind}
    (hKind : kind ≠ .system) (peer text : WxString) {now : WxString} (hClock : now ≠ []) :
    (w.recordMessage contactId kind peer text now).Painted := by
  have hHistory := history_recordMessage w contactId kind peer text now
  by_cases hNil : contactId = []
  · have hSame : w.recordMessage contactId kind peer text now = w := by
      simp [MainWindow.recordMessage, hNil]
    rw [hSame]
    exact h
  · rw [if_neg hNil] at hHistory
    have hEntry : (⟨kind, peer, text, now⟩ : ChatEntry).Stamped := ⟨hKind, hClock⟩
    refine ⟨?_, ?_, ?_⟩
    · rw [hHistory]
      unfold MainWindow.recordMessage
      rw [if_neg hNil]
      dsimp only
      by_cases hActive : contactId = w.activeContactId
      · rw [if_pos hActive, messageLines_paint hEntry]
        show w.messageLines ++ _ = (Function.update w.history contactId
          (w.history contactId ++ [⟨kind, peer, text, now⟩]) w.activeContactId).map ChatEntry.line
        rw [← hActive, Function.update_self, List.map_append, h.lines, ← hActive]
        rfl
      · rw [if_neg hActive]
        show w.messageLines = (Function.update w.history contactId
          (w.history contactId ++ [⟨kind, peer, text, now⟩]) w.activeContactId).map ChatEntry.line
        rw [Function.update_of_ne (Ne.symm hActive)]
        exact h.lines
    · rw [hHistory, Function.update_of_ne (Ne.symm hNil)]
      exact h.nobody
    · intro key entry hMem
      rw [hHistory] at hMem
      by_cases hKey : key = contactId
      · subst hKey
        rw [Function.update_self, List.mem_append, List.mem_singleton] at hMem
        rcases hMem with hOld | rfl
        · exact h.stamped key entry hOld
        · exact hEntry
      · rw [Function.update_of_ne hKey] at hMem
        exact h.stamped key entry hMem

theorem Painted.sendCurrentMessage (h : w.Painted) {now : WxString} (hClock : now ≠ []) :
    (w.sendCurrentMessage sameItem now).Painted := by
  have hKind : ChatMessageKind.outgoing ≠ .system := by simp
  by_cases hBlank : w.recipient = [] ∨ w.messageInput = []
  · rw [sendCurrentMessage_of_blank sameItem hBlank]
    have hLine := h.appendSystemLine (wxT "[system] Enter a recipient and message text.") now
    exact hLine.of_eq rfl rfl rfl
  · rw [sendCurrentMessage_of_sends sameItem hBlank]
    have hCalled : ({ w with calls := w.calls ++ [ControllerCall.sendMessage
        (WxString.utf8_str w.recipient) (WxString.utf8_str w.messageInput)] } :
          MainWindow).Painted := h.of_eq rfl rfl rfl
    have hAdded := hCalled.addContactToList sameItem w.recipient
    have hOpened := hAdded.switchActiveContact (WxString.utf8_str w.recipient) now
    have hSent := hOpened.recordMessage (WxString.utf8_str w.recipient) hKind w.recipient
      w.messageInput hClock
    exact hSent.of_eq rfl rfl rfl

theorem Painted.onP2PMessageReceived (h : w.Painted) (event : MessageEvent) {now : WxString}
    (hClock : now ≠ []) : (w.onP2PMessageReceived sameItem event now).Painted := by
  have hKind : ChatMessageKind.incoming ≠ .system := by simp
  have hOpened (v : MainWindow) (hv : v.Painted) (contactId : Bytes) :
      (if v.activeContactId = [] then v.switchActiveContact contactId now else v).Painted := by
    split
    · exact hv.switchActiveContact contactId now
    · exact hv
  have hStatus (v : MainWindow) (hv : v.Painted) (status : WxString) (p : Prop) [Decidable p] :
      (if p then { v with statusBar := status } else v).Painted := by
    split
    · exact hv.of_eq rfl rfl rfl
    · exact hv
  have hAdded := h.addContactToList sameItem (w.sender event)
  have hRecorded := (hOpened _ hAdded (WxString.utf8_str (w.sender event))).recordMessage
    (WxString.utf8_str (w.sender event)) hKind (w.sender event)
    (parseMessageReceivedEvent event).2 hClock
  unfold MainWindow.onP2PMessageReceived
  dsimp only
  split
  · exact h.appendSystemLine _ now
  · exact hStatus _ hRecorded _ _

/-- Every handler leaves the chat log as a repaint would. -/
theorem Painted.step (h : w.Painted) {e : WxString × WindowEvent} (hClock : e.1 ≠ []) :
    (w.step sameItem e).Painted := by
  obtain ⟨now, e⟩ := e
  cases e with
  | type addContactInput peerIdInput messageInput => exact h.of_eq rfl rfl rfl
  | send => exact h.sendCurrentMessage sameItem hClock
  | addContact =>
    simp only [MainWindow.step, onAddContactClicked]
    split
    · exact h.appendSystemLine _ now
    · have hCalled : ({ w with calls := w.calls ++
          [ControllerCall.addContact (WxString.utf8_str (trimRight w.addContactInput))] } :
            MainWindow).Painted := h.of_eq rfl rfl rfl
      have hAdded := hCalled.addContactToList sameItem (trimRight w.addContactInput)
      refine Painted.appendSystemLine ?_ _ now
      exact hAdded.of_eq rfl rfl rfl
  | selectContact selection =>
    simp only [MainWindow.step, onContactSelected]
    split
    · exact h
    · refine Painted.switchActiveContact ?_ _ now
      exact h.of_eq rfl rfl rfl
  | changePeerId localPeerId answer =>
    simp only [MainWindow.step, onChangePeerId]
    split
    · exact h
    · split
      · exact h
      · rename_i value _
        have hCleared : ({ w with activeContactId := [], chatLog := [] } : MainWindow).Painted := by
          refine ⟨?_, h.nobody, h.stamped⟩
          show [] = (w.history []).map ChatEntry.line
          rw [h.nobody]
          rfl
        have hLine := hCleared.appendSystemLine (wxT "[system] Restarting network as " ++
          WxString.trimLeft (trimRight value) ++ wxT " …") now
        exact hLine.of_eq rfl rfl rfl
  | thread event localPeerId localPort =>
    cases event with
    | messageReceived event => exact h.onP2PMessageReceived sameItem event hClock
    | peerFound peerId => exact (h.addContactToList sameItem peerId).appendSystemLine _ now
    | networkStatus status => exact h.of_eq rfl rfl rfl
    | error payload =>
      have hLine := h.appendSystemLine (wxT "[error] " ++ (parseP2PErrorEvent payload).2) now
      exact hLine.of_eq rfl rfl rfl

/-! ## The messages of a run -/

theorem message_key_ne_nil {w : MainWindow} {e : WxString × WindowEvent} {m : Bytes × ChatEntry}
    (h : m ∈ w.message e) : m.1 ≠ [] := by
  unfold message at h
  split at h
  · split at h
    · cases h
    · rename_i hSends
      rw [List.mem_singleton.mp h]
      exact fun hNil => hSends (Or.inr (Or.inr hNil))
  · split at h
    · cases h
    · rename_i hKey
      rw [List.mem_singleton.mp h]
      exact hKey
  · cases h

/-! ## The messages handed to the controller -/

/-- The recipient and the text of a call that the controller passes on. -/
def sentCall : ControllerCall → Option (Bytes × Bytes)
  | .sendMessage toPeerId text => if toPeerId = [] then none else some (toPeerId, text)
  | _ => none

/-- The recipient and the text of an outgoing message. -/
def outgoing (m : Bytes × ChatEntry) : Option (Bytes × Bytes) :=
  if m.2.kind = .outgoing then some (m.1, WxString.utf8_str m.2.text) else none

theorem newCalls_sent (w : MainWindow) (e : WxString × WindowEvent) :
    (w.newCalls e).filterMap sentCall = (w.message e).filterMap outgoing := by
  obtain ⟨now, e⟩ := e
  cases e with
  | send =>
    simp only [newCalls, message]
    by_cases hBlank : w.recipient = [] ∨ w.messageInput = []
    · rcases hBlank with hBlank | hBlank <;> simp [hBlank]
    · rw [not_or] at hBlank
      by_cases hNil : WxString.utf8_str w.recipient = []
      · simp [hBlank, hNil, sentCall]
      · simp [hBlank, hNil, sentCall, outgoing]
  | addContact =>
    simp only [newCalls, message]
    split <;> rfl
  | changePeerId localPeerId answer =>
    cases answer with
    | none => rfl
    | some value =>
      simp only [newCalls, message]
      split <;> rfl
  | thread event localPeerId localPort =>
    cases event with
    | messageReceived event =>
      simp only [newCalls, message]
      split
      · rfl
      · simp [outgoing]
    | _ => rfl
  | _ => rfl

/-- What an event sends is what it hands to the controller. -/
theorem step_sentCalls (w : MainWindow) (e : WxString × WindowEvent) :
    (w.step sameItem e).calls.filterMap sentCall =
      w.calls.filterMap sentCall ++ (w.message e).filterMap outgoing := by
  rw [step_calls, List.filterMap_append, newCalls_sent]

/-! ## Every run -/

/-- As long as the clock shows something, the message lines of the chat log are those of the
open conversation, and none if none is open. The messages sent and received, in order, have
a key each, and every conversation is the part of them with its key; the sent ones are those
handed to the controller. -/
theorem chatLog_shows_conversation {es : List (WxString × WindowEvent)}
    (hClock : ∀ e ∈ es, e.1 ≠ []) :
    let w := run (step sameItem) {} es
    let messages := added (step sameItem) message {} es
    w.messageLines =
        (if w.activeContactId = [] then [] else (w.history w.activeContactId).map ChatEntry.line) ∧
      (∀ m ∈ messages, m.1 ≠ []) ∧
      (∀ key, w.history key = messages.filterMap (entryOf key)) ∧
      w.calls.filterMap sentCall = messages.filterMap outgoing := by
  intro w messages
  have hPainted : w.Painted := by
    have hStart : ({} : MainWindow).Painted := by
      refine ⟨rfl, rfl, ?_⟩
      intro key entry hMem
      cases hMem
    exact run_invariant_along (fun _ e h hNow => h.step sameItem hNow) hStart
      (along_of_forall_mem hClock _)
  refine ⟨?_, ?_, ?_, ?_⟩
  · rw [hPainted.lines]
    split
    · rename_i hNone
      rw [hNone, hPainted.nobody]
      rfl
    · rfl
  · exact forall_mem_added (f := message) (fun _ _ _ hMem => message_key_ne_nil hMem) _ es
  · intro key
    have hHistory := history_run (f := fun w : MainWindow => w.history key)
      (fun w e => step_history sameItem w e key) {} es
    have hAdded : added (step sameItem) (fun w e => w.newEntries e key) {} es =
        messages.filterMap (entryOf key) :=
      added_filterMap (fun w e => newEntries_eq w e key) _ es
    exact (hHistory.trans (List.nil_append _)).trans hAdded
  · have hCalls := history_run (f := fun w : MainWindow => w.calls.filterMap sentCall)
      (step_sentCalls sameItem) {} es
    have hAdded : added (step sameItem) (fun w e => (w.message e).filterMap outgoing) {} es =
        messages.filterMap outgoing := added_filterMap (fun _ _ => rfl) _ es
    exact (hCalls.trans (List.nil_append _)).trans hAdded

/-- A message to Bob, one from Alice, her conversation and his again. -/
def switchBack : List (WxString × WindowEvent) :=
  [(wxT "12:00:00", .type [] (wxT "bob") (wxT "hi")),
    (wxT "12:00:01", .send),
    (wxT "12:00:02", .thread (.messageReceived (messageEvent (bytes "alice") (bytes "hello")))
      (bytes "me") 4222),
    (wxT "12:00:03", .selectContact 1),
    (wxT "12:00:04", .selectContact 0)]

theorem bob_shown_again :
    (run (step (· == ·)) {} switchBack).messageLines =
      [(.outgoing, wxT "12:00:01  [you -> bob] hi")] := by
  have hClock : ∀ e ∈ switchBack, e.1 ≠ [] := by
    intro e hMem
    simp only [switchBack, List.mem_cons, List.not_mem_nil, or_false] at hMem
    rcases hMem with rfl | rfl | rfl | rfl | rfl <;> decide
  have hShown := (chatLog_shows_conversation (· == ·) hClock).1
  rw [hShown]
  decide +kernel

end MainWindow

end P2PMessenger
