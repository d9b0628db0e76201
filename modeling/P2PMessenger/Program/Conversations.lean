import P2PMessenger.Program.Messenger
import P2PMessenger.Network.Peers

/-!
# Conversations and reports

The incoming side of every conversation is what the node reported under that sender, in the
same order, up to the event that the window has come to: nothing is dropped between the node
and the window, nothing is shown twice, and nobody else's text gets in. The ids of the
senders have to be UTF-8 without a zero byte, since the window keys its conversations by
texts.
-/

namespace P2PMessenger

open Text Crypto Run

namespace P2PNode

/-- Every sender that is looked up or reported is a trimmed id. -/
structure TrimsSenders (n : P2PNode) : Prop where
  gets : ∀ g ∈ n.dht.gets, ∀ senderId packet, g.callback = .onSenderProfileFound senderId packet →
    trim isSpace senderId = senderId ∧ senderId ≠ []
  reports : ∀ r ∈ n.reports, trim isSpace r.fromPeerId = r.fromPeerId ∧ r.fromPeerId ≠ []

variable (S : Sodium)

theorem TrimsSenders.step {n : P2PNode} (h : n.TrimsSenders) (e : Event) :
    (n.step S e).TrimsSenders := by
  constructor
  · intro g hg senderId packet hCallback
    rcases mem_step_gets S hg with ⟨flag, hOld⟩ | ⟨toPeerId, text, -, hSend⟩ | ⟨userId, -, hFind⟩ |
      ⟨values, -, hNew⟩
    · exact h.gets _ hOld senderId packet hCallback
    · rw [hSend] at hCallback
      cases hCallback
    · rw [hFind] at hCallback
      cases hCallback
    · obtain ⟨payload, sender, packet', body, -, hGet, hParse, -⟩ := mem_valueGets hNew
      rw [hGet] at hCallback
      obtain ⟨rfl, rfl⟩ := Callback.onSenderProfileFound.inj hCallback
      exact ⟨trim_senderId hParse, senderId_ne_nil hParse⟩
  · intro r hr
    rw [step_reports, List.mem_append] at hr
    rcases hr with hOld | hNew
    · exact h.reports r hOld
    · obtain ⟨op, values, io, senderId, packet, key, -, hAction, -, -, hReport⟩ :=
        mem_newReports S hNew
      obtain ⟨-, hMem, -⟩ := of_pending (pending_of_decrypt hAction).1
      rw [hReport]
      exact h.gets _ hMem senderId packet rfl

theorem trimsSenders_run (es : List Event) : (run (step S) {} es).TrimsSenders :=
  run_invariant (fun _ e h => h.step S e) ⟨fun _ hg => (nomatch hg), fun _ hr => (nomatch hr)⟩ es

end P2PNode

/-- An id that comes back unchanged from the window. -/
def Readable (id : Bytes) : Prop := 0 ∉ id ∧ (decode? id).isSome = true

instance (id : Bytes) : Decidable (Readable id) := inferInstanceAs (Decidable (_ ∧ _))

namespace MainWindow

/-- The texts of one side of a conversation. -/
def texts (w : MainWindow) (kind : ChatMessageKind) (key : Bytes) : List WxString :=
  ((w.history key).filter fun entry => entry.kind = kind).map ChatEntry.text

theorem filedUnder_readable {senderId : Bytes} (hTrim : trim isSpace senderId = senderId)
    (hne : senderId ≠ []) (hReadable : Readable senderId) (w : MainWindow) (text : Bytes) :
    w.filedUnder (messageEvent senderId text) = senderId := by
  have hBack := WxString.utf8_str_trimRight_fromUTF8 hTrim hReadable.1 hReadable.2
  have hRead : WxString.fromUTF8 senderId ≠ [] := by
    intro hNil
    rw [hNil] at hBack
    exact hne hBack.symm
  exact (filedUnder_of_read hTrim hRead text w).1.trans hBack

end MainWindow

namespace Messenger

/-- The texts of a list of messages under a sender, as the window shows them. -/
def shown (messages : List (Bytes × Bytes)) (senderId : Bytes) : List WxString :=
  (messages.filter fun p => p.1 = senderId).map fun p => WxString.fromUTF8 p.2

theorem shown_append (messages more : List (Bytes × Bytes)) (senderId : Bytes) :
    shown (messages ++ more) senderId = shown messages senderId ++ shown more senderId := by
  simp [shown]

/-- One handled event adds what it brings to the conversation of its sender. -/
theorem incoming_newEntries (m : Messenger) (e : WxString × Input)
    (hSenders : ∀ p ∈ (m.newHandled e.2).toList.filterMap P2PNode.messageOf,
      trim isSpace p.1 = p.1 ∧ p.1 ≠ [] ∧ Readable p.1) (key : Bytes) :
    ((m.newEntries e key).filter fun entry => entry.kind = .incoming).map ChatEntry.text =
      shown ((m.newHandled e.2).toList.filterMap P2PNode.messageOf) key := by
  obtain ⟨now, input⟩ := e
  cases input with
  | nextEvent =>
    simp only [newEntries, windowEvent, newHandled] at hSenders ⊢
    cases hEvent : m.pendingEvent with
    | none => rfl
    | some event =>
      cases event with
      | messageReceived senderId text =>
        rw [hEvent] at hSenders
        obtain ⟨hTrim, hne, hReadable⟩ := hSenders (senderId, text) List.mem_cons_self
        have hKey := MainWindow.filedUnder_readable hTrim hne hReadable m.window text
        have hText : (parseMessageReceivedEvent (MainWindow.messageEvent senderId text)).2 =
            WxString.fromUTF8 text := rfl
        simp only [Option.map_some, MainWindow.queued_messageReceived, MainWindow.newEntries, hKey,
          hText]
        by_cases hSame : key = senderId
        · subst hSame
          simp [hne, shown, P2PNode.messageOf]
        · simp [hSame, Ne.symm hSame, shown, P2PNode.messageOf]
      | _ => rfl
  | send op =>
    simp only [newEntries, windowEvent, newHandled, MainWindow.newEntries]
    split <;> rfl
  | _ => rfl

variable (sameItem : WxString → WxString → Bool) (S : Sodium)

/-- The pairs of a sender and a text that the node has reported. -/
def reported (m : Messenger) : List (Bytes × Bytes) :=
  m.system.app.node.reports.map fun r => (r.fromPeerId, r.text)

/-- How many messages of the node the window has handled. -/
def handledMessages (m : Messenger) : Nat :=
  (m.handledEvents.filterMap P2PNode.messageOf).length

theorem texts_step (m : Messenger) (e : WxString × Input) (kind : ChatMessageKind) (key : Bytes) :
    (m.step sameItem S e).window.texts kind key =
      m.window.texts kind key ++
        ((m.newEntries e key).filter fun entry => entry.kind = kind).map ChatEntry.text := by
  simp only [MainWindow.texts, step_history, List.filter_append, List.map_append]

section Launched

variable (peerId : Bytes) (port : Nat) (bootstrapHost bootstrapPort : Bytes)

/-- What a launched program has become. -/
def launched (es : List (WxString × Input)) : Messenger :=
  run (step sameItem S) (launch peerId port bootstrapHost bootstrapPort) es

theorem launched_snoc (es : List (WxString × Input)) (e : WxString × Input) :
    launched sameItem S peerId port bootstrapHost bootstrapPort (es ++ [e]) =
      (launched sameItem S peerId port bootstrapHost bootstrapPort es).step sameItem S e :=
  run_snoc _ es e

/-- The node of a launched program is one that started anew. -/
theorem launched_node (es : List (WxString × Input)) :
    ∃ events, (launched sameItem S peerId port bootstrapHost bootstrapPort es).system.app.node =
      run (P2PNode.step S) {} events := by
  refine ⟨[.setNodeConfig port (configuredId peerId), .setBootstrapHost bootstrapHost] ++
    added (step sameItem S) (nodeEvents sameItem S)
      (launch peerId port bootstrapHost bootstrapPort) es, ?_⟩
  rw [launched, run_node, launch_node S, run_append]

theorem launched_messages (es : List (WxString × Input)) :
    (launched sameItem S peerId port bootstrapHost bootstrapPort es).system.app.node.ui.filterMap
        P2PNode.messageOf =
      (launched sameItem S peerId port bootstrapHost bootstrapPort es).reported := by
  obtain ⟨events, hNode⟩ := launched_node sameItem S peerId port bootstrapHost bootstrapPort es
  rw [reported, hNode]
  exact P2PNode.messages_run S events

theorem launched_trims (es : List (WxString × Input)) :
    ∀ p ∈ (launched sameItem S peerId port bootstrapHost bootstrapPort es).reported,
      trim isSpace p.1 = p.1 ∧ p.1 ≠ [] := by
  obtain ⟨events, hNode⟩ := launched_node sameItem S peerId port bootstrapHost bootstrapPort es
  intro p hp
  rw [reported, hNode] at hp
  obtain ⟨r, hr, rfl⟩ := List.mem_map.mp hp
  exact (P2PNode.trimsSenders_run S events).reports r hr

theorem launched_handled_le (es : List (WxString × Input)) :
    (launched sameItem S peerId port bootstrapHost bootstrapPort es).handled ≤
      (launched sameItem S peerId port bootstrapHost bootstrapPort es).system.app.node.ui.length :=
  handled_le sameItem S _ (Nat.zero_le _) es

theorem reported_subset_step (m : Messenger) (e : WxString × Input) :
    ∀ p ∈ m.reported, p ∈ (m.step sameItem S e).reported := by
  intro p hp
  rw [reported, step_node, history_run (f := P2PNode.reports) (P2PNode.step_reports S),
    List.map_append]
  exact List.mem_append_left _ hp

theorem texts_incoming {es : List (WxString × Input)}
    (hReadable : ∀ p ∈ (launched sameItem S peerId port bootstrapHost bootstrapPort es).reported,
      Readable p.1) (key : Bytes) :
    (launched sameItem S peerId port bootstrapHost bootstrapPort es).window.texts .incoming key =
      shown ((launched sameItem S peerId port bootstrapHost bootstrapPort
        es).handledEvents.filterMap P2PNode.messageOf) key := by
  induction es using List.reverseRecOn with
  | nil => rfl
  | append_singleton es e ih =>
    rw [launched_snoc] at hReadable ⊢
    have hMessages := launched_messages sameItem S peerId port bootstrapHost bootstrapPort es
    have hTrims := launched_trims sameItem S peerId port bootstrapHost bootstrapPort es
    have hLe := launched_handled_le sameItem S peerId port bootstrapHost bootstrapPort es
    generalize launched sameItem S peerId port bootstrapHost bootstrapPort es = m at *
    have hOld : ∀ p ∈ m.reported, Readable p.1 := fun p hp =>
      hReadable p (reported_subset_step sameItem S m e p hp)
    rw [texts_step, handledEvents_step sameItem S hLe, List.filterMap_append, shown_append, ih hOld,
      incoming_newEntries]
    intro p hp
    obtain ⟨event, hNew, hMessage⟩ := List.mem_filterMap.mp hp
    have hReported : p ∈ m.reported := by
      rw [← hMessages]
      exact List.mem_filterMap.mpr ⟨event, mem_ui_of_newHandled hNew, hMessage⟩
    exact ⟨(hTrims p hReported).1, (hTrims p hReported).2, hOld p hReported⟩

/-- In every run of a launched program, whose senders are readable, the incoming side of each
conversation is what the node reported under that sender, text by text and in that order, as
far as the window has handled the messages of the node; it has handled all of them once no
event is waiting. -/
theorem conversations_are_reports {es : List (WxString × Input)}
    (hReadable : ∀ r ∈ (launched sameItem S peerId port bootstrapHost bootstrapPort
      es).system.app.node.reports, Readable r.fromPeerId) :
    (∀ senderId,
        (launched sameItem S peerId port bootstrapHost bootstrapPort es).window.texts .incoming
            senderId =
          (((launched sameItem S peerId port bootstrapHost bootstrapPort
            es).system.app.node.reports.take
              (launched sameItem S peerId port bootstrapHost bootstrapPort
                es).handledMessages).filter fun r => r.fromPeerId = senderId).map
              fun r => WxString.fromUTF8 r.text) ∧
      ((launched sameItem S peerId port bootstrapHost bootstrapPort es).pendingEvent = none →
        (launched sameItem S peerId port bootstrapHost bootstrapPort es).handledMessages =
          (launched sameItem S peerId port bootstrapHost bootstrapPort
            es).system.app.node.reports.length) := by
  have hPairs : ∀ p ∈ (launched sameItem S peerId port bootstrapHost bootstrapPort es).reported,
      Readable p.1 := by
    intro p hp
    obtain ⟨r, hr, rfl⟩ := List.mem_map.mp hp
    exact hReadable r hr
  have hTexts := texts_incoming sameItem S peerId port bootstrapHost bootstrapPort hPairs
  have hMessages := launched_messages sameItem S peerId port bootstrapHost bootstrapPort es
  generalize launched sameItem S peerId port bootstrapHost bootstrapPort es = m at *
  have hPrefix : m.handledEvents.filterMap P2PNode.messageOf <+: m.reported := by
    rw [← hMessages]
    exact (List.take_prefix m.handled _).filterMap P2PNode.messageOf
  constructor
  · intro senderId
    have hTake : m.handledEvents.filterMap P2PNode.messageOf =
        (m.system.app.node.reports.take m.handledMessages).map
          fun r => (r.fromPeerId, r.text) :=
      (List.prefix_iff_eq_take.mp hPrefix).trans List.map_take.symm
    calc m.window.texts .incoming senderId
        _ = shown (m.handledEvents.filterMap P2PNode.messageOf) senderId := hTexts senderId
        _ = shown ((m.system.app.node.reports.take m.handledMessages).map
              fun r => (r.fromPeerId, r.text)) senderId :=
          congrArg (fun messages => shown messages senderId) hTake
        _ = _ := by
          rw [shown, List.filter_map, List.map_map]
          rfl
  · intro hNone
    have hAll : m.handledEvents = m.system.app.node.ui :=
      List.take_of_length_le (List.getElem?_eq_none_iff.mp hNone)
    rw [handledMessages, hAll, hMessages, reported, List.length_map]

end Launched

/-- Bob's program, as it starts, receives a message from Alice and shows it. -/
def bobReads (es : List (WxString × Input)) : Messenger :=
  launched (· == ·) .additive (bytes "bob") 4222 (bytes "127.0.0.1") (bytes "0") es

def helloFromAlice : List (WxString × Input) :=
  let hi := fullPayload Peer.alice.launch.userId (Peer.aliceSealed (bytes "hi") Peer.noon)
  let start : List Input := List.replicate 4 (.work Peer.bob.launch.io)
  let receive : List Input :=
    [.inbox [(0, hi)] false, .lookup 0 [Peer.alice.profile] Peer.noon]
  let handle : List Input := List.replicate 4 .nextEvent
  (start ++ receive ++ handle).map fun input => (wxT "12:00:00", input)

theorem bob_shows_hello :
    ((∀ senderId, (bobReads helloFromAlice).window.texts .incoming senderId =
        (((bobReads helloFromAlice).system.app.node.reports.take
          (bobReads helloFromAlice).handledMessages).filter
            fun r => r.fromPeerId = senderId).map fun r => WxString.fromUTF8 r.text) ∧
      ((bobReads helloFromAlice).pendingEvent = none →
        (bobReads helloFromAlice).handledMessages =
          (bobReads helloFromAlice).system.app.node.reports.length)) ∧
    (bobReads helloFromAlice).window.texts .incoming (bytes "alice") = [wxT "hi"] :=
  ⟨conversations_are_reports (· == ·) .additive (bytes "bob") 4222 (bytes "127.0.0.1") (bytes "0")
    (by decide +kernel), by decide +kernel⟩

end Messenger

end P2PMessenger
