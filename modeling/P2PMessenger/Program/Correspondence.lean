import P2PMessenger.Program.Conversations
import P2PMessenger.Controller.Identity
import P2PMessenger.Network.Channel
import P2PMessenger.Window.CanonicalId

/-!
# Two windows

From the text typed into one window to the entry in another. Programs run side by side over a
DHT that may lose, repeat and reorder values but invents none; each keeps the id and the keys
it was launched with. Then the incoming side of a conversation is, with multiplicity, among
the outgoing side of the same conversation in the window of the other peer.
-/

namespace P2PMessenger

open Text Crypto Run

/-! ## Actions that keep a peer what it is -/

/-- The node is started with the keys of the peer, asks for users of the given set, and is not
renamed. -/
def Action.Expected (l : Launch) (ids : Set Bytes) (s : System) : Action → Prop
  | .work io => s.todo.head? = some .startNode → (initKeys io).1 = l.node.myKeys
  | .changePeerId _ => False
  | .sendMessage _ toPeerId _ => trim isSpace toPeerId ≠ [] → trim isSpace toPeerId ∈ ids
  | .addContact _ peerId => peerId ≠ [] → peerId ∈ ids
  | _ => True

instance (l : Launch) (ids : Set Bytes) [DecidablePred (· ∈ ids)] (s : System) (action : Action) :
    Decidable (action.Expected l ids s) := by
  cases action <;> unfold Action.Expected <;> infer_instance

namespace System

/-- The system of a peer: in order, never renamed, with a node that is the peer's own. -/
structure Belongs (l : Launch) (s : System) : Prop where
  order : s.InOrder
  unnamed : ∀ peerId, .configure peerId ∉ s.todo
  genuine : s.app.node.Genuine l

variable {l : Launch} {ids : Set Bytes} {s : System}

theorem Belongs.peerId (h : s.Belongs l) : s.app.peerId = l.userId := by
  obtain ⟨t, hHeading⟩ := h.order.heading
  exact (hHeading.steady.myId_eq h.order.one).symm.trans h.genuine.myId

theorem Belongs.orderly (h : s.Belongs l) {action : Action} (hExpected : action.Expected l ids s) :
    action.Orderly s := by
  cases action with
  | changePeerId newPeerId => exact hExpected.elim
  | refreshProfile =>
    intro _
    by_cases hNone : s.app.node.currentProfile.userId = []
    · exact Or.inl hNone
    · exact Or.inr ((h.genuine.profile hNone).trans h.peerId.symm)
  | _ => trivial

/-- The queue is in order, so a profile is published amid a start, under the peer's id. -/
theorem Belongs.permitted (h : s.Belongs l) {action : Action}
    (hExpected : action.Expected l ids s) :
    ∀ event ∈ s.nodeEvent action, event.Permitted l ids s.app.node := by
  intro event hEvent
  cases action with
  | work io =>
    obtain ⟨task, hTask, hTaskEvent⟩ := Option.bind_eq_some_iff.mp hEvent
    obtain ⟨rest, hTodo⟩ := List.head?_eq_some_iff.mp hTask
    cases task with
    | stop =>
      simp only [AppController.taskEvent] at hTaskEvent
      split at hTaskEvent
      · obtain rfl := Option.some.inj hTaskEvent
        trivial
      · cases hTaskEvent
    | configure peerId =>
      exact absurd (by rw [hTodo]; exact List.mem_cons_self) (h.unnamed peerId)
    | startNode =>
      obtain rfl := Option.some.inj hTaskEvent
      exact hExpected hTask
    | publishProfile profile =>
      obtain rfl := Option.some.inj hTaskEvent
      obtain ⟨t, hHeading⟩ := h.order.heading
      obtain ⟨next, hNext, -⟩ := hHeading.next hTodo
      obtain ⟨⟨hPhase, hOwn⟩, -⟩ := Option.ite_none_right_eq_some.mp hNext
      exact ⟨(AppController.phase_eq_starting.mp hPhase).2, hOwn.trans h.peerId⟩
    | bootstrap host port =>
      obtain rfl := Option.some.inj hTaskEvent
      trivial
    | start bootstrapHost bootstrapPort => cases hTaskEvent
    | setRunning => cases hTaskEvent
  | changePeerId newPeerId => exact hExpected.elim
  | close => cases hEvent
  | sendMessage op toPeerId text =>
    obtain ⟨hSends, hSame⟩ := Option.ite_none_left_eq_some.mp hEvent
    obtain rfl := Option.some.inj hSame
    exact hExpected hSends
  | addContact op peerId =>
    obtain ⟨hAsks, hSame⟩ := Option.ite_none_left_eq_some.mp hEvent
    obtain rfl := Option.some.inj hSame
    exact hExpected hAsks
  | _ =>
    obtain rfl := Option.some.inj hEvent
    trivial

variable (S : Sodium)

theorem unnamed_step (h : ∀ peerId, .configure peerId ∉ s.todo) {action : Action}
    (hExpected : action.Expected l ids s) (peerId : Bytes) :
    .configure peerId ∉ (s.step S action).todo := by
  rcases step_cases S s action with ⟨io, rfl⟩ | ⟨newPeerId, rfl⟩ | rfl |
    ⟨-, hSame | ⟨e, contacts, -, -, -, hStep⟩⟩
  · show .configure peerId ∉ (s.work io).todo
    cases hTodo : s.todo with
    | nil => simp [work, hTodo]
    | cons task rest =>
      have hRest : .configure peerId ∉ rest := fun hMem =>
        h peerId (hTodo ▸ List.mem_cons_of_mem task hMem)
      rw [work_of_todo hTodo]
      exact fun hMem => (List.mem_append.mp hMem).elim
        (configure_not_mem_perform s.app io task peerId) hRest
  · exact hExpected.elim
  · simp only [step, close]
    split
    · exact h peerId
    · simpa using h peerId
  · rw [hSame]
    exact h peerId
  · rw [hStep]
    exact h peerId

theorem Belongs.step (h : s.Belongs l) {action : Action} (hExpected : action.Expected l ids s) :
    (s.step S action).Belongs l where
  order := h.order.step S (h.orderly hExpected)
  unnamed := unnamed_step S h.unnamed hExpected
  genuine := by
    rw [step_node]
    cases hEvent : s.nodeEvent action with
    | none => exact h.genuine
    | some event => exact h.genuine.step S (h.permitted hExpected event hEvent)

end System

namespace Messenger

/-- The texts that `SendCurrentMessage` reads are texts of a control, without a zero character. -/
def Plain (w : MainWindow) : Input → Prop
  | .send _ => '\x00' ∉ w.peerIdInput ∧ '\x00' ∉ w.messageInput
  | _ => True

instance (w : MainWindow) (input : Input) : Decidable (Plain w input) := by
  cases input <;> unfold Plain <;> infer_instance

variable (sameItem : WxString → WxString → Bool) (S : Sodium)

/-- An input is at most one action of the system. -/
theorem exists_action (m : Messenger) (now : WxString) (input : Input) :
    ∃ action : Option Action, m.actions sameItem now input = action.toList := by
  have hHandler (op : Nat) (input : Input) {event : WindowEvent}
      (hEvent : m.windowEvent input = some event) :
      ∃ action : Option Action,
        (m.handlerCalls sameItem now input).map (ControllerCall.action op) = action.toList := by
    have hCalls : ∃ call : Option ControllerCall, m.window.newCalls (now, event) = call.toList := by
      unfold MainWindow.newCalls
      split
      · split
        · exact ⟨none, rfl⟩
        · exact ⟨some _, rfl⟩
      · split
        · exact ⟨none, rfl⟩
        · exact ⟨some _, rfl⟩
      · split
        · exact ⟨none, rfl⟩
        · exact ⟨some _, rfl⟩
      · exact ⟨none, rfl⟩
    obtain ⟨call, hCall⟩ := hCalls
    rw [handlerCalls_eq sameItem m input hEvent, hCall]
    exact ⟨call.map (ControllerCall.action op), by cases call <;> rfl⟩
  cases input with
  | send op => exact hHandler op (.send op) rfl
  | addContact op => exact hHandler op (.addContact op) rfl
  | changePeerId localPeerId answer => exact hHandler 0 (.changePeerId localPeerId answer) rfl
  | connect hostInput portInput =>
    simp only [actions]
    split
    · exact ⟨none, rfl⟩
    · exact ⟨some _, rfl⟩
  | type addContactInput peerIdInput messageInput => exact ⟨none, rfl⟩
  | selectContact selection => exact ⟨none, rfl⟩
  | nextEvent => exact ⟨none, rfl⟩
  | _ => exact ⟨some _, rfl⟩

/-- An input is at most one event of the node. -/
theorem nodeEvents_eq (m : Messenger) (e : WxString × Input) (action : Option Action)
    (h : m.actions sameItem e.1 e.2 = action.toList) :
    m.nodeEvents sameItem S e = (action.bind m.system.nodeEvent).toList := by
  rw [nodeEvents, h]
  cases action with
  | none => rfl
  | some action => simp [System.nodeEvents, added]

/-! ## What is sent and what is shown -/

theorem textFor_of_nodeEvent {s : System} {action : Action} {event : Event}
    (h : event ∈ s.nodeEvent action) (hSend : ∀ op toPeerId text,
      action ≠ .sendMessage op toPeerId text) (receiverId : Bytes) :
    event.textFor receiverId = none := by
  cases action with
  | sendMessage op toPeerId text => exact absurd rfl (hSend op toPeerId text)
  | work io =>
    obtain ⟨task, -, hTaskEvent⟩ := Option.bind_eq_some_iff.mp h
    cases task with
    | stop =>
      simp only [AppController.taskEvent] at hTaskEvent
      split at hTaskEvent
      · obtain rfl := Option.some.inj hTaskEvent
        rfl
      · cases hTaskEvent
    | start bootstrapHost bootstrapPort => cases hTaskEvent
    | setRunning => cases hTaskEvent
    | _ =>
      obtain rfl := Option.some.inj hTaskEvent
      rfl
  | addContact op peerId =>
    obtain ⟨-, hSame⟩ := Option.ite_none_left_eq_some.mp h
    obtain rfl := Option.some.inj hSame
    rfl
  | changePeerId newPeerId => cases h
  | close => cases h
  | _ =>
    obtain rfl := Option.some.inj h
    rfl

theorem trimRight_recipient (w : MainWindow) : trimRight w.recipient = w.recipient := by
  apply rdropWhile_eq_self
  intro c hLast
  obtain ⟨rest, hRest⟩ := List.dropWhile_suffix (l := trimRight w.peerIdInput) isSpaceChar
  have hLast' : (trimRight w.peerIdInput).getLast? = some c := by
    rw [← hRest, List.getLast?_append]
    exact congrArg (Option.or · _) hLast
  exact getLast?_rdropWhile hLast'

/-- A plain recipient goes through the window and the controller as it is. -/
theorem trim_recipient {w : MainWindow} (hPlain : '\x00' ∉ w.peerIdInput) :
    WxString.utf8_str w.recipient = encode w.recipient ∧
      trim isSpace (encode w.recipient) = encode w.recipient := by
  have hMem : '\x00' ∉ w.recipient := by
    intro hMem
    have hTrimmed : '\x00' ∈ trimRight w.peerIdInput := (List.dropWhile_suffix _).subset hMem
    exact hPlain ((List.rdropWhile_prefix _ _).subset hTrimmed)
  exact ⟨MainWindow.utf8_str_of_no_zero hMem,
    trim_encode (List.dropWhile_idempotent _ _) (trimRight_recipient w)⟩

theorem fromUTF8_utf8_str {cs : WxString} (h : '\x00' ∉ cs) :
    WxString.fromUTF8 (WxString.utf8_str cs) = cs := by
  rw [MainWindow.utf8_str_of_no_zero h]
  exact WxString.fromUTF8_of_valid (mt zero_mem_encode.mp h) (decode?_encode cs)

theorem not_send_of_mem_actions {m : Messenger} {now : WxString} {input : Input}
    (hInput : ∀ op, input ≠ .send op) {action : Action}
    (h : action ∈ m.actions sameItem now input) (op : Nat) (toPeerId text : Bytes) :
    action ≠ .sendMessage op toPeerId text := by
  cases input with
  | send op => exact absurd rfl (hInput op)
  | addContact op =>
    simp only [actions, handlerCalls_eq sameItem m (.addContact op) rfl,
      MainWindow.newCalls] at h
    split at h
    · cases h
    · rw [List.mem_singleton.mp h]
      exact Action.noConfusion
  | changePeerId localPeerId answer =>
    simp only [actions,
      handlerCalls_eq sameItem m (.changePeerId localPeerId answer) rfl] at h
    cases answer with
    | none => cases h
    | some value =>
      simp only [MainWindow.newCalls] at h
      split at h
      · cases h
      · rw [List.mem_singleton.mp h]
        exact Action.noConfusion
  | connect hostInput portInput =>
    simp only [actions] at h
    split at h
    · cases h
    · rw [List.mem_singleton.mp h]
      exact Action.noConfusion
  | type addContactInput peerIdInput messageInput => cases h
  | selectContact selection => cases h
  | nextEvent => cases h
  | _ =>
    rw [List.mem_singleton.mp h]
    exact Action.noConfusion

/-- What an input enters on the outgoing side is what it asks the node to send. -/
theorem outgoing_newEntries {m : Messenger} {e : WxString × Input} (hPlain : Plain m.window e.2)
    (key : Bytes) :
    ((m.newEntries e key).filter fun entry => entry.kind = .outgoing).map ChatEntry.text =
      ((m.nodeEvents sameItem S e).filterMap fun event => event.textFor key).map
        WxString.fromUTF8 := by
  obtain ⟨now, input⟩ := e
  by_cases hInput : ∃ op, input = .send op
  · obtain ⟨op, rfl⟩ := hInput
    have hActions : m.actions sameItem now (.send op) =
        (m.window.newCalls (now, .send)).map (ControllerCall.action op) :=
      congrArg (List.map (ControllerCall.action op))
        (handlerCalls_eq sameItem m (.send op) rfl now)
    obtain ⟨hRecipient, hTrim⟩ := trim_recipient hPlain.1
    show ((m.window.newEntries (now, .send) key).filter _).map ChatEntry.text = _
    rw [MainWindow.newEntries_eq]
    simp only [MainWindow.newCalls] at hActions
    simp only [MainWindow.message]
    by_cases hBlank : m.window.recipient = [] ∨ m.window.messageInput = []
    · rw [if_pos hBlank] at hActions
      rw [if_pos (or_assoc.mp (Or.inl hBlank)),
        nodeEvents_eq sameItem S m (now, .send op) none hActions]
      rfl
    · have hne : encode m.window.recipient ≠ [] := fun hNil =>
        hBlank (Or.inl (encode_eq_nil.mp hNil))
      have hText : WxString.fromUTF8 (WxString.utf8_str m.window.messageInput) =
          m.window.messageInput := fromUTF8_utf8_str hPlain.2
      rw [if_neg hBlank] at hActions
      rw [nodeEvents_eq sameItem S m (now, .send op) (some _) hActions,
        if_neg (by rw [← or_assoc, hRecipient]; exact not_or.mpr ⟨hBlank, hne⟩)]
      simp only [ControllerCall.action, Option.bind_some, System.nodeEvent, hRecipient, hTrim, hne,
        if_false, MainWindow.entryOf, Event.textFor, Option.toList_some]
      by_cases hKey : encode m.window.recipient = key
      · simp [hKey, MainWindow.entryOf, hText]
      · simp [hKey, MainWindow.entryOf]
  · have hSilent : (m.nodeEvents sameItem S (now, input)).filterMap
        (fun event => event.textFor key) = [] := by
      rw [List.filterMap_eq_nil_iff]
      intro event hEvent
      obtain ⟨action, hAction⟩ := exists_action sameItem m now input
      rw [nodeEvents_eq sameItem S m (now, input) action hAction, Option.mem_toList] at hEvent
      obtain ⟨action, rfl, hNode⟩ := Option.bind_eq_some_iff.mp hEvent
      refine textFor_of_nodeEvent hNode ?_ key
      exact not_send_of_mem_actions sameItem (fun op hSend => hInput ⟨op, hSend⟩)
        (by rw [hAction]; exact List.mem_singleton_self action)
    rw [hSilent, List.map_nil, List.map_eq_nil_iff, List.filter_eq_nil_iff]
    intro entry hEntry
    cases input with
    | send op => exact absurd ⟨op, rfl⟩ hInput
    | nextEvent =>
      simp only [newEntries, windowEvent] at hEntry
      cases hEvent : m.pendingEvent with
      | none =>
        rw [hEvent] at hEntry
        cases hEntry
      | some event =>
        rw [hEvent] at hEntry
        cases event with
        | messageReceived senderId text =>
          simp only [Option.map_some, MainWindow.queued_messageReceived,
            MainWindow.newEntries] at hEntry
          split at hEntry
          · cases hEntry
          · rw [List.mem_singleton.mp hEntry]
            simp
        | _ => cases hEntry
    | _ => cases hEntry

/-- The outgoing side of a conversation is what the node was asked to send to that peer. -/
theorem texts_outgoing {m : Messenger} {es : List (WxString × Input)}
    (hPlain : Along (step sameItem S) (fun m e => Plain m.window e.2) m es) (key : Bytes) :
    (run (step sameItem S) m es).window.texts .outgoing key =
      m.window.texts .outgoing key ++
        ((added (step sameItem S) (nodeEvents sameItem S) m es).filterMap
          fun event => event.textFor key).map WxString.fromUTF8 := by
  induction es generalizing m with
  | nil => exact (List.append_nil _).symm
  | cons e es ih =>
    rw [run_cons, ih hPlain.2, texts_step, outgoing_newEntries sameItem S hPlain.1, added,
      List.filterMap_append, List.map_append, List.append_assoc]

/-- What has been shown of a sender is among what was reported. -/
theorem texts_incoming_sublist {peerId : Bytes} {port : Nat} {bootstrapHost bootstrapPort : Bytes}
    {es : List (WxString × Input)}
    (hReadable : ∀ p ∈ (launched sameItem S peerId port bootstrapHost bootstrapPort es).reported,
      Readable p.1) (key : Bytes) :
    ((launched sameItem S peerId port bootstrapHost bootstrapPort es).window.texts .incoming
        key).Sublist
      (shown (launched sameItem S peerId port bootstrapHost bootstrapPort es).reported key) := by
  rw [texts_incoming sameItem S peerId port bootstrapHost bootstrapPort hReadable,
    ← launched_messages, shown, shown]
  exact (((List.take_sublist _ _).filterMap _).filter _).map _

end Messenger

/-! ## Programs over one DHT -/

section Programs

variable {ι κ : Type} [DecidableEq ι] (sameItem : WxString → WxString → Bool) (S : Sodium)

/-- The programs as they are launched. -/
def launchAll (peers : ι → Launch) (dial : ι → Bytes × Bytes) (i : ι) : Messenger :=
  .launch (peers i).id (peers i).port (dial i).1 (dial i).2

def nodes (net : ι → Messenger) (i : ι) : P2PNode := (net i).system.app.node

/-- The events of the nodes in a step of the programs. -/
def nodeEventsOf (net : ι → Messenger) (e : ι × WxString × Input) : List (ι × Event) :=
  ((net e.1).nodeEvents sameItem S e.2).map (Prod.mk e.1)

/-- The assumptions on a run of the programs: those on their nodes, ids that come back unchanged
from the window, nobody who is renamed, and no zero character in what is typed. -/
structure ClosedPrograms (peers : ι → Launch) (dial : ι → Bytes × Bytes) (hash : Bytes → κ)
    (ids : Set Bytes) (es : List (ι × WxString × Input)) : Prop where
  usable : UsableIds peers ids
  injective : Function.Injective hash
  boxes : ∀ i j, S.RoundTrips (peers i).node.myKeys (peers j).node.myKeys
  id_ne_nil : ∀ i, (peers i).id ≠ []
  trimmed : ∀ i, trim isSpace (peers i).id = (peers i).id
  readable : ∀ i, Readable (peers i).userId
  expected : Along (netStep (Messenger.step sameItem S))
    (fun net e => ∀ action ∈ (net e.1).actions sameItem e.2.1 e.2.2,
      action.Expected (peers e.1) ids (net e.1).system) (launchAll peers dial) es
  plain : Along (netStep (Messenger.step sameItem S))
    (fun net e => Messenger.Plain (net e.1).window e.2.2) (launchAll peers dial) es
  served : Along (netStep (Messenger.step sameItem S))
    (fun net e => ∀ event ∈ nodeEventsOf sameItem S net e, Served hash (nodes net) event)
    (launchAll peers dial) es

variable {sameItem S} {peers : ι → Launch} {dial : ι → Bytes × Bytes} {hash : Bytes → κ}
  {ids : Set Bytes}

theorem nodes_netStep (net : ι → Messenger) (e : ι × WxString × Input) :
    nodes (netStep (Messenger.step sameItem S) net e) =
      run (netStep (P2PNode.step S)) (nodes net) (nodeEventsOf sameItem S net e) :=
  netStep_part (f := fun m : Messenger => m.system.app.node) (Messenger.step_node sameItem S) net e

/-! ### The nodes are a closed network -/

theorem unused_launch_node {l : Launch} (hId : l.id ≠ []) (port : Nat)
    (bootstrapHost bootstrapPort : Bytes) :
    (System.launch l.id port bootstrapHost bootstrapPort).app.node.Unused l := by
  obtain ⟨hMyId, hPuts, hStopped⟩ := System.launch_node l.id port bootstrapHost bootstrapPort
  have hOwn : trim isSpace (configuredId l.id) = l.userId := by
    rw [configuredId, if_neg hId, Launch.userId_eq, if_neg hId]
  have hNew : ∃ host : Bytes, (System.launch l.id port bootstrapHost bootstrapPort).app.node =
      { ({} : P2PNode).setNodeConfig port (configuredId l.id) with bootstrapHost := host } := by
    simp only [System.launch, AppController.setBootstrapHost, P2PNode.setBootstrapHost]
    split
    · exact ⟨_, rfl⟩
    · exact ⟨bytes "127.0.0.1", rfl⟩
  obtain ⟨host, hNode⟩ := hNew
  rw [hOwn] at hMyId
  rw [hNode] at hMyId hPuts hStopped ⊢
  refine ⟨⟨hMyId, rfl, ?_, ?_, ?_, ?_⟩, ?_, rfl, rfl, rfl, rfl, rfl, fun _ => rfl⟩
  · intro hRunning
    cases hRunning
  · exact fun hProfile => absurd rfl hProfile
  · intro q hq
    cases hq
  · intro name hName
    cases hName
  · intro hListens
    cases hListens

/-- Every program belongs to its peer, and the nodes make a closed network. -/
structure Owned (peers : ι → Launch) (ids : Set Bytes) (net : ι → Messenger) : Prop where
  belongs : ∀ i, (net i).system.Belongs (peers i)
  closed : ClosedNet peers ids (nodes net)

theorem owned_launchAll {es : List (ι × WxString × Input)}
    (h : ClosedPrograms sameItem S peers dial hash ids es) :
    Owned peers ids (launchAll peers dial) where
  belongs i := by
    refine ⟨System.inOrder_launch (h.trimmed i) _ _ _, ?_,
      (unused_launch_node (h.id_ne_nil i) _ _ _).genuine⟩
    intro peerId hMem
    cases List.mem_singleton.mp hMem
  closed := closedNet_unused h.usable fun i => unused_launch_node (h.id_ne_nil i) _ _ _

/-- What a step of the programs has to meet. -/
def Meets (sameItem : WxString → WxString → Bool) (S : Sodium) (peers : ι → Launch)
    (hash : Bytes → κ) (ids : Set Bytes) (net : ι → Messenger) (e : ι × WxString × Input) : Prop :=
  (∀ action ∈ (net e.1).actions sameItem e.2.1 e.2.2,
    action.Expected (peers e.1) ids (net e.1).system) ∧
  ∀ event ∈ nodeEventsOf sameItem S net e, Served hash (nodes net) event

omit [DecidableEq ι] in
/-- A step that meets the assumptions is at most one event of a node, which meets those of a
closed network. -/
theorem event_of_meets {net : ι → Messenger} (hOwned : Owned peers ids net)
    {e : ι × WxString × Input} (h : Meets sameItem S peers hash ids net e) :
    ∃ event : Option (ι × Event), nodeEventsOf sameItem S net e = event.toList ∧
      ∀ event' ∈ event, event'.2.Permitted (peers event'.1) ids (nodes net event'.1) ∧
        Served hash (nodes net) event' := by
  obtain ⟨action, hAction⟩ := (net e.1).exists_action sameItem e.2.1 e.2.2
  have hEvents : nodeEventsOf sameItem S net e =
      ((action.bind (net e.1).system.nodeEvent).map (Prod.mk e.1)).toList := by
    rw [nodeEventsOf, Messenger.nodeEvents_eq sameItem S (net e.1) e.2 action hAction]
    cases action.bind (net e.1).system.nodeEvent <;> rfl
  refine ⟨_, hEvents, ?_⟩
  intro event' hEvent'
  have hServed := h.2 event' (by rw [hEvents]; exact Option.mem_toList.mpr hEvent')
  obtain ⟨event, hEvent, rfl⟩ := Option.map_eq_some_iff.mp hEvent'
  obtain ⟨action, rfl, hNode⟩ := Option.bind_eq_some_iff.mp hEvent
  have hExpected := h.1 action (by rw [hAction]; exact List.mem_singleton_self action)
  exact ⟨(hOwned.belongs e.1).permitted hExpected event hNode, hServed⟩

theorem Owned.step {net : ι → Messenger} (hOwned : Owned peers ids net)
    (hIds : UsableIds peers ids) (hHash : Function.Injective hash) {e : ι × WxString × Input}
    (h : Meets sameItem S peers hash ids net e) :
    Owned peers ids (netStep (Messenger.step sameItem S) net e) := by
  constructor
  · intro i
    by_cases hHere : i = e.1
    · subst hHere
      obtain ⟨action, hAction⟩ := (net e.1).exists_action sameItem e.2.1 e.2.2
      have hSystem : (netStep (Messenger.step sameItem S) net e e.1).system =
          run (System.step S) (net e.1).system action.toList := by
        rw [netStep_self, ← hAction]
        rfl
      rw [hSystem]
      cases action with
      | none => exact hOwned.belongs e.1
      | some action =>
        exact (hOwned.belongs e.1).step S
          (h.1 action (by rw [hAction]; exact List.mem_singleton_self action))
    · rw [netStep_of_ne hHere]
      exact hOwned.belongs i
  · obtain ⟨event, hEvents, hMeets⟩ := event_of_meets hOwned h
    rw [nodes_netStep, hEvents]
    cases event with
    | none => exact hOwned.closed
    | some event =>
      exact hOwned.closed.step S hIds hHash (hMeets event rfl).1 (hMeets event rfl).2

/-- A run of the programs is a run of the closed network of their nodes. -/
theorem closedRun_nodes {es : List (ι × WxString × Input)}
    (h : ClosedPrograms sameItem S peers dial hash ids es) :
    ClosedRun S peers (nodes (launchAll peers dial)) hash ids
      (added (netStep (Messenger.step sameItem S)) (nodeEventsOf sameItem S)
        (launchAll peers dial) es) := by
  have hMeets : Along (netStep (Messenger.step sameItem S))
      (fun net e => Owned peers ids net ∧ Meets sameItem S peers hash ids net e)
      (launchAll peers dial) es :=
    Along.invariant (fun _ _ hOwned hStep => hOwned.step h.usable h.injective hStep)
      (owned_launchAll h) (along_and.mpr ⟨h.expected, h.served⟩)
  have hEvents : Along (netStep (P2PNode.step S))
      (fun net e => e.2.Permitted (peers e.1) ids (net e.1) ∧ Served hash net e)
      (nodes (launchAll peers dial))
      (added (netStep (Messenger.step sameItem S)) (nodeEventsOf sameItem S)
        (launchAll peers dial) es) := by
    refine along_part (f := nodes) nodes_netStep (hMeets.mono ?_)
    intro net e hStep
    obtain ⟨event, hEvent, hGood⟩ := event_of_meets hStep.1 hStep.2
    rw [hEvent]
    exact along_toList hGood
  exact
    { usable := h.usable
      injective := h.injective
      boxes := h.boxes
      unused := fun i => unused_launch_node (h.id_ne_nil i) _ _ _
      permitted := (along_and.mp hEvents).1
      served := (along_and.mp hEvents).2 }

/-! ### The two sides of a conversation -/

/-- The programs after a run. -/
def programsAfter (sameItem : WxString → WxString → Bool) (S : Sodium) (peers : ι → Launch)
    (dial : ι → Bytes × Bytes) (es : List (ι × WxString × Input)) : ι → Messenger :=
  run (netStep (Messenger.step sameItem S)) (launchAll peers dial) es

theorem programsAfter_apply (es : List (ι × WxString × Input)) (i : ι) :
    programsAfter sameItem S peers dial es i =
      Messenger.launched sameItem S (peers i).id (peers i).port (dial i).1 (dial i).2
        (eventsAt i es) :=
  run_netStep_apply _ es i

theorem nodes_programsAfter (es : List (ι × WxString × Input)) :
    nodes (programsAfter sameItem S peers dial es) =
      netFrom S (nodes (launchAll peers dial))
        (added (netStep (Messenger.step sameItem S)) (nodeEventsOf sameItem S)
          (launchAll peers dial) es) :=
  run_part (f := nodes) nodes_netStep (launchAll peers dial) es

theorem sender_of_program {es : List (ι × WxString × Input)}
    (h : ClosedPrograms sameItem S peers dial hash ids es) {reader : ι} {p : Bytes × Bytes}
    (hp : p ∈ (programsAfter sameItem S peers dial es reader).reported) :
    ∃ writer, p.1 = (peers writer).userId := by
  obtain ⟨r, hr, rfl⟩ := List.mem_map.mp hp
  have hReport : r ∈ (nodes (programsAfter sameItem S peers dial es) reader).reports := hr
  rw [nodes_programsAfter] at hReport
  exact sender_of_report S (closedRun_nodes h) hReport

theorem readable_reported {es : List (ι × WxString × Input)}
    (h : ClosedPrograms sameItem S peers dial hash ids es) (reader : ι) :
    ∀ p ∈ (programsAfter sameItem S peers dial es reader).reported, Readable p.1 := by
  intro p hp
  obtain ⟨writer, hWriter⟩ := sender_of_program h hp
  rw [hWriter]
  exact h.readable writer

theorem incoming_sublist {es : List (ι × WxString × Input)}
    (h : ClosedPrograms sameItem S peers dial hash ids es) (reader : ι) (key : Bytes) :
    ((programsAfter sameItem S peers dial es reader).window.texts .incoming key).Sublist
      (Messenger.shown (programsAfter sameItem S peers dial es reader).reported key) := by
  have hReadable := readable_reported h reader
  rw [programsAfter_apply] at hReadable ⊢
  exact Messenger.texts_incoming_sublist sameItem S hReadable key

/-- What a program would show of all that its node has reported under a sender. -/
theorem shown_reported (es : List (ι × WxString × Input)) (reader : ι) (senderId : Bytes) :
    Messenger.shown (programsAfter sameItem S peers dial es reader).reported senderId =
      (((netFrom S (nodes (launchAll peers dial))
        (added (netStep (Messenger.step sameItem S)) (nodeEventsOf sameItem S)
          (launchAll peers dial) es) reader).reportsFrom senderId).map Report.text).map
            WxString.fromUTF8 := by
  rw [← nodes_programsAfter]
  simp only [Messenger.shown, Messenger.reported, P2PNode.reportsFrom, List.filter_map,
    List.map_map]
  rfl

theorem outgoing_eq {es : List (ι × WxString × Input)}
    (h : ClosedPrograms sameItem S peers dial hash ids es) (writer : ι) (key : Bytes) :
    (programsAfter sameItem S peers dial es writer).window.texts .outgoing key =
      ((eventsAt writer (added (netStep (Messenger.step sameItem S)) (nodeEventsOf sameItem S)
        (launchAll peers dial) es)).filterMap fun event => event.textFor key).map
          WxString.fromUTF8 := by
  have hPlain : Along (Messenger.step sameItem S) (fun m e => Messenger.Plain m.window e.2)
      (launchAll peers dial writer) (eventsAt writer es) :=
    Along.eventsAt (P := fun _ (m : Messenger) (e : WxString × Input) =>
      Messenger.Plain m.window e.2) h.plain writer
  have hEvents : eventsAt writer (added (netStep (Messenger.step sameItem S))
      (nodeEventsOf sameItem S) (launchAll peers dial) es) =
        added (Messenger.step sameItem S) (Messenger.nodeEvents sameItem S)
          (launchAll peers dial writer) (eventsAt writer es) :=
    eventsAt_added (Messenger.nodeEvents sameItem S) (launchAll peers dial) es writer
  rw [programsAfter, run_netStep_apply, Messenger.texts_outgoing sameItem S hPlain key, hEvents]
  rfl

/-- In every run of programs over one DHT in which nobody is renamed, what the window of a reader
shows as written by a peer is, with multiplicity, among what the window of that peer shows as
sent to the reader; and no window shows a message of anybody else. -/
theorem conversation_safe {es : List (ι × WxString × Input)}
    (h : ClosedPrograms sameItem S peers dial hash ids es) (reader : ι) :
    (∀ writer,
      ((programsAfter sameItem S peers dial es reader).window.texts .incoming
          (peers writer).userId : Multiset WxString) ≤
        ↑((programsAfter sameItem S peers dial es writer).window.texts .outgoing
          (peers reader).userId)) ∧
    ∀ key, (programsAfter sameItem S peers dial es reader).window.texts .incoming key ≠ [] →
      ∃ writer, key = (peers writer).userId := by
  constructor
  · intro writer
    rw [outgoing_eq h writer]
    calc ((programsAfter sameItem S peers dial es reader).window.texts .incoming
          (peers writer).userId : Multiset WxString)
        _ ≤ ↑(Messenger.shown (programsAfter sameItem S peers dial es reader).reported
              (peers writer).userId) :=
          Multiset.coe_le.mpr (incoming_sublist h reader (peers writer).userId).subperm
        _ ≤ _ := by
          rw [shown_reported, ← Multiset.map_coe, ← Multiset.map_coe]
          exact Multiset.map_le_map (reported_texts_le S (closedRun_nodes h) writer reader)
  · intro key hSome
    obtain ⟨text, hText⟩ := List.exists_mem_of_ne_nil _ hSome
    have hShown := (incoming_sublist h reader key).subset hText
    obtain ⟨p, hp, -⟩ := List.mem_map.mp hShown
    obtain ⟨hReported, hKey⟩ := List.mem_filter.mp hp
    obtain ⟨writer, hWriter⟩ := sender_of_program h hReported
    exact ⟨writer, (of_decide_eq_true hKey).symm.trans hWriter⟩

end Programs

namespace Peer

/-- Both programs are launched without a bootstrap port. -/
def dial (_ : Peer) : Bytes × Bytes := (bytes "127.0.0.1", bytes "0")

/-- The value of the profile that a program publishes as it starts. -/
def published (p : Peer) : Bytes :=
  profilePayload { displayName := p.launch.userId, tcpEndpoint := bytes "127.0.0.1:4222" }
    p.launch.publicKey

/-- Alice types and sends; the value reaches Bob twice, and his window handles all events. -/
def typedHello : List (Peer × WxString × Input) :=
  let hi := fullPayload alice.launch.userId (aliceSealed (bytes "hi") noon)
  let start (p : Peer) : List (Peer × Input) := List.replicate 4 (p, .work p.launch.io)
  let send : List (Peer × Input) :=
    [(alice, .type [] (wxT "bob ") (wxT "hi")), (alice, .send 0),
      (alice, .lookup 0 [bob.published] noon)]
  let receive : List (Peer × Input) :=
    [(bob, .inbox [(0, hi), (1, hi)] false), (bob, .lookup 0 [alice.published] noon),
      (bob, .lookup 1 [alice.published] noon)]
  let handle : List (Peer × Input) := List.replicate 5 (bob, .nextEvent)
  (start alice ++ start bob ++ send ++ receive ++ handle).map fun e => (e.1, wxT "12:00:00", e.2)

theorem typedHello_closed :
    ClosedPrograms (· == ·) .additive launch dial (fun name : Bytes => name) ids typedHello where
  usable := usable_ids
  injective := Function.injective_id
  boxes := roundTrips
  id_ne_nil := by decide +kernel
  trimmed := by decide +kernel
  readable := by decide +kernel
  expected := by decide +kernel
  plain := by decide +kernel
  served := by decide +kernel

theorem typedHello_conversation_safe :
    ((programsAfter (· == ·) .additive launch dial typedHello bob).window.texts .incoming
        alice.launch.userId : Multiset WxString) ≤
      ↑((programsAfter (· == ·) .additive launch dial typedHello alice).window.texts .outgoing
        bob.launch.userId) ∧
    (programsAfter (· == ·) .additive launch dial typedHello bob).window.texts .incoming
      alice.launch.userId = [wxT "hi"] :=
  ⟨(conversation_safe typedHello_closed bob).1 alice, by decide +kernel⟩

end Peer

end P2PMessenger
