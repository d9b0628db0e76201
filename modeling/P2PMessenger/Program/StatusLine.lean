import P2PMessenger.Program.Wanted

/-!
# The status line

A status event carries no id: its handler asks the controller when it runs, which may be after
a rename. So between the `configure` of a restart and the first status of the new session the
line shows the id of before. It does so for no longer: the restart that follows queues a
status, and once the window has handled all of them the line shows the id, the port and the
last status of the node.
-/

namespace P2PMessenger

open Text Crypto Run

def UiEvent.status : UiEvent → Option Bytes
  | .networkStatus status => some status
  | _ => none

namespace System

variable (S : Sodium)

/-- The node is down and the network thread is about to start it. -/
def Restarting (s : System) : Prop :=
  s.app.phase = .idle ∧
    ((∃ host port, s.todo.head? = some (.start host port)) ∨ s.todo.head? = some .startNode)

/-- The node has queued a status behind the first `handled` events. -/
def Unheard (s : System) (handled : Nat) : Prop :=
  ∃ event ∈ s.app.node.ui.drop handled, event.status.isSome = true

/-- A line that shows `id` is right, or will be written again. -/
def Current (s : System) (handled : Nat) (id : Bytes) : Prop :=
  id = s.app.peerId ∨ s.Unheard handled ∨ s.Restarting

theorem ui_step (s : System) (action : Action) :
    s.app.node.ui <+: (s.step S action).app.node.ui := by
  rw [step_node, history_run (f := P2PNode.ui) (P2PNode.step_ui S)]
  exact List.prefix_append _ _

theorem Unheard.mono {s s' : System} {handled : Nat} (h : s.Unheard handled)
    (hUi : s.app.node.ui <+: s'.app.node.ui) : s'.Unheard handled := by
  obtain ⟨event, hMem, hStatus⟩ := h
  obtain ⟨more, hMore⟩ := hUi
  refine ⟨event, ?_, hStatus⟩
  rw [← hMore, List.drop_append]
  exact List.mem_append_left _ hMem

/-- A step that keeps the id, and a restart if one is due. -/
theorem Current.of_step {s : System} {handled : Nat} {id : Bytes} (h : s.Current handled id)
    (action : Action) (hId : (s.step S action).app.peerId = s.app.peerId)
    (hRestart : s.Restarting → (s.step S action).Restarting) :
    (s.step S action).Current handled id := by
  rcases h with hShown | hUnheard | hRestarting
  · exact Or.inl (hShown.trans hId.symm)
  · exact Or.inr (Or.inl (hUnheard.mono (ui_step S s action)))
  · exact Or.inr (Or.inr (hRestart hRestarting))

theorem Restarting.append {s : System} (h : s.Restarting) (more : List Task) (shut : Bool) :
    ({ s with todo := s.todo ++ more, shuttingDown := shut } : System).Restarting := by
  refine ⟨h.1, ?_⟩
  rcases h.2 with ⟨host, port, hHead⟩ | hHead
  · exact Or.inl ⟨host, port, List.mem_head?_append_of_mem_head? hHead⟩
  · exact Or.inr (List.mem_head?_append_of_mem_head? hHead)

theorem Restarting.onNode {s : System} (h : s.Restarting) {e : Event} (hKeeps : e.keeps = true)
    (contacts : List Bytes) :
    ({ s with app := { s.app.onNode S e with contacts := contacts } } : System).Restarting :=
  ⟨(congrArg Life.phase (AppController.life_onNode S hKeeps)).trans h.1, h.2⟩

theorem Current.work {s : System} {t : Life} (hHeading : s.Heading t) (hRestarts : Restarts s.todo)
    {handled : Nat} {id : Bytes} (hHandled : handled ≤ s.app.node.ui.length)
    (h : s.Current handled id) (io : StartInput) : (s.work io).Current handled id := by
  cases hTodo : s.todo with
  | nil => simpa [System.work, hTodo] using h
  | cons task rest =>
    obtain ⟨l, hLeads, -⟩ := hHeading.next hTodo
    have hWork := work_of_todo hTodo io
    -- a task that is no restart keeps the id
    have hOther (hStart : ∀ host port, task ≠ .start host port) (hNode : task ≠ .startNode)
        (hId : (s.work io).app.peerId = s.app.peerId) : (s.work io).Current handled id := by
      refine h.of_step Sodium.additive (.work io) hId ?_
      intro hRestarting
      rcases hRestarting.2 with ⟨host, port, hHead⟩ | hHead
      · rw [hTodo] at hHead
        exact absurd (Option.some.inj hHead) (hStart host port)
      · rw [hTodo] at hHead
        exact absurd (Option.some.inj hHead) hNode
    cases task with
    | stop =>
      refine hOther (fun _ _ => Task.noConfusion) Task.noConfusion ?_
      rw [hWork]
      show s.app.stop.peerId = s.app.peerId
      unfold AppController.stop
      split <;> rfl
    | configure peerId =>
      obtain ⟨hPhase, -⟩ := Option.ite_none_right_eq_some.mp hLeads
      refine Or.inr (Or.inr ?_)
      rw [hTodo] at hRestarts
      obtain ⟨⟨host, port, hHead⟩, -⟩ := hRestarts
      rw [hWork]
      exact ⟨congrArg Life.phase (hHeading.steady.configure hPhase peerId s.app.port).2,
        Or.inl ⟨host, port, hHead⟩⟩
    | start bootstrapHost bootstrapPort =>
      refine h.of_step Sodium.additive (.work io) ?_ ?_
      · show (s.work io).app.peerId = s.app.peerId
        rw [hWork]
        rfl
      · intro hRestarting
        have hStopped := (AppController.phase_eq_idle.mp hRestarting.1).1
        show (s.work io).Restarting
        rw [hWork]
        refine ⟨hRestarting.1, Or.inr ?_⟩
        simp only [AppController.perform, hStopped]
        rfl
    | startNode =>
      obtain ⟨hPhase, -⟩ := Option.ite_none_right_eq_some.mp hLeads
      have hStopped := (AppController.phase_eq_idle.mp hPhase).2
      refine Or.inr (Or.inl ?_)
      have hUi : (s.work io).app.node.ui =
          s.app.node.ui ++ s.app.node.newUi Sodium.additive (.startNode io) := by
        rw [hWork]
        exact P2PNode.step_ui Sodium.additive s.app.node (.startNode io)
      refine ⟨.networkStatus (bytes "Running on port " ++ decimal s.app.node.port ++
        bytes " as " ++ s.app.node.myId), ?_, rfl⟩
      rw [hUi, List.drop_append_of_le_length hHandled]
      exact List.mem_append_right _ (by simp [P2PNode.newUi, hStopped])
    | publishProfile profile =>
      exact hOther (fun _ _ => Task.noConfusion) Task.noConfusion (by rw [hWork]; rfl)
    | bootstrap host port =>
      exact hOther (fun _ _ => Task.noConfusion) Task.noConfusion (by rw [hWork]; rfl)
    | setRunning =>
      exact hOther (fun _ _ => Task.noConfusion) Task.noConfusion (by rw [hWork]; rfl)

theorem Current.step {s : System} {t : Life} (hHeading : s.Heading t) (hRestarts : Restarts s.todo)
    {handled : Nat} {id : Bytes} (hHandled : handled ≤ s.app.node.ui.length)
    (h : s.Current handled id) (action : Action) : (s.step S action).Current handled id := by
  rcases step_cases S s action with ⟨io, rfl⟩ | ⟨newPeerId, rfl⟩ | rfl |
    ⟨-, hSame | ⟨e, contacts, hKeeps, -, -, hStep⟩⟩
  · exact h.work hHeading hRestarts hHandled io
  · refine h.of_step S _ ?_ ?_
    · simp only [System.step, changePeerId]
      split <;> rfl
    · intro hRestarting
      simp only [System.step, changePeerId]
      split
      · exact hRestarting
      · exact hRestarting.append _ s.shuttingDown
  · refine h.of_step S _ ?_ ?_
    · simp only [System.step, close]
      split <;> rfl
    · intro hRestarting
      simp only [System.step, close]
      split
      · exact hRestarting
      · exact hRestarting.append _ true
  · rw [hSame]
    exact h
  · refine h.of_step S _ ?_ ?_
    · rw [hStep]
      rfl
    · rw [hStep]
      exact fun hRestarting => hRestarting.onNode S hKeeps contacts

theorem current_run {s : System} {t : Life} (hHeading : s.Heading t) (hRestarts : Restarts s.todo)
    {handled : Nat} {id : Bytes} (hHandled : handled ≤ s.app.node.ui.length)
    (h : s.Current handled id) (actions : List Action) :
    Restarts (run (System.step S) s actions).todo ∧
      (run (System.step S) s actions).Current handled id := by
  have hAll : ∃ t, (run (System.step S) s actions).Heading t ∧
      Restarts (run (System.step S) s actions).todo ∧
      handled ≤ (run (System.step S) s actions).app.node.ui.length ∧
      (run (System.step S) s actions).Current handled id := by
    refine run_invariant (I := fun s : System => ∃ t, s.Heading t ∧ Restarts s.todo ∧
      handled ≤ s.app.node.ui.length ∧ s.Current handled id) ?_
      ⟨t, hHeading, hRestarts, hHandled, h⟩ actions
    rintro s action ⟨t, hHeading, hRestarts, hHandled, hCurrent⟩
    exact ⟨t.ask action, hHeading.step S action, restarts_step S hRestarts action,
      hHandled.trans (ui_step S s action).length_le,
      hCurrent.step S hHeading hRestarts hHandled action⟩
  obtain ⟨-, -, hTodo, -, hCurrent⟩ := hAll
  exact ⟨hTodo, hCurrent⟩

end System

namespace Messenger

variable (sameItem : WxString → WxString → Bool) (S : Sodium)

/-- The last status that the window has handled. -/
def lastStatus (m : Messenger) (first : WxString) : WxString :=
  ((m.handledEvents.filterMap UiEvent.status).getLast?.map WxString.fromUTF8Sized).getD first

/-- The line shows the port, the last status handled, and an id that is right or will be
written again. `first` is the status of the launch. -/
structure Honest (first : WxString) (m : Messenger) : Prop where
  handled : m.handled ≤ m.system.app.node.ui.length
  restarts : Restarts m.system.todo
  line : ∃ id, m.window.statusText = statusLine id m.system.app.port (m.lastStatus first) ∧
    m.system.Current m.handled id

/-- The line of a window behind an input. -/
theorem statusText_nextWindow (m : Messenger) (now : WxString) (input : Input) :
    (m.nextWindow sameItem now input).statusText =
      match (m.newHandled input).bind UiEvent.status with
      | some status => statusLine m.system.app.peerId m.system.app.port
          (WxString.fromUTF8Sized status)
      | none => m.window.statusText := by
  cases hEvent : m.windowEvent input with
  | some event =>
    have hFrame := congrArg Prod.snd (MainWindow.frame_step sameItem m.window (now, event))
    rw [window_of_windowEvent sameItem hEvent]
    refine hFrame.trans ?_
    cases input with
    | nextEvent =>
      obtain ⟨queued, hPending, rfl⟩ := Option.map_eq_some_iff.mp hEvent
      simp only [newHandled, hPending, Option.bind_some]
      cases queued <;> rfl
    | type addContactInput peerIdInput messageInput => cases hEvent; rfl
    | send op => cases hEvent; rfl
    | addContact op => cases hEvent; rfl
    | selectContact selection => cases hEvent; rfl
    | changePeerId localPeerId answer => cases hEvent; rfl
    | _ => cases hEvent
  | none =>
    cases input with
    | connect hostInput portInput => rfl
    | close =>
      simp only [nextWindow, MainWindow.onClose, newHandled]
      split <;> rfl
    | nextEvent =>
      have hPending : m.pendingEvent = none := Option.map_eq_none_iff.mp hEvent
      simp only [nextWindow, hEvent, newHandled, hPending]
      rfl
    | _ =>
      simp only [nextWindow, hEvent]
      rfl

theorem lastStatus_step {m : Messenger} (hHandled : m.handled ≤ m.system.app.node.ui.length)
    (e : WxString × Input) (first : WxString) :
    (m.step sameItem S e).lastStatus first =
      match (m.newHandled e.2).bind UiEvent.status with
      | some status => WxString.fromUTF8Sized status
      | none => m.lastStatus first := by
  simp only [lastStatus]
  rw [handledEvents_step sameItem S hHandled, List.filterMap_append, List.getLast?_append]
  cases hNew : m.newHandled e.2 with
  | none => rfl
  | some event => cases event <;> rfl

/-- An event that is no status leaves the others unheard. -/
theorem current_handled {m : Messenger} {id : Bytes} (h : m.system.Current m.handled id)
    {input : Input} (hNone : (m.newHandled input).bind UiEvent.status = none) :
    m.system.Current (m.handled + (m.newHandled input).toList.length) id := by
  cases hNew : m.newHandled input with
  | none => exact h
  | some event =>
    rcases h with hShown | ⟨status, hMem, hStatus⟩ | hRestarting
    · exact Or.inl hShown
    · refine Or.inr (Or.inl ⟨status, ?_, hStatus⟩)
      have hEvent : m.system.app.node.ui[m.handled]? = some event :=
        pendingEvent_of_newHandled (by rw [hNew]; exact List.mem_singleton_self event)
      obtain ⟨hIndex, hGet⟩ := List.getElem?_eq_some_iff.mp hEvent
      rw [List.drop_eq_getElem_cons hIndex, hGet] at hMem
      rcases List.mem_cons.mp hMem with rfl | hRest
      · rw [hNew, Option.bind_some] at hNone
        rw [hNone] at hStatus
        cases hStatus
      · exact hRest
    · exact Or.inr (Or.inr hRestarting)

theorem handled_add_le {m : Messenger} (hHandled : m.handled ≤ m.system.app.node.ui.length)
    (input : Input) :
    m.handled + (m.newHandled input).toList.length ≤ m.system.app.node.ui.length := by
  cases hNew : m.newHandled input with
  | none => exact hHandled
  | some event =>
    have hEvent : m.system.app.node.ui[m.handled]? = some event :=
      pendingEvent_of_newHandled (by rw [hNew]; exact List.mem_singleton_self event)
    exact (List.getElem?_eq_some_iff.mp hEvent).1

theorem Honest.step {first : WxString} {m : Messenger} {t : Life} (h : m.Honest first)
    (hHeading : m.system.Heading t) (e : WxString × Input) :
    (m.step sameItem S e).Honest first := by
  obtain ⟨hHandled, hRestarts, id, hLine, hCurrent⟩ := h
  have hBound := handled_add_le hHandled e.2
  have hPort : (m.step sameItem S e).system.app.port = m.system.app.port :=
    System.port_run S m.system (m.actions sameItem e.1 e.2)
  -- the id that the line shows behind the handler
  have hShown : ∃ id, (m.step sameItem S e).window.statusText =
        statusLine id m.system.app.port ((m.step sameItem S e).lastStatus first) ∧
      m.system.Current (m.handled + (m.newHandled e.2).toList.length) id := by
    have hText : (m.step sameItem S e).window.statusText = _ :=
      statusText_nextWindow sameItem m e.1 e.2
    rw [hText, lastStatus_step sameItem S hHandled]
    cases hStatus : (m.newHandled e.2).bind UiEvent.status with
    | some status => exact ⟨m.system.app.peerId, rfl, Or.inl rfl⟩
    | none => exact ⟨id, hLine, current_handled hCurrent hStatus⟩
  obtain ⟨id, hLine, hCurrent⟩ := hShown
  obtain ⟨hTodo, hNext⟩ := System.current_run S hHeading hRestarts hBound hCurrent
    (m.actions sameItem e.1 e.2)
  constructor
  · rw [handled_step]
    exact hBound.trans (ui_grows sameItem S m e).length_le
  · exact hTodo
  · refine ⟨id, ?_, ?_⟩
    · rw [hPort]
      exact hLine
    · rw [handled_step]
      exact hNext

theorem honest_launch (peerId : Bytes) (port : Nat) (bootstrapHost bootstrapPort : Bytes) :
    (launch peerId port bootstrapHost bootstrapPort).Honest (launchStatus peerId port) where
  handled := Nat.zero_le _
  restarts := trivial
  line := ⟨configuredId peerId, rfl, Or.inl rfl⟩

theorem honest_run (peerId : Bytes) (port : Nat) (bootstrapHost bootstrapPort : Bytes)
    (es : List (WxString × Input)) :
    (run (step sameItem S) (launch peerId port bootstrapHost bootstrapPort) es).Honest
      (launchStatus peerId port) := by
  have hBoth : (∃ t, (run (step sameItem S)
        (launch peerId port bootstrapHost bootstrapPort) es).system.Heading t) ∧
      (run (step sameItem S) (launch peerId port bootstrapHost bootstrapPort) es).Honest
        (launchStatus peerId port) := by
    refine run_invariant (I := fun m : Messenger => (∃ t, m.system.Heading t) ∧
      m.Honest (launchStatus peerId port)) ?_
      ⟨⟨_, System.heading_launch peerId port bootstrapHost bootstrapPort⟩,
        honest_launch peerId port bootstrapHost bootstrapPort⟩ es
    rintro m e ⟨⟨t, hHeading⟩, hHonest⟩
    exact ⟨⟨run Life.ask t (m.actions sameItem e.1 e.2),
      run_related (R := System.Heading) (fun _ _ action h => h.step S action) hHeading _⟩,
      hHonest.step sameItem S hHeading e⟩
  exact hBoth.2

/-- In whatever order the threads run: once the network thread has no work and the window has
handled every status of the node, the status line shows the id and the port of the controller,
and the last of these statuses. -/
theorem statusLine_agrees (peerId : Bytes) (port : Nat) (bootstrapHost bootstrapPort : Bytes)
    (es : List (WxString × Input)) {m : Messenger}
    (hRun : m = run (step sameItem S) (launch peerId port bootstrapHost bootstrapPort) es)
    (hDone : m.system.todo = [])
    (hHeard : ∀ event ∈ m.system.app.node.ui.drop m.handled, event.status = none) :
    m.window.statusText = statusLine m.system.app.peerId port
      (((m.system.app.node.ui.filterMap UiEvent.status).getLast?.map
        WxString.fromUTF8Sized).getD (launchStatus peerId port)) := by
  have hHonest := honest_run sameItem S peerId port bootstrapHost bootstrapPort es
  have hPort : m.system.app.port = port := by
    rw [hRun, system_run, System.port_run]
    rfl
  rw [← hRun] at hHonest
  obtain ⟨-, -, id, hLine, hCurrent⟩ := hHonest
  have hId : id = m.system.app.peerId := by
    rcases hCurrent with hShown | ⟨event, hMem, hStatus⟩ | ⟨-, hHead⟩
    · exact hShown
    · rw [hHeard event hMem] at hStatus
      cases hStatus
    · rw [hDone] at hHead
      rcases hHead with ⟨host, port, hHead⟩ | hHead <;> cases hHead
  have hAll : m.system.app.node.ui.filterMap UiEvent.status =
      m.handledEvents.filterMap UiEvent.status := by
    have hSilent : (m.system.app.node.ui.drop m.handled).filterMap UiEvent.status = [] :=
      List.filterMap_eq_nil_iff.mpr hHeard
    have hSplit := congrArg (List.filterMap UiEvent.status)
      (List.take_append_drop m.handled m.system.app.node.ui)
    rw [List.filterMap_append, hSilent, List.append_nil] at hSplit
    exact hSplit.symm
  rw [hLine, hId, hPort, hAll]
  rfl

/-- Alice becomes Bob, and the window handles everything that the node has queued. -/
def renamedAndHeard : List (WxString × Input) :=
  List.replicate 4 ([], .work { generated := .constant 7 }) ++
    [([], .changePeerId (bytes "alice") (some (wxT "bob")))] ++
    List.replicate 8 ([], .work { generated := .constant 40 }) ++
    List.replicate 10 ([], .nextEvent)

theorem renamedAndHeard_agrees :
    ∃ m : Messenger, m.system.app.peerId = bytes "bob" ∧
      m.window.statusText = statusLine m.system.app.peerId 4222
        (((m.system.app.node.ui.filterMap UiEvent.status).getLast?.map
          WxString.fromUTF8Sized).getD (launchStatus (bytes "alice") 4222)) :=
  ⟨run (step (fun a b => a == b) Sodium.additive)
      (launch (bytes "alice") 4222 (bytes "127.0.0.1") (bytes "0")) renamedAndHeard,
    by decide +kernel,
    statusLine_agrees (fun a b => a == b) Sodium.additive (bytes "alice") 4222
      (bytes "127.0.0.1") (bytes "0") renamedAndHeard rfl (by decide +kernel)
      (by decide +kernel)⟩

end Messenger

end P2PMessenger
