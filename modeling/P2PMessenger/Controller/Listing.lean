import P2PMessenger.Controller.Quiescence
import P2PMessenger.Network.Namespaces

/-!
# A messenger that runs can be found

`AppController::start` publishes the profile after the node has started and before the
controller says that it runs, on the network thread and amid the steps of the others. So
while the controller says that it runs, the DHT was given a profile in the present session,
under the id of the controller, in which a sender finds the key that the node decrypts with;
and it is this profile that the worker puts again.
-/

namespace P2PMessenger

open Text Crypto Run

namespace AppController

/-- The node has put the profile of the controller with its key in the present session, and
remembers it. -/
structure Listed (a : AppController) : Prop where
  put : ∃ q ∈ a.node.puts, q = a.node.profilePut a.ownProfile ∧ q.name = a.peerId ∧
    q.session = a.node.session ∧ profileKey [q.payload] = some a.node.myKeys.publicKey
  profile : a.node.currentProfile = a.ownProfile

variable (S : Sodium)

theorem Listed.onNode {a : AppController} (h : a.Listed) {e : Event} (hKeeps : e.keeps = true)
    (hPublish : ∀ profile, e = .publishProfile profile → profile = a.ownProfile) :
    (a.onNode S e).Listed := by
  have hSame : P2PNode.SameSession a.node (a.node.step S e) := P2PNode.step_sameSession S hKeeps
  obtain ⟨⟨q, hq, hPut, hName, hSession, hKey⟩, hProfile⟩ := h
  constructor
  · refine ⟨q, ?_, ?_, hName, hSession.trans hSame.session.symm, ?_⟩
    · show q ∈ (a.node.step S e).puts
      rw [P2PNode.step_puts]
      exact List.mem_append_left _ hq
    · show q = (a.node.step S e).profilePut a.ownProfile
      rw [P2PNode.profilePut, hSame.myKeys, hSame.session]
      exact hPut
    · show profileKey [q.payload] = some (a.node.step S e).myKeys.publicKey
      rw [hSame.myKeys]
      exact hKey
  · rcases P2PNode.step_currentProfile S a.node e with hStep | ⟨profile, hEvent, hStep⟩
    · exact hStep.trans hProfile
    · exact hStep.trans (hPublish profile hEvent)

theorem listed_publishProfile (a : AppController) :
    ({ a with node := a.node.publishProfile a.ownProfile } : AppController).Listed where
  put := ⟨a.node.profilePut a.ownProfile, List.mem_append_right _ List.mem_cons_self, rfl, rfl,
    rfl, profileKey_profilePayload a.ownProfile a.node.myKeys.publicKey []⟩
  profile := rfl

theorem ownProfile_stop (a : AppController) : a.stop.ownProfile = a.ownProfile := by
  unfold stop
  split <;> rfl

end AppController

/-- Without a start of the node, no profile is published where no start is under way. -/
theorem Life.not_mem_of_after {l t : Life} (hPhase : l.phase ≠ .starting) {tasks : List Task}
    (hStart : .startNode ∉ tasks) (hAfter : l.after tasks = some t) (profile : UserProfile) :
    .publishProfile profile ∉ tasks := by
  induction tasks generalizing l with
  | nil => exact List.not_mem_nil
  | cons task rest ih =>
    rw [after_cons, Option.bind_eq_some_iff] at hAfter
    obtain ⟨next, hNext, hRest⟩ := hAfter
    rw [List.mem_cons, not_or] at hStart
    have hStep : next.phase ≠ .starting ∧ task ≠ .publishProfile profile := by
      cases task with
      | startNode => exact absurd rfl hStart.1
      | publishProfile profile => exact absurd (Option.ite_none_right_eq_some.mp hNext).1.1 hPhase
      | bootstrap host port => exact absurd (Option.ite_none_right_eq_some.mp hNext).1 hPhase
      | setRunning => exact absurd (Option.ite_none_right_eq_some.mp hNext).1 hPhase
      | _ =>
        obtain ⟨-, hSame⟩ := Option.ite_none_right_eq_some.mp hNext
        rw [← Option.some.inj hSame]
        exact ⟨Phase.noConfusion, Task.noConfusion⟩
    rw [List.mem_cons, not_or]
    exact ⟨fun hSame => hStep.2 hSame.symm, ih hStep.1 hStart.2 hRest⟩

namespace System

/-- The profile has been put before the controller says that it runs: amid a start either it
has been or it comes next, and whoever starts the node puts it next. -/
structure Announces (s : System) : Prop where
  running : s.app.running = true → s.app.Listed
  starting : s.app.phase = .starting →
    s.app.Listed ∨ s.todo.head? = some (.publishProfile s.app.ownProfile)
  next : s.todo.head? = some .startNode → s.todo[1]? = some (.publishProfile s.app.ownProfile)
  own : ∀ profile, .publishProfile profile ∈ s.todo → profile = s.app.ownProfile
  tail : .startNode ∉ s.todo.tail

theorem announces_launch (peerId : Bytes) (port : Nat) (bootstrapHost bootstrapPort : Bytes) :
    (launch peerId port bootstrapHost bootstrapPort).Announces := by
  have hIdle := (heading_launch peerId port bootstrapHost bootstrapPort).queue
  refine ⟨?_, ?_, ?_, ?_, List.not_mem_nil⟩
  · intro hUp
    cases hUp
  · intro hStarting
    rw [AppController.life, hStarting] at hIdle
    cases hIdle
  · intro hHead
    cases hHead
  · intro profile hMem
    cases List.mem_singleton.mp hMem

theorem Announces.append {s : System} (h : s.Announces) (more : List Task)
    (hMore : .startNode ∉ more) (hSilent : ∀ profile, .publishProfile profile ∉ more) :
    ({ s with todo := s.todo ++ more } : System).Announces := by
  obtain ⟨app, port, todo, shut⟩ := s
  obtain ⟨hRunning, hStarting, hNext, hOwn, hTail⟩ := h
  refine ⟨hRunning, ?_, ?_, ?_, ?_⟩
  · intro hPhase
    refine (hStarting hPhase).imp_right ?_
    intro hHead
    dsimp only at hHead ⊢
    rw [List.head?_append, hHead]
    rfl
  · intro hHead
    dsimp only at hHead hNext ⊢
    cases todo with
    | nil => exact absurd (List.mem_of_mem_head? hHead) hMore
    | cons task rest =>
      have hSecond := hNext hHead
      rw [List.getElem?_append_left (List.getElem?_eq_some_iff.mp hSecond).1]
      exact hSecond
  · intro profile hMem
    exact hOwn profile ((List.mem_append.mp hMem).resolve_right (hSilent profile))
  · dsimp only at hTail ⊢
    cases todo with
    | nil => exact fun hMem => hMore (List.mem_of_mem_tail hMem)
    | cons task rest => exact fun hMem => (List.mem_append.mp hMem).elim hTail hMore

variable (S : Sodium)

theorem Announces.onNode {s : System} (h : s.Announces) {e : Event} (hKeeps : e.keeps = true)
    (hPublish : ∀ profile, e ≠ .publishProfile profile) (contacts : List Bytes) :
    ({ s with app := { s.app.onNode S e with contacts := contacts } } : System).Announces := by
  have hListed (hNow : s.app.Listed) :
      ({ s.app.onNode S e with contacts := contacts } : AppController).Listed := by
    have hNext := hNow.onNode S hKeeps fun profile hEvent => absurd hEvent (hPublish profile)
    exact ⟨hNext.put, hNext.profile⟩
  refine ⟨fun hUp => hListed (h.running hUp), ?_, h.next, h.own, h.tail⟩
  intro hPhase
  have hSame : (s.app.onNode S e).phase = s.app.phase :=
    congrArg Life.phase (AppController.life_onNode S hKeeps)
  exact (h.starting (hSame.symm.trans hPhase)).imp_left hListed

/-- The queue behind its first task. -/
theorem announces_rest {s : System} {task : Task} {rest : List Task} (h : s.Announces)
    (hTodo : s.todo = task :: rest) {a : AppController}
    (hOwn : a.ownProfile = s.app.ownProfile ∨ ∀ profile, .publishProfile profile ∉ rest)
    (hRunning : a.running = true → a.Listed)
    (hStarting : a.phase = .starting →
      a.Listed ∨ rest.head? = some (.publishProfile a.ownProfile)) :
    ({ s with app := a, todo := rest } : System).Announces := by
  obtain ⟨-, -, -, hProfile, hTail⟩ := h
  rw [hTodo] at hProfile hTail
  refine ⟨hRunning, hStarting, fun hHead => absurd (List.mem_of_mem_head? hHead) hTail, ?_,
    fun hMem => hTail (List.mem_of_mem_tail hMem)⟩
  intro profile hMem
  rcases hOwn with hSame | hSilent
  · exact (hProfile profile (List.mem_cons_of_mem task hMem)).trans hSame.symm
  · exact absurd hMem (hSilent profile)

theorem Announces.work {s : System} {t : Life} (h : s.Announces) (hHeading : s.Heading t)
    (io : StartInput) : (s.work io).Announces := by
  cases hTodo : s.todo with
  | nil => simpa [System.work, hTodo] using h
  | cons task rest =>
    obtain ⟨l, hLeads, hBehind⟩ := hHeading.next hTodo
    have hRest : Task.startNode ∉ rest := by
      have hTail := h.tail
      rwa [hTodo] at hTail
    have hIdle {a : AppController} (hPhase : a.phase = .idle)
        (hOwn : a.ownProfile = s.app.ownProfile ∨ ∀ profile, .publishProfile profile ∉ rest) :
        ({ s with app := a, todo := rest } : System).Announces := by
      refine announces_rest h hTodo hOwn ?_ ?_
      · intro hUp
        rw [(AppController.phase_eq_idle.mp hPhase).1] at hUp
        cases hUp
      · intro hStarting
        rw [hPhase] at hStarting
        cases hStarting
    -- amid a start, once the profile has been put
    have hAmid (hPhase : s.app.phase = .starting) {a : AppController}
        (hSame : a.ownProfile = s.app.ownProfile) (hKept : s.app.Listed → a.Listed)
        (hHead : task ≠ .publishProfile s.app.ownProfile) :
        ({ s with app := a, todo := rest } : System).Announces := by
      have hListed : a.Listed := by
        refine hKept ((h.starting hPhase).resolve_right ?_)
        rw [hTodo]
        exact fun hSome => hHead (Option.some.inj hSome)
      exact announces_rest h hTodo (Or.inl hSame) (fun _ => hListed) fun _ => Or.inl hListed
    rw [work_of_todo hTodo]
    cases task with
    | stop =>
      obtain ⟨hPhase, -⟩ := Option.ite_none_right_eq_some.mp hLeads
      exact hIdle (congrArg Life.phase (hHeading.steady.stop hPhase).2)
        (Or.inl s.app.ownProfile_stop)
    | configure peerId =>
      obtain ⟨hPhase, hNext⟩ := Option.ite_none_right_eq_some.mp hLeads
      refine hIdle (congrArg Life.phase (hHeading.steady.configure hPhase peerId s.app.port).2)
        (Or.inr (Life.not_mem_of_after ?_ hRest hBehind))
      rw [← Option.some.inj hNext]
      exact Phase.noConfusion
    | start bootstrapHost bootstrapPort =>
      obtain ⟨hPhase, -⟩ := Option.ite_none_right_eq_some.mp hLeads
      have hOwn := h.own
      rw [hTodo] at hOwn
      refine ⟨h.running, fun hStarting => absurd hStarting hPhase, ?_, ?_, ?_⟩
      · intro hHead
        simp only [AppController.perform] at hHead ⊢
        split at hHead
        · exact absurd (List.mem_of_mem_head? hHead) hRest
        · rename_i hStopped
          rw [if_neg hStopped]
          rfl
      · intro profile hMem
        show profile = s.app.ownProfile
        rcases List.mem_append.mp hMem with hNew | hOld
        · simp only [AppController.perform, AppController.startTasks] at hNew
          split at hNew
          · cases hNew
          · split at hNew <;> simpa using hNew
        · exact hOwn profile (List.mem_cons_of_mem _ hOld)
      · simp only [AppController.perform, AppController.startTasks]
        split
        · exact fun hMem => hRest (List.mem_of_mem_tail hMem)
        · split <;> simpa using hRest
    | startNode =>
      obtain ⟨hPhase, -⟩ := Option.ite_none_right_eq_some.mp hLeads
      refine announces_rest h hTodo (Or.inl rfl) ?_ ?_
      · intro hUp
        rw [show (s.app.perform io .startNode).1.running = s.app.running from rfl,
          (AppController.phase_eq_idle.mp hPhase).1] at hUp
        cases hUp
      · intro _
        have hNext := h.next (by rw [hTodo]; rfl)
        rw [hTodo, List.getElem?_cons_succ, ← List.head?_eq_getElem?] at hNext
        exact Or.inr hNext
    | publishProfile profile =>
      obtain rfl : profile = s.app.ownProfile := h.own profile (by rw [hTodo]; exact
        List.mem_cons_self)
      have hListed := s.app.listed_publishProfile
      exact announces_rest h hTodo (Or.inl rfl) (fun _ => hListed) fun _ => Or.inl hListed
    | bootstrap host port =>
      obtain ⟨hPhase, -⟩ := Option.ite_none_right_eq_some.mp hLeads
      -- dialling reads no primitive of libsodium
      exact hAmid hPhase rfl (fun hListed => hListed.onNode Sodium.additive
        (e := .bootstrap host port) rfl fun _ => Event.noConfusion) Task.noConfusion
    | setRunning =>
      obtain ⟨hPhase, -⟩ := Option.ite_none_right_eq_some.mp hLeads
      exact hAmid hPhase rfl (fun hListed => ⟨hListed.put, hListed.profile⟩) Task.noConfusion

theorem Announces.step {s : System} {t : Life} (h : s.Announces) (hHeading : s.Heading t)
    (action : Action) : (s.step S action).Announces := by
  rcases step_cases S s action with ⟨io, rfl⟩ | ⟨newPeerId, rfl⟩ | rfl |
    ⟨-, hSame | ⟨e, contacts, hKeeps, hProfile, -, hStep⟩⟩
  · exact h.work hHeading io
  · simp only [System.step, System.changePeerId]
    split
    · exact h
    · exact h.append _ (by simp) (by simp)
  · simp only [System.step, System.close]
    split
    · exact h
    · have hLast := h.append [.stop] (by simp) (by simp)
      exact ⟨hLast.running, hLast.starting, hLast.next, hLast.own, hLast.tail⟩
  · rw [hSame]
    exact h
  · rw [hStep]
    exact h.onNode S hKeeps hProfile contacts

theorem announces_run (peerId : Bytes) (port : Nat) (bootstrapHost bootstrapPort : Bytes)
    (actions : List Action) :
    (run (step S) (launch peerId port bootstrapHost bootstrapPort) actions).Announces := by
  have hBoth : (run (step S) (launch peerId port bootstrapHost bootstrapPort) actions).Heading
        (run Life.ask ⟨.up, configuredId peerId⟩ actions) ∧
      (run (step S) (launch peerId port bootstrapHost bootstrapPort) actions).Announces :=
    run_related (R := fun (s : System) (t : Life) => s.Heading t ∧ s.Announces)
      (fun _ _ action h => ⟨h.1.step S action, h.2.step S h.1 action⟩)
      ⟨heading_launch peerId port bootstrapHost bootstrapPort,
        announces_launch peerId port bootstrapHost bootstrapPort⟩ actions
  exact hBoth.2

end System

end P2PMessenger
