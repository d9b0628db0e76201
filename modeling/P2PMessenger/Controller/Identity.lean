import P2PMessenger.Controller.Quiescence

/-!
# One identity while the node runs

A running node is coherent if its inbox, the packets it sends and the profiles it puts all
belong to one id, with the keys that were loaded for that id. The controller keeps the id
untrimmed and the node keeps it trimmed, and the worker puts the remembered profile, so
coherence needs ids that trimming leaves alone and a worker that does not refresh between
`startNode` and the first publish of a new id.
-/

namespace P2PMessenger

open Text Crypto Run

/-- The value was put under the id `u`: a profile with the key, or a packet from `u`. -/
def Put.SpeaksAs (u key : Bytes) (q : Put) : Prop :=
  match q.origin with
  | .publishProfile profile => q.name = u ∧ q.payload = profilePayload profile key
  | .sendPacket packet => packet.senderId = u ∧ q.payload = fullPayload u packet

/-- What the event publishes, if anything, is a profile of `u`. -/
def Event.PublishesAs (u : Bytes) (n : P2PNode) : Event → Prop
  | .publishProfile profile => profile.userId = u
  | .refreshProfile =>
    n.running = true → n.currentProfile.userId = [] ∨ n.currentProfile.userId = u
  | _ => True

namespace P2PNode

/-- In its present session the node speaks as `u`. -/
structure SpeaksAs (n : P2PNode) (u : Bytes) : Prop where
  listens : n.dht.listenName = some (inboxName u)
  keys : n.keyOwner = u
  puts : ∀ q ∈ n.puts, q.session = n.session → q.SpeaksAs u n.myKeys.publicKey

def Coherent (n : P2PNode) : Prop := n.running = true → ∃ u, u ≠ [] ∧ n.SpeaksAs u

variable (S : Sodium)

theorem newPuts_speaksAs {n : P2PNode} {e : Event} {u : Bytes} (hId : n.myId = u)
    (hPublishes : e.PublishesAs u n) :
    ∀ q ∈ n.newPuts S e, q.SpeaksAs u n.myKeys.publicKey := by
  intro q hq
  cases e with
  | publishProfile profile =>
    obtain rfl := List.mem_singleton.mp hq
    exact ⟨hPublishes, rfl⟩
  | refreshProfile =>
    simp only [newPuts] at hq
    split at hq
    · rename_i hRefresh
      obtain rfl := List.mem_singleton.mp hq
      have hOwn : n.currentProfile.userId = u := (hPublishes hRefresh.1).resolve_left hRefresh.2
      exact ⟨hOwn, rfl⟩
    · cases hq
  | lookup op values io =>
    simp only [newPuts] at hq
    split at hq
    · split at hq
      · cases hq
      · obtain rfl := List.mem_singleton.mp hq
        subst hId
        exact ⟨rfl, rfl⟩
    · cases hq
  | _ => cases hq

theorem SpeaksAs.step {n : P2PNode} {u : Bytes} (h : n.SpeaksAs u) (hId : n.myId = u) {e : Event}
    (hKeeps : e.keeps = true) (hPublishes : e.PublishesAs u n) : (n.step S e).SpeaksAs u := by
  have hSame : SameSession n (n.step S e) := step_sameSession S hKeeps
  refine ⟨hSame.listenName.trans h.listens, hSame.keyOwner.trans h.keys, ?_⟩
  intro q hq hSession
  rw [step_puts, List.mem_append] at hq
  rw [hSame.session] at hSession
  rw [hSame.myKeys]
  rcases hq with hOld | hNew
  · exact h.puts q hOld hSession
  · exact newPuts_speaksAs S hId hPublishes q hNew

/-- A refresh of another id's profile breaks coherence: nothing else ties the remembered
profile to the running identity. -/
theorem not_coherent_of_stale_refresh {n : P2PNode} (hRunning : n.running = true)
    (hListens : n.dht.listenName = some (inboxName n.myId))
    (hStale : ¬ Event.refreshProfile.PublishesAs n.myId n) :
    ¬ (n.step S .refreshProfile).Coherent := by
  intro hCoherent
  have hProfile : n.currentProfile.userId ≠ [] ∧ n.currentProfile.userId ≠ n.myId := by
    constructor
    · exact fun hNil => hStale fun _ => Or.inl hNil
    · exact fun hOwn => hStale fun _ => Or.inr hOwn
  have hSame : SameSession n (n.step S .refreshProfile) := step_sameSession S rfl
  obtain ⟨u, -, hSpeaks⟩ := hCoherent (hSame.running.trans hRunning)
  have hPut : n.profilePut n.currentProfile ∈ (n.step S .refreshProfile).puts := by
    rw [step_puts, newPuts, if_pos ⟨hRunning, hProfile.1⟩]
    exact List.mem_append_right _ List.mem_cons_self
  have hName : n.currentProfile.userId = u := (hSpeaks.puts _ hPut hSame.session.symm).1
  have hInbox : some (inboxName n.myId) = some (inboxName u) :=
    hListens.symm.trans (hSame.listenName.symm.trans hSpeaks.listens)
  have hId : n.myId = u := List.append_cancel_right (Option.some.inj hInbox)
  exact hProfile.2 (hName.trans hId.symm)

end P2PNode

/-! ## The identity of the controller -/

namespace AppController

/-- The controller's id is one for the node too, and what was put in the present session was
put under it. -/
structure OneIdentity (a : AppController) : Prop where
  peerId_ne_nil : a.peerId ≠ []
  trimmed : trim isSpace a.peerId = a.peerId
  past : ∀ q ∈ a.node.puts, q.session ≤ a.node.session
  speaks : a.node.running = true → a.node.SpeaksAs a.peerId

variable (S : Sodium)

theorem Steady.myId_eq {a : AppController} (h : a.Steady) (hOne : a.OneIdentity) :
    a.node.myId = a.peerId := h.myId.trans hOne.trimmed

theorem OneIdentity.onNode {a : AppController} (h : a.OneIdentity) (hSteady : a.Steady)
    {e : Event} (hKeeps : e.keeps = true) (hPublishes : e.PublishesAs a.peerId a.node) :
    (a.onNode S e).OneIdentity := by
  have hSame : P2PNode.SameSession a.node (a.node.step S e) :=
    P2PNode.step_sameSession S hKeeps
  refine ⟨h.peerId_ne_nil, h.trimmed, ?_, ?_⟩
  · intro q hq
    show q.session ≤ (a.node.step S e).session
    rw [hSame.session]
    rcases List.mem_append.mp (P2PNode.step_puts S a.node e ▸ hq) with hOld | hNew
    · exact h.past q hOld
    · exact Nat.le_of_eq (P2PNode.newPuts_session S q hNew)
  · intro hRunning
    have hNode : a.node.running = true := hSame.running.symm.trans hRunning
    exact (h.speaks hNode).step S (hSteady.myId_eq h) hKeeps hPublishes

theorem OneIdentity.stop {a : AppController} (h : a.OneIdentity) (hSteady : a.Steady)
    (hPhase : a.phase ≠ .starting) : a.stop.OneIdentity := by
  rcases hSteady.stop_eq hPhase with ⟨-, hStop⟩ | hStop
  · rw [hStop]
    exact h
  · rw [hStop]
    refine ⟨h.peerId_ne_nil, h.trimmed, h.past, ?_⟩
    intro hUp
    cases hUp

theorem OneIdentity.configure {a : AppController} (h : a.OneIdentity) (hPhase : a.phase = .idle)
    {peerId : Bytes} (hTrim : trim isSpace peerId = peerId) (port : Nat) :
    (a.configure peerId port).OneIdentity := by
  have hStopped : (a.configure peerId port).node.running = false := (phase_eq_idle.mp hPhase).2
  refine ⟨configuredId_ne_nil peerId, trim_configuredId hTrim, h.past, ?_⟩
  intro hUp
  rw [hStopped] at hUp
  cases hUp

/-- A started node listens on the inbox of the id, has loaded its keys and has put nothing
in the new session. -/
theorem OneIdentity.startNode {a : AppController} (h : a.OneIdentity) (hSteady : a.Steady)
    (hPhase : a.phase = .idle) (io : StartInput) :
    ({ a with node := a.node.startNode io } : AppController).OneIdentity := by
  have hNode : a.node.running = false := (phase_eq_idle.mp hPhase).2
  have hMyId : a.node.myId = a.peerId := hSteady.myId_eq h
  rw [P2PNode.startNode_of_stopped hNode]
  refine ⟨h.peerId_ne_nil, h.trimmed, ?_, ?_⟩
  · intro q hq
    exact Nat.le_succ_of_le (h.past q hq)
  · intro _
    refine ⟨congrArg (fun id => some (inboxName id)) hMyId, hMyId, ?_⟩
    intro q hq hSession
    have hPast : q.session ≤ a.node.session := h.past q hq
    have hNow : q.session = a.node.session + 1 := hSession
    omega

/-- Work that is in its place keeps the identity, if the id it configures needs no trimming. -/
theorem OneIdentity.perform {a : AppController} (h : a.OneIdentity) (hSteady : a.Steady)
    {task : Task} {l : Life} (hNext : a.life.next task = some l)
    (hTrim : ∀ peerId, task = .configure peerId → trim isSpace peerId = peerId)
    (io : StartInput) : (a.perform io task).1.OneIdentity := by
  cases task with
  | stop => exact h.stop hSteady (Option.ite_none_right_eq_some.mp hNext).1
  | configure peerId =>
    exact h.configure (Option.ite_none_right_eq_some.mp hNext).1 (hTrim peerId rfl) a.port
  | start bootstrapHost bootstrapPort => exact h
  | startNode => exact h.startNode hSteady (Option.ite_none_right_eq_some.mp hNext).1 io
  | publishProfile profile =>
    have hOwn : profile.userId = a.peerId := (Option.ite_none_right_eq_some.mp hNext).1.2
    -- neither of these two calls reads a primitive of libsodium
    exact h.onNode Sodium.additive hSteady (e := .publishProfile profile) rfl hOwn
  | bootstrap host port =>
    exact h.onNode Sodium.additive hSteady (e := .bootstrap host port) rfl trivial
  | setRunning => exact ⟨h.peerId_ne_nil, h.trimmed, h.past, h.speaks⟩

end AppController

/-! ## Every run -/

/-- The texts given to `changePeerId` need no trimming, and the worker finds no profile of
an earlier id. -/
def Action.Orderly (s : System) : Action → Prop
  | .changePeerId newPeerId => trim isSpace newPeerId = newPeerId
  | .refreshProfile => Event.refreshProfile.PublishesAs s.app.peerId s.app.node
  | _ => True

namespace System

/-- The controller has one identity, its queue is in order, and no id in it needs trimming. -/
structure InOrder (s : System) : Prop where
  one : s.app.OneIdentity
  heading : ∃ t, s.Heading t
  trimmed : ∀ peerId, .configure peerId ∈ s.todo → trim isSpace peerId = peerId

theorem inOrder_launch {peerId : Bytes} (hTrim : trim isSpace peerId = peerId) (port : Nat)
    (bootstrapHost bootstrapPort : Bytes) :
    (launch peerId port bootstrapHost bootstrapPort).InOrder := by
  obtain ⟨-, hPuts, hStopped⟩ := launch_node peerId port bootstrapHost bootstrapPort
  refine ⟨⟨configuredId_ne_nil peerId, trim_configuredId hTrim, ?_, ?_⟩,
    ⟨_, heading_launch peerId port bootstrapHost bootstrapPort⟩, ?_⟩
  · intro q hq
    rw [hPuts] at hq
    cases hq
  · intro hRunning
    rw [hStopped] at hRunning
    cases hRunning
  · intro id hMem
    cases List.mem_singleton.mp hMem

variable (S : Sodium)

theorem InOrder.work {s : System} (h : s.InOrder) (io : StartInput) : (s.work io).InOrder := by
  obtain ⟨t, hHeading⟩ := h.heading
  cases hTodo : s.todo with
  | nil => simpa [System.work, hTodo] using h
  | cons task rest =>
    obtain ⟨l, hNext, -⟩ := hHeading.next hTodo
    have hTrim := h.trimmed
    rw [hTodo] at hTrim
    refine ⟨?_, ⟨t, hHeading.work io⟩, ?_⟩
    · rw [work_of_todo hTodo]
      refine h.one.perform hHeading.steady hNext ?_ io
      rintro peerId rfl
      exact hTrim peerId List.mem_cons_self
    · rw [work_of_todo hTodo]
      intro peerId hMem
      rcases List.mem_append.mp hMem with hNew | hOld
      · exact absurd hNew (configure_not_mem_perform s.app io task peerId)
      · exact hTrim peerId (List.mem_cons_of_mem _ hOld)

theorem InOrder.changePeerId {s : System} (h : s.InOrder) {newPeerId : Bytes}
    (hTrim : trim isSpace newPeerId = newPeerId) : (s.changePeerId newPeerId).InOrder := by
  obtain ⟨t, hHeading⟩ := h.heading
  have hHeading' := hHeading.changePeerId newPeerId
  revert hHeading'
  unfold System.changePeerId
  split
  · exact fun _ => h
  · intro hHeading'
    refine ⟨h.one, ⟨_, hHeading'⟩, ?_⟩
    intro peerId hMem
    rcases List.mem_append.mp hMem with hOld | hNew
    · exact h.trimmed peerId hOld
    · have hNew' : peerId = newPeerId := by simpa using hNew
      rw [hNew']
      exact hTrim

theorem InOrder.close {s : System} (h : s.InOrder) : s.close.InOrder := by
  obtain ⟨t, hHeading⟩ := h.heading
  have hHeading' := hHeading.close
  revert hHeading'
  unfold System.close
  split
  · exact fun _ => h
  · intro hHeading'
    refine ⟨h.one, ⟨_, hHeading'⟩, ?_⟩
    intro peerId hMem
    rcases List.mem_append.mp hMem with hOld | hNew
    · exact h.trimmed peerId hOld
    · cases List.mem_singleton.mp hNew

/-- Beside the network thread only a refresh publishes, and an orderly one publishes the
present id. -/
theorem publishesAs_of_orderly {s : System} {action : Action} (hOrderly : action.Orderly s)
    {e : Event} (hProfile : ∀ profile, e ≠ .publishProfile profile)
    (hRefresh : e = .refreshProfile → action = .refreshProfile) :
    e.PublishesAs s.app.peerId s.app.node := by
  cases e with
  | publishProfile profile => exact absurd rfl (hProfile profile)
  | refreshProfile =>
    obtain rfl := hRefresh rfl
    exact hOrderly
  | _ => trivial

theorem InOrder.step {s : System} (h : s.InOrder) {action : Action} (hOrderly : action.Orderly s) :
    (s.step S action).InOrder := by
  rcases step_cases S s action with ⟨io, rfl⟩ | ⟨newPeerId, rfl⟩ | rfl |
    ⟨-, hSame | ⟨e, contacts, hKeeps, hProfile, hRefresh, hStep⟩⟩
  · exact h.work io
  · exact h.changePeerId hOrderly
  · exact h.close
  · rw [hSame]
    exact h
  · obtain ⟨t, hHeading⟩ := h.heading
    have hOne := h.one.onNode S hHeading.steady hKeeps
      (publishesAs_of_orderly hOrderly hProfile hRefresh)
    rw [hStep]
    exact ⟨⟨hOne.peerId_ne_nil, hOne.trimmed, hOne.past, hOne.speaks⟩,
      ⟨t, hHeading.toFollows.onNode S hKeeps contacts, hHeading.phase⟩, h.trimmed⟩

theorem InOrder.coherent {s : System} (h : s.InOrder) : s.app.node.Coherent := by
  intro hRunning
  exact ⟨s.app.peerId, h.one.peerId_ne_nil, h.one.speaks hRunning⟩

/-- Three steps of the network thread publish a profile under the given text, while the
inbox is that of the trimmed text. -/
theorem not_coherent_of_untrimmed {peerId : Bytes} (hTrim : trim isSpace peerId ≠ peerId)
    (port : Nat) (bootstrapHost bootstrapPort : Bytes) (io : StartInput) :
    ¬ (run (step S) (launch peerId port bootstrapHost bootstrapPort)
      (List.replicate 3 (.work io))).app.node.Coherent := by
  intro hCoherent
  have hId : configuredId peerId = peerId := by
    unfold configuredId
    split
    · rename_i hNil
      exact absurd (by rw [hNil]; rfl) hTrim
    · rfl
  obtain ⟨n, profile, hMyId, hStopped, hUserId, hNode⟩ :
      ∃ (n : P2PNode) (profile : UserProfile), n.myId = trim isSpace peerId ∧
        n.running = false ∧ profile.userId = peerId ∧
        (run (step S) (launch peerId port bootstrapHost bootstrapPort)
          (List.replicate 3 (.work io))).app.node = (n.startNode io).publishProfile profile := by
    refine ⟨(launch peerId port bootstrapHost bootstrapPort).app.node,
      (launch peerId port bootstrapHost bootstrapPort).app.ownProfile, ?_, ?_, hId, rfl⟩
    · rw [(launch_node peerId port bootstrapHost bootstrapPort).1, hId]
    · exact (launch_node peerId port bootstrapHost bootstrapPort).2.2
  rw [hNode, P2PNode.startNode_of_stopped hStopped] at hCoherent
  obtain ⟨u, -, hSpeaks⟩ := hCoherent rfl
  have hInbox : inboxName n.myId = inboxName u := Option.some.inj hSpeaks.listens
  have hName : profile.userId = u :=
    (hSpeaks.puts _ (List.mem_append_right _ List.mem_cons_self) rfl).1
  have hSame : n.myId = u := List.append_cancel_right hInbox
  exact hTrim (hMyId.symm.trans (hSame.trans (hName.symm.trans hUserId)))

/-- From a launch on, in every run with trimmed ids and no refresh of an earlier profile, a
running node is coherent, if and only if the launch was given a trimmed id. -/
theorem coherent_iff_trimmed (peerId : Bytes) (port : Nat) (bootstrapHost bootstrapPort : Bytes) :
    (∀ actions, Along (step S) Action.Orderly (launch peerId port bootstrapHost bootstrapPort)
        actions →
      (run (step S) (launch peerId port bootstrapHost bootstrapPort)
        actions).app.node.Coherent) ↔
      trim isSpace peerId = peerId := by
  constructor
  · intro hRuns
    by_contra hTrim
    let io : StartInput := { generated := .constant 7 }
    refine not_coherent_of_untrimmed S hTrim port bootstrapHost bootstrapPort io (hRuns _ ?_)
    exact ⟨trivial, trivial, trivial, trivial⟩
  · intro hTrim actions hOrderly
    have hLaunch := inOrder_launch hTrim port bootstrapHost bootstrapPort
    exact (run_invariant_along (fun _ _ h hAction => h.step S hAction) hLaunch hOrderly).coherent

/-- A restart as Bob reaches a running node that still remembers Alice's profile. -/
example :
    let io : StartInput := { generated := .constant 7 }
    let s := run (step Sodium.additive)
      (launch (bytes "alice") 4222 (bytes "127.0.0.1") (bytes "0"))
      (List.replicate 4 (.work io) ++ .changePeerId (bytes "bob") :: List.replicate 4 (.work io))
    s.app.node.running = true ∧ s.app.node.myId = bytes "bob" ∧
      s.app.node.currentProfile.userId = bytes "alice" := by decide +kernel

/-- Alice's id with a blank on both sides: her profile is under the id with the blanks, her
inbox under the id without. -/
theorem padded_id_not_coherent :
    ¬ (run (step Sodium.additive) (launch (bytes " alice ") 4222 (bytes "127.0.0.1") (bytes "0"))
      (List.replicate 3 (.work { generated := .constant 7 }))).app.node.Coherent :=
  not_coherent_of_untrimmed Sodium.additive (by decide +kernel) _ _ _ _

end System

end P2PMessenger
