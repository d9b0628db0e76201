import P2PMessenger.Network.Namespaces
import P2PMessenger.Network.Peers
import P2PMessenger.Run.Simulation

/-!
# The worker thread

`backgroundPublishLoop` sleeps a second at a time and puts the profile again at every fifth
second of a session. The loop with its counter refines the node whose worker may refresh at
any moment, so what holds of every run of that node holds here too.
-/

namespace P2PMessenger

open Text Crypto Run

namespace P2PNode

/-- The values of profiles that the node put. -/
def profilePuts (n : P2PNode) : List Put := n.puts.filter fun q => q.packet = none

variable (S : Sodium)

theorem profilePuts_step {n : P2PNode} {e : Event}
    (hPublish : ∀ profile, e ≠ .publishProfile profile) (hRefresh : e ≠ .refreshProfile) :
    (n.step S e).profilePuts = n.profilePuts := by
  have hNone : (n.newPuts S e).filter (fun q => q.packet = none) = [] := by
    rw [List.filter_eq_nil_iff]
    intro q hq
    cases e with
    | publishProfile profile => exact absurd rfl (hPublish profile)
    | refreshProfile => exact absurd rfl hRefresh
    | lookup op values io =>
      simp only [newPuts] at hq
      split at hq
      · split at hq
        · cases hq
        · rw [List.mem_singleton.mp hq]
          exact Bool.false_ne_true
      · cases hq
    | _ => cases hq
  rw [profilePuts, step_puts, List.filter_append, hNone, List.append_nil, profilePuts]

theorem profilePuts_refreshProfile (n : P2PNode) :
    n.refreshProfile.profilePuts = n.profilePuts ++
      if n.currentProfile.userId ≠ [] then [n.profilePut n.currentProfile] else [] := by
  unfold refreshProfile
  split
  · rw [profilePuts, publishProfile_puts, List.filter_append]
    rfl
  · exact (List.append_nil _).symm

theorem currentProfile_run {n : P2PNode} {es : List Event}
    (hPublish : ∀ e ∈ es, ∀ profile, e ≠ .publishProfile profile) :
    (run (step S) n es).currentProfile = n.currentProfile := by
  refine run_invariant_along (I := fun m : P2PNode => m.currentProfile = n.currentProfile)
    (P := fun _ e => ∀ profile, e ≠ .publishProfile profile) ?_ rfl
    (along_of_forall_mem hPublish n)
  intro m e hSame hOther
  rcases step_currentProfile S m e with hStep | ⟨profile, hEvent, -⟩
  · exact hStep.trans hSame
  · exact absurd hEvent (hOther profile)

end P2PNode

/-- The node with the counter of its worker. -/
structure PublishLoop where
  node : P2PNode := {}
  secondsPassed : Nat := 0

/-- The end of a second of sleep, or an event of the node that is not the worker's. -/
inductive LoopEvent where
  | second
  | other (e : Event)

namespace LoopEvent

/-- The event neither configures nor starts nor stops the node. -/
def keeps : LoopEvent → Bool
  | .second => true
  | .other e => e.keeps

def publishes : LoopEvent → Bool
  | .other (.publishProfile _) => true
  | _ => false

def isSecond : LoopEvent → Bool
  | .second => true
  | .other _ => false

end LoopEvent

namespace PublishLoop

/-- One turn of the loop, behind its `sleep_for`. -/
def second (w : PublishLoop) : PublishLoop :=
  if !w.node.running then w
  else
    let secondsPassed := w.secondsPassed + 1
    if secondsPassed ≥ 5 then { node := w.node.refreshProfile, secondsPassed := 0 }
    else { w with secondsPassed := secondsPassed }

/-- The counter behind an event: a node that starts hires a new worker. -/
def counter (w : PublishLoop) : Event → Nat
  | .startNode _ => if w.node.running then w.secondsPassed else 0
  | _ => w.secondsPassed

variable (S : Sodium)

def step (w : PublishLoop) : LoopEvent → PublishLoop
  | .second => w.second
  | .other .refreshProfile => w
  | .other e => { node := w.node.step S e, secondsPassed := w.counter e }

/-! ## The loop and the node -/

/-- What the node does in a step of the loop. -/
def nodeEvents (w : PublishLoop) : LoopEvent → List Event
  | .second => if w.node.running ∧ 5 ≤ w.secondsPassed + 1 then [.refreshProfile] else []
  | .other .refreshProfile => []
  | .other e => [e]

theorem step_node (w : PublishLoop) (e : LoopEvent) :
    (w.step S e).node = run (P2PNode.step S) w.node (w.nodeEvents e) := by
  cases e with
  | second =>
    simp only [step, second, nodeEvents]
    cases hRunning : w.node.running with
    | false => simp
    | true =>
      by_cases hFifth : 5 ≤ w.secondsPassed + 1
      · simp [hFifth, P2PNode.step, hRunning]
      · simp [hFifth]
  | other e => cases e <;> rfl

/-- The loop refines the node. -/
theorem node_run (w : PublishLoop) (es : List LoopEvent) :
    (run (step S) w es).node =
      run (P2PNode.step S) w.node (added (step S) nodeEvents w es) :=
  run_part (f := node) (step_node S) w es

theorem secondsPassed_lt {w : PublishLoop} (h : w.secondsPassed < 5) (e : LoopEvent) :
    (w.step S e).secondsPassed < 5 := by
  cases e with
  | second =>
    simp only [step, second]
    split
    · exact h
    · split
      · exact Nat.zero_lt_succ 4
      · exact Nat.lt_of_not_le ‹_›
  | other e =>
    cases e with
    | startNode io =>
      simp only [step, counter]
      split
      · exact h
      · exact Nat.zero_lt_succ 4
    | _ => exact h

/-! ## Within a session -/

theorem nodeEvents_keeps {w : PublishLoop} {e : LoopEvent} (hKeeps : e.keeps = true) :
    ∀ event ∈ w.nodeEvents e, event.keeps = true := by
  intro event hEvent
  cases e with
  | second =>
    simp only [nodeEvents] at hEvent
    split at hEvent
    · rw [List.mem_singleton.mp hEvent]
      rfl
    · cases hEvent
  | other e =>
    cases e with
    | refreshProfile => cases hEvent
    | _ =>
      rw [List.mem_singleton.mp hEvent]
      exact hKeeps

/-- A session of the loop is one of the node. -/
theorem sameSession_run {w : PublishLoop} {es : List LoopEvent}
    (hKeeps : ∀ e ∈ es, e.keeps = true) :
    P2PNode.SameSession w.node (run (step S) w es).node := by
  rw [node_run]
  refine P2PNode.run_sameSession S (along_of_forall_mem ?_ w.node)
  intro event hEvent
  obtain ⟨pre, e, post, rfl, hNew⟩ := mem_added hEvent
  exact nodeEvents_keeps (hKeeps e (by simp)) event hNew

theorem sameSession_step {w : PublishLoop} {e : LoopEvent} (hKeeps : e.keeps = true) :
    P2PNode.SameSession w.node (w.step S e).node :=
  sameSession_run S (List.forall_mem_singleton.mpr hKeeps)

theorem secondsPassed_step {w : PublishLoop} (h : w.secondsPassed < 5)
    (hRunning : w.node.running = true) {e : LoopEvent} (hKeeps : e.keeps = true) :
    (w.step S e).secondsPassed = (w.secondsPassed + [e].countP LoopEvent.isSecond) % 5 := by
  cases e with
  | second =>
    simp only [step, second, hRunning, LoopEvent.isSecond, List.countP_singleton, if_true]
    by_cases hFifth : 5 ≤ w.secondsPassed + 1
    · have hFour : w.secondsPassed = 4 := by omega
      simp [hFour]
    · simp [hFifth, Nat.mod_eq_of_lt (Nat.lt_of_not_le hFifth)]
  | other e =>
    have hSame : (w.step S (.other e)).secondsPassed = w.secondsPassed := by
      cases e with
      | startNode io => cases hKeeps
      | _ => rfl
    rw [hSame]
    exact (Nat.mod_eq_of_lt h).symm

/-- What a second of the session puts into the DHT. -/
theorem profilePuts_loopStep {w : PublishLoop} (h : w.secondsPassed < 5)
    (hRunning : w.node.running = true) {e : LoopEvent} (hKeeps : e.keeps = true)
    (hPublish : e.publishes = false) :
    (w.step S e).node.profilePuts = w.node.profilePuts ++
      if w.node.currentProfile.userId ≠ [] then
        List.replicate ((w.secondsPassed + [e].countP LoopEvent.isSecond) / 5)
          (w.node.profilePut w.node.currentProfile)
      else [] := by
  have hOld : w.secondsPassed / 5 = 0 := Nat.div_eq_of_lt h
  cases e with
  | second =>
    simp only [step, second, hRunning, LoopEvent.isSecond, List.countP_singleton, if_true]
    by_cases hFifth : 5 ≤ w.secondsPassed + 1
    · have hFour : w.secondsPassed = 4 := by omega
      simp [hFour, P2PNode.profilePuts_refreshProfile]
    · simp [hFifth, Nat.div_eq_of_lt (Nat.lt_of_not_le hFifth)]
  | other e =>
    simp only [LoopEvent.isSecond, List.countP_singleton, Bool.false_eq_true, if_false,
      Nat.add_zero, hOld, List.replicate_zero, ite_self, List.append_nil]
    cases e with
    | refreshProfile => rfl
    | publishProfile profile => cases hPublish
    | startNode io => cases hKeeps
    | _ => exact P2PNode.profilePuts_step S (fun _ => Event.noConfusion) Event.noConfusion

theorem currentProfile_loopStep {w : PublishLoop} {e : LoopEvent} (hPublish : e.publishes = false) :
    (w.step S e).node.currentProfile = w.node.currentProfile := by
  rw [step_node]
  apply P2PNode.currentProfile_run
  intro event hEvent
  cases e with
  | second =>
    simp only [nodeEvents] at hEvent
    split at hEvent
    · rw [List.mem_singleton.mp hEvent]
      exact fun _ => Event.noConfusion
    · cases hEvent
  | other e =>
    cases e with
    | refreshProfile => cases hEvent
    | publishProfile profile => cases hPublish
    | _ =>
      rw [List.mem_singleton.mp hEvent]
      exact fun _ => Event.noConfusion

theorem countP_isSecond_cons (e : LoopEvent) (es : List LoopEvent) :
    (e :: es).countP LoopEvent.isSecond =
      [e].countP LoopEvent.isSecond + es.countP LoopEvent.isSecond := by
  rw [← List.countP_append]
  rfl

/-- The counter is the number of seconds of the session, modulo five. -/
theorem secondsPassed_run {w : PublishLoop} (h : w.secondsPassed < 5)
    (hRunning : w.node.running = true) {es : List LoopEvent} (hKeeps : ∀ e ∈ es, e.keeps = true) :
    (run (step S) w es).secondsPassed =
      (w.secondsPassed + es.countP LoopEvent.isSecond) % 5 := by
  induction es generalizing w with
  | nil => exact (Nat.mod_eq_of_lt h).symm
  | cons e es ih =>
    obtain ⟨hFirst, hRest⟩ := List.forall_mem_cons.mp hKeeps
    have hCounter := secondsPassed_step S h hRunning hFirst
    have hStill := (sameSession_step S hFirst).running.trans hRunning
    rw [run_cons, ih (secondsPassed_lt S h e) hStill hRest, hCounter, countP_isSecond_cons e es]
    omega

/-- The profile is put again whenever the number of seconds passes a multiple of five. -/
theorem profilePuts_run {w : PublishLoop} (h : w.secondsPassed < 5)
    (hRunning : w.node.running = true) {es : List LoopEvent} (hKeeps : ∀ e ∈ es, e.keeps = true)
    (hPublish : ∀ e ∈ es, e.publishes = false) :
    (run (step S) w es).node.profilePuts = w.node.profilePuts ++
      if w.node.currentProfile.userId ≠ [] then
        List.replicate ((w.secondsPassed + es.countP LoopEvent.isSecond) / 5)
          (w.node.profilePut w.node.currentProfile)
      else [] := by
  induction es generalizing w with
  | nil => simp [Nat.div_eq_of_lt h]
  | cons e es ih =>
    obtain ⟨hFirst, hRest⟩ := List.forall_mem_cons.mp hKeeps
    obtain ⟨hSilent, hRest'⟩ := List.forall_mem_cons.mp hPublish
    have hCounter := secondsPassed_step S h hRunning hFirst
    have hSame := sameSession_step S (w := w) hFirst
    have hProfile := currentProfile_loopStep S (w := w) hSilent
    have hPut : (w.step S e).node.profilePut w.node.currentProfile =
        w.node.profilePut w.node.currentProfile := by
      rw [P2PNode.profilePut, P2PNode.profilePut, hSame.myKeys, hSame.session]
    have hSum : (w.secondsPassed + (e :: es).countP LoopEvent.isSecond) / 5 =
        (w.secondsPassed + [e].countP LoopEvent.isSecond) / 5 +
          ((w.secondsPassed + [e].countP LoopEvent.isSecond) % 5 +
            es.countP LoopEvent.isSecond) / 5 := by
      rw [countP_isSecond_cons e es]
      omega
    rw [run_cons, ih (secondsPassed_lt S h e) (hSame.running.trans hRunning) hRest hRest',
      profilePuts_loopStep S h hRunning hFirst hSilent, hProfile, hPut, hCounter, hSum,
      List.append_assoc]
    split
    · rw [List.replicate_append_replicate]
    · rfl

/-- In a session the profile is put again at every fifth second since the node was started,
and by nothing else as long as none is published: the value that is current, under the keys
of the session. -/
theorem refreshed_every_fifth_second {before past now : List LoopEvent} {io : StartInput}
    (hStopped : (run (step S) {} before).node.running = false)
    (hPast : ∀ e ∈ past, e.keeps = true) (hNow : ∀ e ∈ now, e.keeps = true)
    (hPublish : ∀ e ∈ now, e.publishes = false) {w : PublishLoop}
    (hSession : w = run (step S) {} (before ++ .other (.startNode io) :: past)) :
    (run (step S) w now).node.profilePuts = w.node.profilePuts ++
      if w.node.currentProfile.userId ≠ [] then
        List.replicate ((past ++ now).countP LoopEvent.isSecond / 5 -
            past.countP LoopEvent.isSecond / 5)
          (w.node.profilePut w.node.currentProfile)
      else [] := by
  have hStart : ((run (step S) {} before).step S (.other (.startNode io))).secondsPassed = 0 ∧
      ((run (step S) {} before).step S (.other (.startNode io))).node.running = true := by
    simp [step, counter, hStopped, P2PNode.step, P2PNode.startNode, P2PNode.runDht,
      P2PNode.notifyNetworkStatus]
  have hRunning := (sameSession_run S hPast).running.trans hStart.2
  have hCounter := secondsPassed_run S (by rw [hStart.1]; decide) hStart.2 hPast
  rw [hStart.1, Nat.zero_add] at hCounter
  rw [run_append, run_cons] at hSession
  rw [← hSession] at hRunning hCounter
  have hSmall : w.secondsPassed < 5 := hCounter ▸ Nat.mod_lt _ (Nat.zero_lt_succ 4)
  have hSum : (w.secondsPassed + now.countP LoopEvent.isSecond) / 5 =
      (past ++ now).countP LoopEvent.isSecond / 5 - past.countP LoopEvent.isSecond / 5 := by
    rw [hCounter, List.countP_append]
    omega
  rw [profilePuts_run S hSmall hRunning hNow hPublish, hSum]

/-- Alice's node three seconds after she has published her profile. -/
def aliceLoop : PublishLoop :=
  run (step .additive) {} ([] ++ .other (.startNode Peer.alice.launch.io) ::
    [.other (.publishProfile { userId := bytes "alice" }), .second, .second, .second])

theorem aliceLoop_refreshed :
    (run (step .additive) aliceLoop (List.replicate 7 .second)).node.profilePuts =
      aliceLoop.node.profilePuts ++
        List.replicate 2 (aliceLoop.node.profilePut { userId := bytes "alice" }) :=
  refreshed_every_fifth_second .additive rfl (by decide) (by decide) (by decide) rfl

end PublishLoop

end P2PMessenger
