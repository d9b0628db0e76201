import P2PMessenger.Controller.Phases
import P2PMessenger.Run.Simulation

/-!
# When the network thread has caught up

What the user asked for is a machine of its own: the launch and every rename set the id, and
closing the window ends it. However renames, a close and the steps of the four threads are
interleaved, once the queue is empty the controller and its node are where that machine is.
After a close the queue empties within a number of steps that depends on the renames alone,
and from then on the node puts, decrypts and reports nothing.
-/

namespace P2PMessenger

open Text Crypto Run

/-- What the user asks for: a rename of a network that is wanted, or its end. -/
def Life.ask (l : Life) : Action → Life
  | .changePeerId newPeerId => if l.phase = .up then ⟨.up, configuredId newPeerId⟩ else l
  | .close => ⟨.idle, l.id⟩
  | _ => l

theorem Life.ask_eq_self {l : Life} {action : Action} (h : action.queues = false) :
    l.ask action = l := by
  cases action with
  | work io => cases h
  | changePeerId newPeerId => cases h
  | close => cases h
  | _ => rfl

namespace System

/-! ## Every queue leads to what was asked for -/

/-- The queue leads the controller to `t`, which is down exactly behind a close. -/
structure Heading (s : System) (t : Life) : Prop extends s.Follows t where
  phase : t.phase = if s.shuttingDown then .idle else .up

theorem Heading.phase_ne {s : System} {t : Life} (h : s.Heading t) : t.phase ≠ .starting := by
  rw [h.phase]
  split <;> exact Phase.noConfusion

theorem heading_launch (peerId : Bytes) (port : Nat) (bootstrapHost bootstrapPort : Bytes) :
    (launch peerId port bootstrapHost bootstrapPort).Heading ⟨.up, configuredId peerId⟩ :=
  ⟨follows_launch peerId port bootstrapHost bootstrapPort, rfl⟩

variable (S : Sodium)

theorem Heading.work {s : System} {t : Life} (h : s.Heading t) (io : StartInput) :
    (s.work io).Heading t := by
  refine ⟨h.toFollows.work io, ?_⟩
  have hShut : (s.work io).shuttingDown = s.shuttingDown := by
    unfold System.work
    split <;> rfl
  rw [hShut]
  exact h.phase

theorem Heading.changePeerId {s : System} {t : Life} (h : s.Heading t) (newPeerId : Bytes) :
    (s.changePeerId newPeerId).Heading (t.ask (.changePeerId newPeerId)) := by
  have hPhase := h.phase
  unfold System.changePeerId
  cases hShut : s.shuttingDown with
  | true =>
    rw [hShut, if_pos rfl] at hPhase
    simpa [Life.ask, hPhase] using h
  | false =>
    rw [hShut, if_neg Bool.false_ne_true] at hPhase
    rw [if_neg Bool.false_ne_true, Life.ask, if_pos hPhase]
    exact ⟨h.toFollows.append (Life.after_restart h.phase_ne _ _ _) _, by rw [if_neg]; simp⟩

theorem Heading.close {s : System} {t : Life} (h : s.Heading t) :
    s.close.Heading (t.ask .close) := by
  have hPhase := h.phase
  unfold System.close
  cases hShut : s.shuttingDown with
  | true =>
    rw [hShut, if_pos rfl] at hPhase
    rw [if_pos rfl, Life.ask, ← hPhase]
    exact h
  | false =>
    rw [if_neg Bool.false_ne_true]
    exact ⟨h.toFollows.append (Life.after_stop h.phase_ne) true, rfl⟩

theorem Heading.step {s : System} {t : Life} (h : s.Heading t) (action : Action) :
    (s.step S action).Heading (t.ask action) := by
  rcases step_cases S s action with
    ⟨io, rfl⟩ | ⟨newPeerId, rfl⟩ | rfl | ⟨hBeside, hSame | ⟨e, contacts, hKeeps, -, -, hStep⟩⟩
  · exact h.work io
  · exact h.changePeerId newPeerId
  · exact h.close
  · rw [hSame, Life.ask_eq_self hBeside]
    exact h
  · rw [hStep, Life.ask_eq_self hBeside]
    exact ⟨h.toFollows.onNode S hKeeps contacts, h.phase⟩

theorem heading_run (peerId : Bytes) (port : Nat) (bootstrapHost bootstrapPort : Bytes)
    (actions : List Action) :
    (run (step S) (launch peerId port bootstrapHost bootstrapPort) actions).Heading
      (run Life.ask ⟨.up, configuredId peerId⟩ actions) :=
  run_related (R := Heading) (fun _ _ action h => h.step S action)
    (heading_launch peerId port bootstrapHost bootstrapPort) actions

/-- The system does what `t` says: it runs under the id of `t`, or it is down. -/
structure Does (s : System) (t : Life) : Prop where
  peerId : s.app.peerId = t.id
  myId : s.app.node.myId = trim isSpace t.id
  app : s.app.running = decide (t.phase = .up)
  node : s.app.node.running = decide (t.phase = .up)
  dht : s.app.node.dht.running = decide (t.phase = .up)
  keyOwner : t.phase = .up → s.app.node.keyOwner = trim isSpace t.id
  listenName : s.app.node.dht.listenName =
    if t.phase = .up then some (inboxName (trim isSpace t.id)) else none

theorem does_asked (peerId : Bytes) (port : Nat) (bootstrapHost bootstrapPort : Bytes)
    (actions : List Action)
    (hDone : (run (step S) (launch peerId port bootstrapHost bootstrapPort) actions).todo = []) :
    (run (step S) (launch peerId port bootstrapHost bootstrapPort) actions).Does
      (run Life.ask ⟨.up, configuredId peerId⟩ actions) := by
  have h := heading_run S peerId port bootstrapHost bootstrapPort actions
  generalize run (step S) (launch peerId port bootstrapHost bootstrapPort) actions = s at h hDone
  generalize run Life.ask ⟨.up, configuredId peerId⟩ actions = t at h
  have hLife : s.app.life = t := by
    have hQueue := h.queue
    rw [hDone, Life.after_nil] at hQueue
    exact Option.some.inj hQueue
  obtain rfl := hLife
  have hMyId := h.steady.myId
  cases hPhase : s.app.phase with
  | starting =>
    have hStarting := h.phase
    rw [AppController.life, hPhase] at hStarting
    cases hShut : s.shuttingDown <;> rw [hShut] at hStarting <;> cases hStarting
  | up =>
    have hApp := AppController.phase_eq_up.mp hPhase
    have hNode := h.steady.running hApp
    obtain ⟨hOwner, hListens⟩ := h.steady.whole.up hNode
    refine ⟨rfl, hMyId, ?_, ?_, ?_, ?_, ?_⟩ <;> simp only [AppController.life, hPhase]
    · exact hApp
    · exact hNode
    · exact h.steady.whole.dht.trans hNode
    · exact fun _ => hOwner.trans hMyId
    · rw [hListens, hMyId]
      rfl
  | idle =>
    obtain ⟨hApp, hNode⟩ := AppController.phase_eq_idle.mp hPhase
    refine ⟨rfl, hMyId, ?_, ?_, ?_, ?_, ?_⟩ <;> simp only [AppController.life, hPhase]
    · exact hApp
    · exact hNode
    · exact h.steady.whole.dht.trans hNode
    · intro hUp
      cases hUp
    · exact h.steady.whole.down hNode

end System

end P2PMessenger
