import P2PMessenger.Network.Peers
import P2PMessenger.Node.AtMostOnce

/-!
# Copies of one box

Freshness and uniqueness are decided from the message id and the timestamp, which travel
beside the box and are not covered by its tag. As long as every copy that would be accepted
is unaltered, the box inherits both: its reports share one pair of sender and message id,
and the checked timestamp is the time of sealing. A copy under a new message id and a new
timestamp is another message to every check there is.
-/

namespace P2PMessenger

open Text Crypto Run

/-- The report is of this box. Base64 is strict, so equal texts mean equal bytes. -/
def Report.Carries (box : EncryptedPacket) (r : Report) : Prop :=
  r.packet.nonce = box.nonce ∧ r.packet.ciphertext = box.ciphertext

/-- A report of the box keeps its pair and comes in time. -/
def Report.Faithful (box : EncryptedPacket) (r : Report) : Prop :=
  r.Carries box → r.pair = (box.senderId, box.messageId) ∧ |r.clock - box.timestamp| ≤ 300

instance (box : EncryptedPacket) (r : Report) : Decidable (r.Carries box) := by
  unfold Report.Carries
  infer_instance

namespace P2PNode

variable (S : Sodium)

/-- A copy of the box that comes through the validation and opens still has the sender id, the
message id and the timestamp of the box. -/
def CopyUnaltered (box : EncryptedPacket) (n : P2PNode) (e : Event) : Prop :=
  ∀ a ∈ n.attempt e, a.packet.nonce = box.nonce → a.packet.ciphertext = box.ciphertext →
    n.crypto.Reaches (n.inbound a.senderId a.packet) a.key n.myId a.clock →
    (CryptoService.openedText S (n.inbound a.senderId a.packet) n.myKeys.privateKey a.key).isSome →
      a.senderId = box.senderId ∧ a.packet.messageId = box.messageId ∧
        a.packet.timestamp = box.timestamp

theorem newReports_faithful {n : P2PNode} {e : Event} {box : EncryptedPacket}
    (h : n.CopyUnaltered S box e) : ∀ r ∈ n.newReports S e, r.Faithful box := by
  intro r hr hCarries
  obtain ⟨op, values, io, senderId, packet, key, rfl, hAction, hReaches, hOpens, hEq⟩ :=
    mem_newReports S hr
  rw [hEq] at hCarries ⊢
  obtain ⟨hSender, hId, hTime⟩ := h _ (attempt_of_decrypt hAction io) hCarries.1 hCarries.2
    hReaches (by rw [hOpens]; rfl)
  refine ⟨Prod.ext hSender hId, ?_⟩
  rw [← hTime]
  exact (passesChecks_iff.mp hReaches.2.1).window

theorem reports_faithful {n : P2PNode} (hStart : n.reports = []) {box : EncryptedPacket}
    {es : List Event} (h : Along (step S) (CopyUnaltered S box) n es) :
    ∀ r ∈ (run (step S) n es).reports, r.Faithful box := by
  have hStep : ∀ (n : P2PNode) (e : Event), (∀ r ∈ n.reports, r.Faithful box) →
      n.CopyUnaltered S box e → ∀ r ∈ (n.step S e).reports, r.Faithful box := by
    intro n e hPast hCopy r hr
    rw [step_reports, List.mem_append] at hr
    rcases hr with hOld | hNew
    · exact hPast r hOld
    · exact newReports_faithful S hCopy r hNew
  exact run_invariant_along (I := fun n : P2PNode => ∀ r ∈ n.reports, r.Faithful box) hStep
    (by simp [hStart]) h

end P2PNode

theorem Launch.deliveryInv (l : Launch) : l.node.DeliveryInv :=
  P2PNode.deliveryInv_step .additive
    (P2PNode.deliveryInv_step .additive P2PNode.deliveryInv_new (.setNodeConfig l.port l.id))
    (.startNode l.io)

section Peers

variable {ι : Type} [DecidableEq ι] (S : Sodium) (peers : ι → Launch)

/-- A box is reported at most once by one node, and only within the window around the time
at which it was sealed, in every run in which no altered copy of it comes through the
validation there and opens. -/
theorem box_reported_once {es : List (ι × Event)} {receiver : ι} {box : EncryptedPacket}
    (hCopies : AlongNet S peers
      (fun net e => e.1 = receiver → (net e.1).CopyUnaltered S box e.2) es) :
    ((netRun S peers es receiver).reports.filter (·.Carries box)).length ≤ 1 ∧
      ∀ r ∈ (netRun S peers es receiver).reports, r.Carries box →
        |r.clock - box.timestamp| ≤ 300 := by
  have hAlong : Along (P2PNode.step S) (P2PNode.CopyUnaltered S box) (peers receiver).node
      (eventsAt receiver es) := by
    apply (AlongNet.eventsAt S peers
      (P := fun i n e => i = receiver → n.CopyUnaltered S box e) hCopies receiver).mono
    intro n e hCopy
    exact hCopy rfl
  have hFaithful := P2PNode.reports_faithful S rfl hAlong
  have hInv : (run (P2PNode.step S) (peers receiver).node (eventsAt receiver es)).DeliveryInv :=
    run_invariant (I := P2PNode.DeliveryInv) (fun _ e h => P2PNode.deliveryInv_step S h e)
      (peers receiver).deliveryInv _
  rw [netRun_apply]
  constructor
  · apply length_filter_le_one hInv.nodup
    intro r hr hCarries
    exact (hFaithful r hr (of_decide_eq_true hCarries)).1
  · intro r hr hCarries
    exact (hFaithful r hr hCarries).2

end Peers

namespace Peer

/-- Alice's message reaches Bob, and later a copy under another message id and time. -/
def replayRun (text : Bytes) (io later : CallbackInput) : List (Peer × Event) :=
  aliceSends text io ++
    [(bob, .inbox [(0, fullPayload alice.launch.userId (aliceSealed text io)),
      (1, fullPayload alice.launch.userId { aliceSealed text io with
        messageId := generateMessageId later.draws.messageId, timestamp := later.now })] false),
      (bob, .lookup 0 [alice.profile] io), (bob, .lookup 1 [alice.profile] later)]

/-- Alice's message reaches Bob twice, before he has looked her up. -/
def duplicateRun (text : Bytes) (io : CallbackInput) : List (Peer × Event) :=
  aliceSends text io ++
    [(bob, .inbox [(0, fullPayload alice.launch.userId (aliceSealed text io)),
      (1, fullPayload alice.launch.userId (aliceSealed text io))] false),
      (bob, .lookup 0 [alice.profile] io), (bob, .lookup 1 [alice.profile] io)]

/-- Five minutes and one second after noon. -/
def tooLate : CallbackInput := { now := 43501, draws := .constant 5 10 }

/-- Bob reports the box twice, the second time outside the window. -/
theorem replayRun_reported_twice :
    HonestRun .additive launch (replayRun (bytes "hi") noon tooLate) ∧
      aliceSealed (bytes "hi") noon ∈ (netRun .additive launch
        (replayRun (bytes "hi") noon tooLate) alice).puts.filterMap Put.packet ∧
      ((netRun .additive launch (replayRun (bytes "hi") noon tooLate) bob).reports.filter
        (·.Carries (aliceSealed (bytes "hi") noon))).length = 2 ∧
      ∃ r ∈ (netRun .additive launch (replayRun (bytes "hi") noon tooLate) bob).reports,
        r.Carries (aliceSealed (bytes "hi") noon) ∧
          ¬ |r.clock - (aliceSealed (bytes "hi") noon).timestamp| ≤ 300 :=
  ⟨⟨by decide +kernel, by decide +kernel, by decide +kernel, by decide +kernel⟩,
    by decide +kernel, by decide +kernel, by decide +kernel⟩

/-- Without the altered copy, and with a verbatim one in its place, the box is reported once. -/
theorem verbatim_reported_once :
    ((netRun .additive launch (duplicateRun (bytes "hi") noon) bob).reports.filter
        (·.Carries (aliceSealed (bytes "hi") noon))).length ≤ 1 := by
  have hCopies : AlongNet .additive launch (fun net e => e.1 = bob →
      ∀ a ∈ (net e.1).attempt e.2, a.senderId = (aliceSealed (bytes "hi") noon).senderId ∧
        a.packet.messageId = (aliceSealed (bytes "hi") noon).messageId ∧
        a.packet.timestamp = (aliceSealed (bytes "hi") noon).timestamp)
      (duplicateRun (bytes "hi") noon) := by decide +kernel
  exact (box_reported_once .additive launch
    (hCopies.mono fun net e h hBob a ha _ _ _ _ => h hBob a ha)).1

end Peer

end P2PMessenger
