import P2PMessenger.Network.Directory
import P2PMessenger.Node.Accounting
import Mathlib.Data.Multiset.OrderedMonoid

/-!
# A network of nodes as channels

In a closed network what a node reports in the name of a peer is, text by text and with
multiplicity, among what that peer was asked to send to it. Values that are lost, repeated or
reordered, and nodes that stop and start again, lead to missing reports only. Each report
has its own packet in the sender's puts, because no pair of a sender and a message id is
reported twice; each packet has its own lookup, because a lookup is answered once.
-/

namespace P2PMessenger

open Text Crypto Run

/-- The text of a send to this receiver. -/
def Event.textFor (receiverId : Bytes) : Event → Option Bytes
  | .sendMessage _ toPeerId text => if toPeerId = receiverId then some text else none
  | _ => none

/-- The text that a lookup of `sendPacket` will send to this receiver. -/
def Callback.textFor (receiverId : Bytes) : Callback → Option Bytes
  | .onProfileFound toPeerId packet => if toPeerId = receiverId then some packet.ciphertext else none
  | _ => none

theorem filterMap_sublist {α β : Type} {f g : α → Option β} {l : List α}
    (h : ∀ x ∈ l, ∀ b ∈ f x, g x = some b) : (l.filterMap f).Sublist (l.filterMap g) := by
  induction l with
  | nil => exact List.Sublist.refl _
  | cons x rest ih =>
    have hRest := ih fun y hy => h y (List.mem_cons_of_mem x hy)
    cases hx : f x with
    | none =>
      rw [List.filterMap_cons_none hx]
      exact hRest.trans ((List.sublist_cons_self x rest).filterMap g)
    | some b =>
      rw [List.filterMap_cons_some hx, List.filterMap_cons_some (h x List.mem_cons_self b hx)]
      exact hRest.cons_cons b

namespace P2PNode

/-- The packets that the node put for a receiver. -/
def sentTo (n : P2PNode) (receiverId : Bytes) : List EncryptedPacket :=
  (n.puts.filterMap Put.packet).filter fun packet => packet.receiverId = receiverId

def reportsFrom (n : P2PNode) (senderId : Bytes) : List Report :=
  n.reports.filter fun r => r.fromPeerId = senderId

variable (S : Sodium)

theorem mem_sentTo_step {n : P2PNode} {receiverId : Bytes} {packet : EncryptedPacket}
    (h : packet ∈ n.sentTo receiverId) (e : Event) : packet ∈ (n.step S e).sentTo receiverId := by
  unfold sentTo at h ⊢
  rw [step_puts, List.filterMap_append, List.filter_append]
  exact List.mem_append_left _ h

/-! ## Texts that are sent -/

/-- What a node starts for a receiver are the texts it was asked to send. -/
theorem texts_started_sublist (n : P2PNode) (e : Event) (receiverId : Bytes) :
    ((n.startedLookups e).filterMap fun g => g.callback.textFor receiverId).Sublist
      (e.textFor receiverId).toList := by
  cases e with
  | sendMessage op toPeerId text =>
    simp only [startedLookups]
    split
    · exact List.nil_sublist _
    · simp only [List.filterMap_cons, List.filterMap_nil, Callback.textFor, Event.textFor]
      split <;> simp_all
  | inbox values expired =>
    have hNone : (n.valueGets values).filterMap (fun g => g.callback.textFor receiverId) = [] := by
      rw [List.filterMap_eq_nil_iff]
      intro g hg
      obtain ⟨_, _, _, _, -, hGet, -⟩ := mem_valueGets hg
      rw [hGet]
      rfl
    simp only [startedLookups]
    split
    · rw [hNone]
      exact List.nil_sublist _
    · exact List.nil_sublist _
  | _ => exact List.nil_sublist _

theorem texts_answered_le {n : P2PNode} (hGets : n.dht.gets = []) (es : List Event)
    (receiverId : Bytes) :
    (((added (step S) (answeredLookups S) n es).filterMap fun g =>
        g.callback.textFor receiverId : List Bytes) : Multiset Bytes) ≤
      ↑(es.filterMap fun e => e.textFor receiverId) := by
  have hBalance := balance_run_le
    (fun n : P2PNode => (n.openLookups : Multiset Get))
    (fun n e => (n.startedLookups e : Multiset Get))
    (fun n e => (n.answeredLookups S e : Multiset Get) + (n.droppedLookups e : Multiset Get))
    (step_lookups_le S) n es
  have hNone : n.openLookups = [] := by simp [openLookups, hGets]
  rw [total_add, total_coe, total_coe, total_coe, hNone] at hBalance
  have hAnswered : (added (step S) (answeredLookups S) n es : Multiset Get) ≤
      ↑(added (step S) startedLookups n es) := by
    calc (added (step S) (answeredLookups S) n es : Multiset Get)
        _ ≤ _ + _ := Multiset.le_add_right _ _
        _ ≤ _ + (_ + _) := Multiset.le_add_left _ _
        _ ≤ 0 + _ := hBalance
        _ = _ := zero_add _
  have hStarted : ((added (step S) startedLookups n es).filterMap fun g =>
      g.callback.textFor receiverId).Sublist (es.filterMap fun e => e.textFor receiverId) := by
    rw [← added_toList (step S) (fun e => e.textFor receiverId) n es,
      ← added_filterMap (fun _ _ => rfl)]
    exact added_sublist (fun n e => texts_started_sublist n e receiverId) n es
  calc (((added (step S) (answeredLookups S) n es).filterMap fun g =>
        g.callback.textFor receiverId : List Bytes) : Multiset Bytes)
      _ = (added (step S) (answeredLookups S) n es : Multiset Get).filterMap _ := rfl
      _ ≤ (added (step S) startedLookups n es : Multiset Get).filterMap _ :=
        Multiset.filterMap_le_filterMap _ hAnswered
      _ ≤ ↑(es.filterMap fun e => e.textFor receiverId) := Multiset.coe_le.mpr hStarted.subperm

/-! ## Packets that are put -/

/-- A put packet answers a lookup of its receiver, and its box holds the text of that lookup
under the key in the answer. -/
theorem packet_of_mem_outcomes {n : P2PNode} {e : Event} {c : Get × Outcome}
    {packet : EncryptedPacket} (hc : c ∈ n.outcomes S e) (hPacket : c.2.packet = some packet) :
    ∃ values io request key, e = .lookup c.1.op values io ∧ n.pending c.1.op = some c.1 ∧
      c.1.callback = .onProfileFound packet.receiverId request ∧ profileKey values = some key ∧
      ∃ ciphertext,
        S.boxEasy request.ciphertext io.draws.nonce key n.myKeys.privateKey = some ciphertext ∧
        packet = CryptoService.sealedPacket n.myId packet.receiverId io.draws io.now ciphertext := by
  obtain ⟨g, o⟩ := c
  obtain ⟨values, io, rfl, hPending, -, hKind⟩ :=
    completion_eq_some S (Option.mem_toList.mp hc)
  rcases hKind with ⟨receiverId, request, hCallback, rfl⟩ | ⟨senderId, request, -, rfl⟩
  · dsimp only at hPacket
    rw [sendOutcome] at hPacket
    cases hAnswer : profileAnswer values with
    | key publicKey =>
      rw [hAnswer] at hPacket
      dsimp only at hPacket
      split at hPacket
      · cases hPacket
      · rename_i ciphertext hBox
        obtain rfl := Option.some.inj hPacket
        refine ⟨values, io, request, publicKey, rfl, hPending, hCallback, ?_, ciphertext, hBox,
          rfl⟩
        rw [profileKey_eq, hAnswer]
    | _ =>
      rw [hAnswer] at hPacket
      cases hPacket
  · rw [deliveryOutcome_ne_put] at hPacket
    cases hPacket

end P2PNode

section Channel

variable {ι κ : Type} (S : Sodium) {peers : ι → Launch} {start : ι → P2PNode} {hash : Bytes → κ}
  {ids : Set Bytes}

/-- The text that a peer reads in a packet of another one. -/
def readBy (peers : ι → Launch) (sender receiver : ι) (packet : EncryptedPacket) : Option Bytes :=
  CryptoService.openedText S packet (peers receiver).node.myKeys.privateKey (peers sender).publicKey

/-- A packet in the outcomes of a peer is read by its receiver as the text of the lookup. -/
theorem readBy_of_outcome {net : ι → P2PNode} (hNet : ClosedNet peers ids net)
    (hIds : UsableIds peers ids) (hHash : Function.Injective hash) {sender receiver : ι}
    (hBox : S.RoundTrips (peers sender).node.myKeys (peers receiver).node.myKeys) {e : Event}
    (hServed : Served hash net (sender, e)) {c : Get × Outcome} {packet : EncryptedPacket}
    (hc : c ∈ (net sender).outcomes S e) (hPacket : c.2.packet = some packet)
    (hReceiver : packet.receiverId = (peers receiver).userId) :
    c.1.callback.textFor (peers receiver).userId = readBy S peers sender receiver packet := by
  obtain ⟨values, io, request, key, rfl, hPending, hCallback, hKey, ciphertext, hSeal, hSealed⟩ :=
    P2PNode.packet_of_mem_outcomes S hc hPacket
  have hUser : c.1.callback.userId = (peers receiver).userId := by
    rw [hCallback]
    exact hReceiver
  obtain rfl := hNet.served_key hIds hHash hServed hPending hKey hUser
  rw [(hNet.genuine sender).keys_of_pending hPending] at hSeal
  obtain ⟨ciphertext', hSeal', hOpen⟩ :=
    hBox request.ciphertext io.draws.nonce io.draws.nonce_length
  obtain rfl : ciphertext = ciphertext' := Option.some.inj (hSeal.symm.trans hSeal')
  have hLong : crypto_box_MACBYTES ≤ ciphertext.length := by
    rw [S.boxEasy_length hSeal]
    exact Nat.le_add_right _ _
  have hText : readBy S peers sender receiver packet = some request.ciphertext := by
    rw [hSealed]
    exact (CryptoService.openedText_eq_some_iff S).mpr
      ⟨io.draws.nonce, ciphertext, rfl, rfl, hLong, hOpen⟩
  rw [hText, hCallback, Callback.textFor, if_pos hReceiver]

/-! ## Texts that are reported -/

/-- What a peer looks up for delivery, and what it reported, was put for it by the sender that
is named. -/
structure ReceivedInv (peers : ι → Launch) (net : ι → P2PNode) : Prop where
  lookups : ∀ i, ∀ g ∈ (net i).dht.gets, ∀ senderId packet,
    g.callback = .onSenderProfileFound senderId packet →
      ∃ j, senderId = (peers j).userId ∧ packet ∈ (net j).sentTo (peers i).userId
  reports : ∀ i, ∀ r ∈ (net i).reports, ∃ j, r.fromPeerId = (peers j).userId ∧
    r.packet ∈ (net j).sentTo (peers i).userId ∧ readBy S peers j i r.packet = some r.text

section Step

variable {net : ι → P2PNode} (h : ReceivedInv S peers net)
  (hNet : ClosedNet peers ids net) (hIds : UsableIds peers ids)
  (hHash : Function.Injective hash) {i : ι} {e : Event} (hServed : Served hash net (i, e))

include h hNet hIds hHash hServed

theorem lookup_of_step {g : Get} (hg : g ∈ ((net i).step S e).dht.gets) {senderId : Bytes}
    {packet : EncryptedPacket} (hCallback : g.callback = .onSenderProfileFound senderId packet) :
    ∃ j, senderId = (peers j).userId ∧ packet ∈ (net j).sentTo (peers i).userId := by
  rcases P2PNode.mem_step_gets S hg with ⟨flag, hOld⟩ | ⟨_, _, rfl, hNew⟩ | ⟨_, rfl, hNew⟩ |
    ⟨values, rfl, hNew⟩
  · exact h.lookups i _ hOld senderId packet hCallback
  · rw [hCallback] at hNew
    cases hNew
  · rw [hCallback] at hNew
    cases hNew
  · obtain ⟨j, sent, hSent, hPacket, hReceiver⟩ := hNet.served_value hIds hHash hServed hNew
    rw [hCallback] at hSent
    obtain ⟨rfl, rfl⟩ := Callback.onSenderProfileFound.inj hSent
    exact ⟨j, rfl, List.mem_filter.mpr ⟨hPacket, decide_eq_true hReceiver⟩⟩

/-- What a peer decrypts is a packet that the named sender put for it, with that sender's key. -/
theorem decrypts_sent {op : Nat} {values : List Bytes} {io : CallbackInput} {senderId key : Bytes}
    {packet : EncryptedPacket} (hLookup : e = .lookup op values io)
    (hAction : (net i).lookupAction op values = .decrypt senderId packet key) :
    ∃ j, senderId = (peers j).userId ∧ key = (peers j).publicKey ∧
      packet ∈ (net j).sentTo (peers i).userId ∧ (net i).inbound senderId packet = packet ∧
      (net i).myKeys = (peers i).node.myKeys := by
  subst hLookup
  obtain ⟨hPending, hKey⟩ := P2PNode.pending_of_decrypt hAction
  obtain ⟨j, rfl, hSent⟩ := h.lookups i _ (P2PNode.of_pending hPending).2.1 senderId packet rfl
  have hOwner := hNet.served_key hIds hHash hServed hPending hKey (j := j) rfl
  refine ⟨j, rfl, hOwner, hSent, ?_, (hNet.genuine i).keys_of_pending hPending⟩
  -- the ids that the receiver fills in are those of the packet
  obtain ⟨hPacket, hReceiver⟩ := List.mem_filter.mp hSent
  obtain ⟨draws, now, ciphertext, -, -, hSealed⟩ := hNet.sealedPacket hPacket
  rw [P2PNode.inbound, (hNet.genuine i).myId, ← of_decide_eq_true hReceiver, hSealed]
  rfl

theorem report_of_step {r : Report} (hr : r ∈ (net i).newReports S e) :
    ∃ j, r.fromPeerId = (peers j).userId ∧ r.packet ∈ (net j).sentTo (peers i).userId ∧
      readBy S peers j i r.packet = some r.text := by
  obtain ⟨op, values, io, senderId, packet, key, hLookup, hAction, -, hText, hr⟩ :=
    P2PNode.mem_newReports S hr
  obtain ⟨j, rfl, rfl, hSent, hInbound, hKeys⟩ :=
    decrypts_sent S h hNet hIds hHash hServed hLookup hAction
  rw [hInbound] at hr hText
  refine ⟨j, by rw [hr], by rw [hr]; exact hSent, ?_⟩
  rw [hr, readBy, ← hText, hKeys]

end Step

theorem receivedInv_unused (hUnused : ∀ i, (start i).Unused (peers i)) :
    ReceivedInv S peers start where
  lookups i g hg := by
    rw [(hUnused i).gets] at hg
    cases hg
  reports i r hr := by
    rw [(hUnused i).reports] at hr
    cases hr

/-! ## Runs -/

variable [DecidableEq ι]

/-- The texts in the packets that a peer put for another are among those it was asked to
send. -/
theorem texts_put_le {es : List (ι × Event)} (h : ClosedRun S peers start hash ids es)
    (sender receiver : ι) :
    ((((netFrom S start es sender).sentTo (peers receiver).userId).filterMap
        (readBy S peers sender receiver) : List Bytes) : Multiset Bytes) ≤
      ↑((eventsAt sender es).filterMap fun e => e.textFor (peers receiver).userId) := by
  refine le_trans (Multiset.coe_le.mpr (List.Sublist.subperm ?_))
    (P2PNode.texts_answered_le S (h.unused sender).gets (eventsAt sender es) (peers receiver).userId)
  have hPackets : (netFrom S start es sender).puts.filterMap Put.packet =
      (added (P2PNode.step S) (P2PNode.outcomes S) (start sender)
        (eventsAt sender es)).filterMap fun c => c.2.packet := by
    rw [netFrom_apply, P2PNode.packets_run, (h.unused sender).puts]
    rfl
  rw [P2PNode.sentTo, hPackets, P2PNode.added_answeredLookups, List.filterMap_map,
    List.filter_filterMap, List.filterMap_filterMap]
  apply filterMap_sublist
  intro c hc text hText
  rw [Option.mem_def, Option.bind_eq_some_iff] at hText
  obtain ⟨packet, hPacket, hText⟩ := hText
  obtain ⟨hPacket, hReceiver⟩ := Option.filter_eq_some_iff.mp hPacket
  -- the outcome belongs to a step of the network
  have hNet : c ∈ added (netStep (P2PNode.step S))
      (fun net e => if e.1 = sender then (net sender).outcomes S e.2 else [])
      start es := by
    rw [added_netStep]
    exact hc
  obtain ⟨pre, e, post, rfl, hNew⟩ := mem_added hNet
  obtain ⟨i, e⟩ := e
  split at hNew
  · rename_i hi
    cases hi
    have hBefore := closedNet_run S (h.of_prefix S (List.prefix_append pre _))
    exact (readBy_of_outcome S hBefore h.usable h.injective (h.boxes i receiver)
      (h.served.at) hNew hPacket (of_decide_eq_true hReceiver)).trans hText
  · cases hNew

theorem mem_sentTo_netStep {net : ι → P2PNode} {j : ι} {receiverId : Bytes}
    {packet : EncryptedPacket} (h : packet ∈ (net j).sentTo receiverId) (e : ι × Event) :
    packet ∈ (netStep (P2PNode.step S) net e j).sentTo receiverId := by
  obtain ⟨i, e⟩ := e
  by_cases hij : j = i
  · subst hij
    rw [netStep_self]
    exact P2PNode.mem_sentTo_step S h e
  · rw [netStep_of_ne hij]
    exact h

theorem ReceivedInv.step {net : ι → P2PNode} (h : ReceivedInv S peers net)
    (hNet : ClosedNet peers ids net) (hIds : UsableIds peers ids)
    (hHash : Function.Injective hash) {i : ι} {e : Event} (hServed : Served hash net (i, e)) :
    ReceivedInv S peers (netStep (P2PNode.step S) net (i, e)) where
  lookups := by
    intro k g hg senderId packet hCallback
    have hBefore : ∃ j, senderId = (peers j).userId ∧ packet ∈ (net j).sentTo (peers k).userId := by
      by_cases hki : k = i
      · subst hki
        rw [netStep_self] at hg
        exact lookup_of_step S h hNet hIds hHash hServed hg hCallback
      · rw [netStep_of_ne hki] at hg
        exact h.lookups k g hg senderId packet hCallback
    obtain ⟨j, hSender, hSent⟩ := hBefore
    exact ⟨j, hSender, mem_sentTo_netStep S hSent (i, e)⟩
  reports := by
    intro k r hr
    have hBefore : ∃ j, r.fromPeerId = (peers j).userId ∧
        r.packet ∈ (net j).sentTo (peers k).userId ∧ readBy S peers j k r.packet = some r.text := by
      by_cases hki : k = i
      · subst hki
        rw [netStep_self, P2PNode.step_reports, List.mem_append] at hr
        rcases hr with hOld | hNew
        · exact h.reports k r hOld
        · exact report_of_step S h hNet hIds hHash hServed hNew
      · rw [netStep_of_ne hki] at hr
        exact h.reports k r hr
    obtain ⟨j, hSender, hSent, hText⟩ := hBefore
    exact ⟨j, hSender, mem_sentTo_netStep S hSent (i, e), hText⟩

theorem receivedInv_run {es : List (ι × Event)} (h : ClosedRun S peers start hash ids es) :
    ReceivedInv S peers (netFrom S start es) := by
  have hBoth : ClosedNet peers ids (netFrom S start es) ∧
      ReceivedInv S peers (netFrom S start es) := by
    refine run_invariant_along
      (I := fun net => ClosedNet peers ids net ∧ ReceivedInv S peers net) ?_ ?_ (h.along S)
    · rintro net ⟨i, e⟩ ⟨hNet, hReceived⟩ ⟨hPermitted, hServed⟩
      exact ⟨hNet.step S h.usable h.injective hPermitted hServed,
        hReceived.step S hNet h.usable h.injective hServed⟩
    · exact ⟨closedNet_unused h.usable h.unused, receivedInv_unused S h.unused⟩
  exact hBoth.2

/-- The reports in one name are of different packets. -/
theorem nodup_reported_packets {es : List (ι × Event)} (h : ClosedRun S peers start hash ids es)
    (receiver : ι) (senderId : Bytes) :
    (((netFrom S start es receiver).reportsFrom senderId).map Report.packet).Nodup := by
  have hInv : (netFrom S start es receiver).DeliveryInv := by
    rw [netFrom_apply]
    exact run_invariant (I := P2PNode.DeliveryInv)
      (fun _ e hNow => P2PNode.deliveryInv_step S hNow e) (h.unused receiver).deliveryInv
      (eventsAt receiver es)
  have hPairs : (((netFrom S start es receiver).reportsFrom senderId).map Report.pair).Nodup :=
    hInv.nodup.sublist (List.filter_sublist.map Report.pair)
  -- the reports share the sender, so different pairs mean different packets
  rw [List.nodup_map_iff_inj_on (hPairs.of_map _)]
  intro r hr r' hr' hPacket
  apply List.inj_on_of_nodup_map hPairs hr hr'
  have hSender := of_decide_eq_true (List.mem_filter.mp hr).2
  have hSender' := of_decide_eq_true (List.mem_filter.mp hr').2
  rw [Report.pair, Report.pair, hPacket, hSender, hSender']

/-- The sender put each of them. -/
theorem reported_packets_le {es : List (ι × Event)} (h : ClosedRun S peers start hash ids es)
    (sender receiver : ι) :
    ((((netFrom S start es receiver).reportsFrom (peers sender).userId).map Report.packet :
        List EncryptedPacket) : Multiset EncryptedPacket) ≤
      ↑((netFrom S start es sender).sentTo (peers receiver).userId) := by
  rw [Multiset.le_iff_subset (Multiset.coe_nodup.mpr (nodup_reported_packets S h receiver _))]
  intro packet hPacket
  obtain ⟨r, hr, rfl⟩ := List.mem_map.mp (Multiset.mem_coe.mp hPacket)
  obtain ⟨hr, hSender⟩ := List.mem_filter.mp hr
  obtain ⟨j, hFrom, hSent, -⟩ := (receivedInv_run S h).reports receiver r hr
  obtain rfl : j = sender := h.usable.injective (hFrom.symm.trans (of_decide_eq_true hSender))
  exact hSent

theorem sender_of_report {es : List (ι × Event)} (h : ClosedRun S peers start hash ids es)
    {receiver : ι} {r : Report} (hr : r ∈ (netFrom S start es receiver).reports) :
    ∃ sender, r.fromPeerId = (peers sender).userId := by
  obtain ⟨j, hFrom, -⟩ := (receivedInv_run S h).reports receiver r hr
  exact ⟨j, hFrom⟩

theorem reported_texts_le {es : List (ι × Event)} (h : ClosedRun S peers start hash ids es)
    (sender receiver : ι) :
    ((((netFrom S start es receiver).reportsFrom (peers sender).userId).map Report.text :
        List Bytes) : Multiset Bytes) ≤
      ↑((eventsAt sender es).filterMap fun e => e.textFor (peers receiver).userId) := by
  have hTexts : ((netFrom S start es receiver).reportsFrom (peers sender).userId).map Report.text =
      (((netFrom S start es receiver).reportsFrom (peers sender).userId).map
        Report.packet).filterMap (readBy S peers sender receiver) := by
    rw [List.filterMap_map, ← List.filterMap_eq_map]
    apply List.filterMap_congr
    intro r hr
    obtain ⟨hr, hSender⟩ := List.mem_filter.mp hr
    obtain ⟨j, hFrom, -, hText⟩ := (receivedInv_run S h).reports receiver r hr
    obtain rfl : j = sender := h.usable.injective (hFrom.symm.trans (of_decide_eq_true hSender))
    exact hText.symm
  rw [hTexts]
  exact (Multiset.filterMap_le_filterMap (readBy S peers sender receiver)
    (reported_packets_le S h sender receiver)).trans (texts_put_le S h sender receiver)

/-- In every run of a closed network, what a peer reports in the name of another is, with
multiplicity, among what that peer was asked to send to it, and only peers are named. -/
theorem channel_safe {es : List (ι × Event)} (h : ClosedRun S peers start hash ids es)
    (receiver : ι) :
    (∀ sender, ((((netFrom S start es receiver).reportsFrom (peers sender).userId).map Report.text :
        List Bytes) : Multiset Bytes) ≤
      ↑((eventsAt sender es).filterMap fun e => e.textFor (peers receiver).userId)) ∧
    ∀ r ∈ (netFrom S start es receiver).reports, ∃ sender, r.fromPeerId = (peers sender).userId :=
  ⟨fun sender => reported_texts_le S h sender receiver, fun _ hr => sender_of_report S h hr⟩

end Channel

namespace Peer

def ids : Set Bytes := {id | id ∈ [bytes "alice", bytes "bob"]}

instance : DecidablePred (· ∈ ids) :=
  fun id => inferInstanceAs (Decidable (id ∈ [bytes "alice", bytes "bob"]))

theorem usable_ids : UsableIds launch ids where
  injective := by
    intro p q h
    cases p <;> cases q <;> first | rfl | exact absurd h (by decide +kernel)
  ne_nil := by decide +kernel
  sep := by decide +kernel
  mem := by decide +kernel
  separate := by
    have hList : ∀ u ∈ [bytes "alice", bytes "bob"], ∀ v ∈ [bytes "alice", bytes "bob"],
        u ≠ inboxName v := by decide +kernel
    exact hList

theorem roundTrips (p q : Peer) :
    Sodium.additive.RoundTrips p.launch.node.myKeys q.launch.node.myKeys := by
  have hAlice : alice.launch.node.myKeys = (GeneratedKeys.constant 7).keys := by decide +kernel
  have hBob : bob.launch.node.myKeys = (GeneratedKeys.constant 40).keys := by decide +kernel
  cases p <;> cases q <;> simp only [hAlice, hBob] <;> exact additive_roundTrips _ _

def later : CallbackInput := { now := 43260, draws := .constant 6 10 }

/-- Alice writes twice to Bob. Her first value reaches him three times, once behind a restart,
and her second one never. -/
def repeatedRun : List (Peer × Event) :=
  let hi := fullPayload alice.launch.userId (aliceSealed (bytes "hi") noon)
  let own (p : Peer) : UserProfile := { userId := p.launch.userId, displayName := p.launch.userId }
  [(alice, .publishProfile (own alice)), (bob, .publishProfile (own bob)),
    (alice, .sendMessage 0 bob.launch.userId (bytes "hi")), (alice, .lookup 0 [bob.profile] noon),
    (alice, .sendMessage 1 bob.launch.userId (bytes "hi")), (alice, .lookup 1 [bob.profile] later),
    (bob, .inbox [(0, hi), (1, hi)] false), (bob, .lookup 0 [alice.profile] noon),
    (bob, .lookup 1 [alice.profile] noon), (bob, .stopNode), (bob, .startNode bob.launch.io),
    (bob, .inbox [(2, hi)] false), (bob, .lookup 2 [alice.profile] noon)]

def start (p : Peer) : P2PNode := p.launch.node

theorem repeatedRun_closed :
    ClosedRun .additive launch start (fun name : Bytes => name) ids repeatedRun where
  usable := usable_ids
  injective := Function.injective_id
  boxes := roundTrips
  unused _ := P2PNode.unused_launch
  permitted := by decide +kernel
  served := by decide +kernel

theorem repeatedRun_channel_safe :
    ((((netFrom .additive start repeatedRun bob).reportsFrom alice.launch.userId).map Report.text :
        List Bytes) : Multiset Bytes) ≤
      ↑((eventsAt alice repeatedRun).filterMap fun e => e.textFor bob.launch.userId) ∧
    ((netFrom .additive start repeatedRun bob).reportsFrom alice.launch.userId).map Report.text =
      [bytes "hi"] :=
  ⟨(channel_safe .additive repeatedRun_closed bob).1 alice, by decide +kernel⟩

end Peer

end P2PMessenger
