import P2PMessenger.Network.Peers

/-!
# Who sent what is reported

A peer seals only texts it was asked to send, under the key its lookup of the receiver
returned. So a box that opens for `R` under the key of `S` was made by `S` for `R`, or by
`R` for `S`: the key of a box does not tell the two directions apart, and the receiver id
that the validation compares was filled in by the receiver itself. The second case is the
reflected message.
-/

namespace P2PMessenger

open Text Crypto Run

namespace P2PNode

variable (S : Sodium)

/-- The node put this box into the inbox of the receiver. -/
def SentBox (n : P2PNode) (receiverId nonce ciphertext : Bytes) : Prop :=
  ∃ packet ∈ n.puts.filterMap Put.packet, packet.receiverId = receiverId ∧
    packet.nonce = nonce ∧ packet.ciphertext = ciphertext

instance (n : P2PNode) (receiverId nonce ciphertext : Bytes) :
    Decidable (n.SentBox receiverId nonce ciphertext) := by
  unfold SentBox
  infer_instance

theorem SentBox.step {n : P2PNode} {receiverId nonce ciphertext : Bytes}
    (h : n.SentBox receiverId nonce ciphertext) (e : Event) :
    (n.step S e).SentBox receiverId nonce ciphertext := by
  obtain ⟨packet, hPacket, hFields⟩ := h
  refine ⟨packet, ?_, hFields⟩
  rw [step_puts, List.filterMap_append]
  exact List.mem_append_left _ hPacket

/-- The receiver and the key of a message that the event seals. -/
def sealsFor (n : P2PNode) (e : Event) : Option (Bytes × Bytes) :=
  e.answer.bind fun answer =>
    match n.lookupAction answer.1 answer.2 with
    | .encrypt receiverId _ key => some (receiverId, key)
    | _ => none

/-- Where the boxes of a node come from: every one holds a text that was sent, under a key
that the receiver `owns`, and was put into the receiver's inbox. -/
structure SendInv (owns : Bytes → Bytes → Prop) (past : List Event) (n : P2PNode) : Prop where
  lookups : ∀ g ∈ n.dht.gets, ∀ receiverId packet,
    g.callback = .onProfileFound receiverId packet →
      ∃ op, Event.sendMessage op receiverId packet.ciphertext ∈ past
  boxes : ∀ box ∈ n.crypto.boxCalls.filterMap BoxCall.sealing, ∃ receiverId,
    (∃ op, Event.sendMessage op receiverId box.text ∈ past) ∧ owns receiverId box.publicKey ∧
      n.SentBox receiverId (toBase64 box.nonce) (toBase64 box.ciphertext)

variable {owns : Bytes → Bytes → Prop}

theorem SendInv.lookups_step {past : List Event} {n : P2PNode} (h : SendInv owns past n)
    (e : Event) : ∀ g ∈ (n.step S e).dht.gets, ∀ receiverId packet,
      g.callback = .onProfileFound receiverId packet →
        ∃ op, Event.sendMessage op receiverId packet.ciphertext ∈ past ++ [e] := by
  intro g hg receiverId packet hCallback
  rcases mem_step_gets S hg with ⟨flag, hOld⟩ | ⟨toPeerId, text, rfl, hNew⟩ |
    ⟨userId, -, hNew⟩ | ⟨values, -, hNew⟩
  · obtain ⟨op, hmem⟩ := h.lookups _ hOld receiverId packet hCallback
    exact ⟨op, List.mem_append_left _ hmem⟩
  · rw [hCallback] at hNew
    obtain ⟨rfl, rfl⟩ := Callback.onProfileFound.inj hNew
    exact ⟨g.op, by simp⟩
  · rw [hCallback] at hNew
    cases hNew
  · obtain ⟨_, _, _, _, -, hEq, -⟩ := mem_valueGets hNew
    rw [hEq] at hCallback
    cases hCallback

/-- The only new box of an event: a text whose lookup returned a key. -/
theorem mem_newCalls_sealing {n : P2PNode} {e : Event} {box : Sealed}
    (h : box ∈ (n.newCalls S e).filterMap BoxCall.sealing) :
    ∃ receiverId packet, n.sealsFor e = some (receiverId, box.publicKey) ∧
      (∃ g ∈ n.dht.gets, g.callback = .onProfileFound receiverId packet) ∧
      packet.ciphertext = box.text ∧
      (n.step S e).SentBox receiverId (toBase64 box.nonce) (toBase64 box.ciphertext) := by
  cases e with
  | lookup op values io =>
    simp only [newCalls] at h
    cases hAction : n.lookupAction op values with
    | ignore => simp [hAction] at h
    | giveUp => simp [hAction] at h
    | encrypt receiverId packet key =>
      simp only [hAction, List.filterMap_cons, List.filterMap_nil] at h
      cases hBox : S.boxEasy packet.ciphertext io.draws.nonce key n.myKeys.privateKey with
      | none => simp [hBox, BoxCall.sealing] at h
      | some ciphertext =>
        simp only [hBox, BoxCall.sealing, List.mem_singleton] at h
        subst h
        refine ⟨receiverId, packet, by simp [sealsFor, Event.answer, hAction],
          ⟨_, (of_pending (pending_of_encrypt hAction).1).2.1, rfl⟩, rfl, ?_⟩
        refine ⟨CryptoService.sealedPacket n.myId receiverId io.draws io.now ciphertext, ?_, rfl,
          rfl, rfl⟩
        rw [step_puts, List.filterMap_append]
        refine List.mem_append_right _ ?_
        simp [newPuts, hAction, hBox, Put.packet, messagePut]
    | decrypt senderId packet key =>
      simp only [hAction] at h
      split at h
      · obtain ⟨call, hCall, hSealing⟩ := List.mem_filterMap.mp h
        unfold CryptoService.openCalls at hCall
        split at hCall
        · split at hCall
          · cases hCall
          · rw [List.mem_singleton.mp hCall] at hSealing
            cases hSealing
        · cases hCall
      · cases h
  | _ => cases h

theorem sendInv_step {past : List Event} {n : P2PNode} {e : Event} (h : SendInv owns past n)
    (hOwns : ∀ r ∈ n.sealsFor e, owns r.1 r.2) : SendInv owns (past ++ [e]) (n.step S e) where
  lookups := h.lookups_step S e
  boxes := by
    intro box hBox
    rw [step_boxCalls, List.filterMap_append, List.mem_append] at hBox
    rcases hBox with hOld | hNew
    · obtain ⟨receiverId, ⟨op, hmem⟩, hOwner, hSent⟩ := h.boxes box hOld
      exact ⟨receiverId, ⟨op, List.mem_append_left _ hmem⟩, hOwner, hSent.step S e⟩
    · obtain ⟨receiverId, packet, hSeals, ⟨g, hGet, hCallback⟩, hText, hSent⟩ :=
        mem_newCalls_sealing S hNew
      obtain ⟨op, hmem⟩ := h.lookups g hGet receiverId packet hCallback
      exact ⟨receiverId, ⟨op, hText ▸ List.mem_append_left _ hmem⟩, hOwns _ hSeals, hSent⟩

theorem sendInv_run {n : P2PNode} (hGets : n.dht.gets = []) (hCalls : n.crypto.boxCalls = [])
    {es : List Event} (hOwns : Along (step S) (fun n e => ∀ r ∈ n.sealsFor e, owns r.1 r.2) n es) :
    SendInv owns es (run (step S) n es) :=
  run_history (I := SendInv owns) ⟨by simp [hGets], by simp [hCalls]⟩ hOwns
    fun _ _ _ h hStep => sendInv_step S h hStep

/-- Decrypting puts nothing. -/
theorem SentBox.of_decrypt {n : P2PNode} {op : Nat} {values : List Bytes} {io : CallbackInput}
    {senderId key receiverId nonce ciphertext : Bytes} {packet : EncryptedPacket}
    (h : (n.step S (.lookup op values io)).SentBox receiverId nonce ciphertext)
    (hAction : n.lookupAction op values = .decrypt senderId packet key) :
    n.SentBox receiverId nonce ciphertext := by
  have hPuts : n.newPuts S (.lookup op values io) = [] := by simp [newPuts, hAction]
  unfold SentBox at h
  rwa [step_puts, hPuts, List.append_nil] at h

/-- A packet that is decrypted to a text leaves a box call that opened. -/
theorem opening_of_opens {n : P2PNode} {op : Nat} {values : List Bytes} {io : CallbackInput}
    {senderId key text : Bytes} {packet : EncryptedPacket}
    (hAction : n.lookupAction op values = .decrypt senderId packet key)
    (hReaches : n.crypto.Reaches (n.inbound senderId packet) key n.myId io.now)
    (hOpens : CryptoService.openedText S (n.inbound senderId packet) n.myKeys.privateKey key =
      some text) :
    ∃ nonce ciphertext, packet.nonce = toBase64 nonce ∧ packet.ciphertext = toBase64 ciphertext ∧
      ⟨text, nonce, ciphertext, key⟩ ∈
        (n.step S (.lookup op values io)).crypto.boxCalls.filterMap BoxCall.opening := by
  obtain ⟨nonce, ciphertext, hNonce, hCipher, hLong, hOpen⟩ :=
    (CryptoService.openedText_eq_some_iff S).mp hOpens
  refine ⟨nonce, ciphertext, hNonce, hCipher, ?_⟩
  rw [step_boxCalls, List.filterMap_append]
  refine List.mem_append_right _ ?_
  simp [newCalls, hAction, hReaches, CryptoService.openCalls, hNonce, hCipher,
    Nat.not_lt.mpr hLong, hOpen, BoxCall.opening]

end P2PNode

section Peers

variable {ι : Type} [DecidableEq ι] (S : Sodium) (peers : ι → Launch)

/-- An inbox value in the name of a peer that comes through the validation is not a box that
this node itself put into the inbox of that peer. -/
def NotReflected (net : ι → P2PNode) (e : ι × Event) : Prop :=
  ∀ a ∈ (net e.1).attempt e.2, (∃ j, a.senderId = (peers j).userId) →
    (net e.1).crypto.Reaches ((net e.1).inbound a.senderId a.packet) a.key (net e.1).myId a.clock →
      ¬ (net e.1).SentBox a.senderId a.packet.nonce a.packet.ciphertext

/-- Nobody but a peer itself answers with that peer's key. -/
def KeyOfReceiver (net : ι → P2PNode) (e : ι × Event) : Prop :=
  ∀ r ∈ (net e.1).sealsFor e.2, ∀ j, r.2 = (peers j).publicKey → r.1 = (peers j).userId

instance [Fintype ι] (net : ι → P2PNode) (e : ι × Event) :
    Decidable (NotReflected peers net e) := by
  unfold NotReflected
  infer_instance

instance [Fintype ι] (net : ι → P2PNode) (e : ι × Event) :
    Decidable (KeyOfReceiver peers net e) := by
  unfold KeyOfReceiver
  infer_instance

theorem netRun_sendInv {es : List (ι × Event)}
    (hOwner : AlongNet S peers (KeyOfReceiver peers) es) (i : ι) :
    P2PNode.SendInv (fun r key => ∀ j, key = (peers j).publicKey → r = (peers j).userId)
      (eventsAt i es) (netRun S peers es i) := by
  rw [netRun_apply]
  exact P2PNode.sendInv_run S rfl rfl (AlongNet.eventsAt S peers (P := fun _ n e =>
    ∀ r ∈ n.sealsFor e, ∀ j, r.2 = (peers j).publicKey → r.1 = (peers j).userId) hOwner i)

/-- A report was added by a lookup that completed at its node. -/
theorem mem_netRun_reports {es : List (ι × Event)} {i : ι} {r : Report}
    (h : r ∈ (netRun S peers es i).reports) :
    ∃ pre e post, es = pre ++ (i, e) :: post ∧ r ∈ (netRun S peers pre i).newReports S e := by
  have hStep : ∀ (net : ι → P2PNode) (e : ι × Event),
      (netStep (P2PNode.step S) net e i).reports =
        (net i).reports ++ if e.1 = i then (net i).newReports S e.2 else [] := by
    intro net e
    obtain ⟨j, e⟩ := e
    by_cases hij : j = i
    · subst hij
      simp [P2PNode.step_reports]
    · simp [netStep_of_ne (Ne.symm hij), hij]
  rcases mem_history (f := fun net : ι → P2PNode => (net i).reports) hStep h with
    hStart | ⟨pre, e, post, rfl, hNew⟩
  · cases hStart
  · obtain ⟨j, e⟩ := e
    split at hNew
    · rename_i hij
      cases hij
      exact ⟨pre, e, post, rfl, hNew⟩
    · cases hNew

/-- Whatever is reported in the name of an honest peer was sent by it to the reporting node
before, in every run in which no box is reflected and no key is claimed by two users. -/
theorem reported_was_sent {es : List (ι × Event)} (hRun : HonestRun S peers es)
    (hDirection : AlongNet S peers (NotReflected peers) es)
    (hOwner : AlongNet S peers (KeyOfReceiver peers) es) {receiver sender : ι} {r : Report}
    (hReport : r ∈ (netRun S peers es receiver).reports)
    (hSender : r.fromPeerId = (peers sender).userId) :
    ∃ op, (sender, Event.sendMessage op (peers receiver).userId r.text) ∈ es := by
  obtain ⟨pre, e, post, rfl, hNew⟩ := mem_netRun_reports S peers hReport
  have hPrefix : pre ++ [(receiver, e)] <+: pre ++ (receiver, e) :: post := ⟨post, by simp⟩
  obtain ⟨op, values, io, senderId, packet, key, rfl, hAction, hReaches, hOpens, hr⟩ :=
    P2PNode.mem_newReports S hNew
  have hSenderId : senderId = (peers sender).userId := by
    rw [← hSender, hr]
  -- the directory returned the key of the sender
  obtain ⟨hPending, hKey⟩ := P2PNode.pending_of_decrypt hAction
  have hKeyEq : key = (peers sender).publicKey :=
    hRun.directory.at S peers _ rfl _ hPending _ hKey sender hSenderId
  -- the ideal box names the side that sealed the text
  obtain ⟨nonce, ciphertext, hNonce, hCipher, hOpened⟩ :=
    P2PNode.opening_of_opens S hAction hReaches hOpens
  obtain ⟨k, box, hBox, hText, hBoxNonce, hBoxCipher, hPair⟩ :=
    hRun.ideal.at S peers receiver _ (by rw [netStep_self]; exact hOpened) ⟨sender, hKeyEq⟩
  dsimp only at hText hBoxNonce hBoxCipher hPair
  rw [← netRun_snoc] at hBox
  obtain ⟨receiverId, ⟨op', hSend⟩, hOwns, hSent⟩ :=
    (netRun_sendInv S peers (hOwner.of_prefix hPrefix) k).boxes _ hBox
  rcases Sym2.eq_iff.mp hPair with ⟨hPublic, hOwn⟩ | ⟨hPublic, hOwn⟩
  · -- sealed by the receiver itself: a reflected box
    obtain rfl := hRun.keys hOwn
    obtain rfl := hOwns sender (hPublic.trans hKeyEq)
    rw [netRun_snoc, netStep_self, ← hSenderId, hBoxNonce, hBoxCipher, ← hNonce, ← hCipher]
      at hSent
    exact absurd (hSent.of_decrypt S hAction) (hDirection.at S peers _
      (P2PNode.attempt_of_decrypt hAction io) ⟨sender, hSenderId⟩ hReaches)
  · obtain rfl := hRun.keys (hOwn.trans hKeyEq)
    obtain rfl := hOwns receiver hPublic
    have hmem := mem_eventsAt.mp hSend
    rw [hText] at hmem
    simp only [List.mem_append, List.mem_singleton, Prod.mk.injEq, reduceCtorEq, and_false,
      or_false] at hmem
    exact ⟨op', List.mem_append_left _ hmem⟩

end Peers

namespace Peer

/-- Alice's message reaches Bob. -/
def genuineRun (text : Bytes) (io : CallbackInput) : List (Peer × Event) :=
  aliceSends text io ++
    [(bob, .inbox [(0, fullPayload alice.launch.userId (aliceSealed text io))] false),
      (bob, .lookup 0 [alice.profile] io)]

/-- Alice's own box is put into her inbox in Bob's name. -/
def reflectedRun (text : Bytes) (io : CallbackInput) : List (Peer × Event) :=
  aliceSends text io ++
    [(alice, .inbox [(1, fullPayload bob.launch.userId (aliceSealed text io))] false),
      (alice, .lookup 1 [bob.profile] io)]

theorem genuineRun_was_sent :
    ∃ op, (alice, Event.sendMessage op bob.launch.userId (bytes "hi")) ∈
      genuineRun (bytes "hi") noon := by
  have hHonest : HonestRun .additive launch (genuineRun (bytes "hi") noon) :=
    ⟨by decide +kernel, by decide +kernel, by decide +kernel, by decide +kernel⟩
  have hReport : ⟨alice.launch.userId, bytes "hi", aliceSealed (bytes "hi") noon, 43200⟩ ∈
      (netRun .additive launch (genuineRun (bytes "hi") noon) bob).reports := by decide +kernel
  exact reported_was_sent .additive launch hHonest (by decide +kernel) (by decide +kernel)
    hReport rfl

/-- Alice's node reports her own words as Bob's, and Bob did nothing. -/
theorem reflectedRun_not_sent :
    HonestRun .additive launch (reflectedRun (bytes "hi") noon) ∧
      (∃ r ∈ (netRun .additive launch (reflectedRun (bytes "hi") noon) alice).reports,
        r.fromPeerId = bob.launch.userId ∧ r.text = bytes "hi") ∧
      ∀ op, (bob, Event.sendMessage op alice.launch.userId (bytes "hi")) ∉
        reflectedRun (bytes "hi") noon :=
  ⟨⟨by decide +kernel, by decide +kernel, by decide +kernel, by decide +kernel⟩,
    by decide +kernel, by simp [reflectedRun, aliceSends]⟩

end Peer

end P2PMessenger
