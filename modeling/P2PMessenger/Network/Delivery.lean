import P2PMessenger.Network.Channel

/-!
# What arrives in time is reported

The other half of the channel: in a closed network an id is recorded as seen only together
with a report, because every packet that reaches the replay state opens. So when the lookup
for a packet is answered within the time window, the packet has been reported or is now.
-/

namespace P2PMessenger

open Text Crypto Run

namespace P2PNode

variable (S : Sodium)

theorem Reported.step {n : P2PNode} {senderId messageId : Bytes} (h : n.Reported senderId messageId)
    (e : Event) : (n.step S e).Reported senderId messageId := by
  obtain ⟨r, hr, hPair⟩ := h
  refine ⟨r, ?_, hPair⟩
  rw [step_reports]
  exact List.mem_append_left _ hr

/-- An id was recorded before, or the step decrypts a packet that reaches the replay state. -/
theorem mem_seen_step {n : P2PNode} {e : Event} {senderId messageId : Bytes}
    (h : messageId ∈ (n.step S e).crypto.seenMessageIds senderId) :
    messageId ∈ n.crypto.seenMessageIds senderId ∨
      ∃ op values io packet key, e = .lookup op values io ∧
        n.lookupAction op values = .decrypt senderId packet key ∧ packet.messageId = messageId ∧
        n.crypto.Reaches (n.inbound senderId packet) key n.myId io.now := by
  obtain ⟨rest, hStep⟩ := step_effect S n e
  rw [hStep] at h
  replace h : messageId ∈ (n.effect S e).crypto.seenMessageIds senderId := h
  cases e with
  | startNode io =>
    simp only [effect] at h
    split at h
    · exact Or.inl h
    · cases h
  | stopNode =>
    simp only [effect] at h
    split at h <;> exact Or.inl h
  | sendMessage op toPeerId text =>
    simp only [effect] at h
    split at h <;> exact Or.inl h
  | inbox values expired =>
    simp only [effect] at h
    split at h <;> exact Or.inl h
  | lookup op values io =>
    simp only [effect, afterLookup] at h
    cases hAction : n.lookupAction op values with
    | ignore =>
      rw [hAction] at h
      exact Or.inl h
    | giveUp =>
      rw [hAction] at h
      exact Or.inl h
    | encrypt receiverId packet key =>
      simp only [hAction, sendEncrypted_eq] at h
      exact Or.inl h
    | decrypt sender packet key =>
      simp only [hAction, decryptResult_crypto, decryption,
        CryptoService.decrypt_seenMessageIds] at h
      split at h
      · rename_i hReaches
        rcases CryptoService.mem_record.mp h with ⟨hSender, hId⟩ | hOld
        · obtain rfl : senderId = sender := hSender
          exact Or.inr ⟨op, values, io, packet, key, rfl, hAction, hId.symm, hReaches⟩
        · exact Or.inl hOld
      · exact Or.inl h
  | _ => exact Or.inl h

/-- A packet that reaches the replay state and opens is reported by the step. -/
theorem reported_of_opens {n : P2PNode} {op : Nat} {values : List Bytes} {io : CallbackInput}
    {senderId key text : Bytes} {packet : EncryptedPacket}
    (hAction : n.lookupAction op values = .decrypt senderId packet key)
    (hReaches : n.crypto.Reaches (n.inbound senderId packet) key n.myId io.now)
    (hOpens : CryptoService.openedText S (n.inbound senderId packet) n.myKeys.privateKey key =
      some text) :
    (n.step S (.lookup op values io)).Reported senderId packet.messageId := by
  have hOk : (n.decryption S senderId packet key io).1 = .ok text :=
    (CryptoService.decrypt_ok_iff S _ _ _ _ _ _).mpr ⟨hReaches, hOpens⟩
  refine ⟨⟨senderId, text, n.inbound senderId packet, io.now⟩, ?_, rfl⟩
  rw [step_reports]
  apply List.mem_append_right
  simp [newReports, hAction, hOk]

end P2PNode

section Delivery

variable {ι κ : Type} (S : Sodium) {peers : ι → Launch} {start : ι → P2PNode} {hash : Bytes → κ} {ids : Set Bytes}

/-- Every packet for a peer can be read by it, and every id that counts as seen was reported. -/
structure OpensInv (peers : ι → Launch) (net : ι → P2PNode) : Prop where
  readable : ∀ sender receiver, ∀ packet ∈ (net sender).sentTo (peers receiver).userId,
    (readBy S peers sender receiver packet).isSome
  seen : ∀ i senderId messageId, messageId ∈ (net i).crypto.seenMessageIds senderId →
    (net i).Reported senderId messageId

section Step

variable {net : ι → P2PNode} (h : OpensInv S peers net) (hReceived : ReceivedInv S peers net)
  (hNet : ClosedNet peers ids net) (hIds : UsableIds peers ids)
  (hHash : Function.Injective hash) {i : ι} {e : Event} (hServed : Served hash net (i, e))

include hNet hIds hHash hServed

theorem readable_of_step (hBox : ∀ j, S.RoundTrips (peers i).node.myKeys (peers j).node.myKeys)
    (hOld : ∀ receiver, ∀ packet ∈ (net i).sentTo (peers receiver).userId,
      (readBy S peers i receiver packet).isSome)
    {receiver : ι} {packet : EncryptedPacket}
    (hSent : packet ∈ ((net i).step S e).sentTo (peers receiver).userId) :
    (readBy S peers i receiver packet).isSome := by
  obtain ⟨hPacket, hReceiver⟩ := List.mem_filter.mp hSent
  rw [P2PNode.step_puts, List.filterMap_append, List.mem_append, P2PNode.newPackets_eq] at hPacket
  rcases hPacket with hPast | hNew
  · exact hOld receiver packet (List.mem_filter.mpr ⟨hPast, hReceiver⟩)
  · obtain ⟨c, hc, hPut⟩ := Option.bind_eq_some_iff.mp (Option.mem_toList.mp hNew)
    have hOutcome : c ∈ (net i).outcomes S e := Option.mem_toList.mpr hc
    obtain ⟨_, _, request, _, -, -, hCallback, -⟩ := P2PNode.packet_of_mem_outcomes S hOutcome hPut
    rw [← readBy_of_outcome S hNet hIds hHash (hBox receiver) hServed hOutcome hPut
      (of_decide_eq_true hReceiver), hCallback, Callback.textFor, if_pos]
    · rfl
    · exact of_decide_eq_true hReceiver

include h hReceived

theorem seen_of_step {senderId messageId : Bytes}
    (hSeen : messageId ∈ ((net i).step S e).crypto.seenMessageIds senderId) :
    ((net i).step S e).Reported senderId messageId := by
  rcases P2PNode.mem_seen_step S hSeen with hOld | ⟨op, values, io, packet, key, rfl, hAction, rfl,
    hReaches⟩
  · exact (h.seen i senderId messageId hOld).step S e
  · obtain ⟨j, rfl, rfl, hSent, hInbound, hKeys⟩ :=
      decrypts_sent S hReceived hNet hIds hHash hServed rfl hAction
    obtain ⟨text, hText⟩ := Option.isSome_iff_exists.mp (h.readable j i packet hSent)
    apply P2PNode.reported_of_opens S hAction hReaches
    rw [hInbound, hKeys]
    exact hText

/-- The lookup of a packet is answered in time: it is reported now, or it was before. -/
theorem reported_of_answer {op : Nat} {values : List Bytes} {io : CallbackInput}
    {senderId key : Bytes} {packet : EncryptedPacket} (hLookup : e = .lookup op values io)
    (hAction : (net i).lookupAction op values = .decrypt senderId packet key)
    (hLength : key.length = crypto_box_PUBLICKEYBYTES) (hPositive : 0 < packet.timestamp)
    (hWindow : |io.now - packet.timestamp| ≤ 300) :
    ((net i).step S (.lookup op values io)).Reported senderId packet.messageId := by
  obtain ⟨j, rfl, rfl, hSent, hInbound, hKeys⟩ :=
    decrypts_sent S hReceived hNet hIds hHash hServed hLookup hAction
  obtain ⟨hPacket, hReceiver⟩ := List.mem_filter.mp hSent
  obtain ⟨draws, now, ciphertext, -, hLong, hSealed⟩ := hNet.sealedPacket hPacket
  have hMe : (net i).myId = (peers i).userId := (hNet.genuine i).myId
  have hSender : packet.senderId = (peers j).userId := by rw [hSealed]; rfl
  have hChecks : passesChecks packet (net i).myId io.now = true :=
    P2PNode.passesChecks_of_sealed draws (by rw [hSealed]; rfl) (hSender ▸ hIds.ne_nil j)
      ((of_decide_eq_true hReceiver).trans hMe.symm) (hMe ▸ hIds.ne_nil i) (by rw [hSealed]; rfl)
      (by rw [hSealed]; rfl) hLong hPositive hWindow
  by_cases hSeen : packet.messageId ∈ (net i).crypto.seenMessageIds (peers j).userId
  · exact (h.seen i _ _ hSeen).step S _
  · obtain ⟨text, hText⟩ := Option.isSome_iff_exists.mp (h.readable j i packet hSent)
    apply P2PNode.reported_of_opens S hAction
    · rw [hInbound]
      exact ⟨hLength, hChecks, hSender ▸ hSeen⟩
    · rw [hInbound, hKeys]
      exact hText

end Step

theorem opensInv_unused (hUnused : ∀ i, (start i).Unused (peers i)) : OpensInv S peers start where
  readable sender receiver packet hSent := by
    rw [P2PNode.sentTo, (hUnused sender).puts] at hSent
    cases hSent
  seen i senderId messageId hSeen := by
    rw [(hUnused i).seen] at hSeen
    cases hSeen

variable [DecidableEq ι]

theorem OpensInv.step {net : ι → P2PNode} (h : OpensInv S peers net)
    (hReceived : ReceivedInv S peers net) (hNet : ClosedNet peers ids net)
    (hIds : UsableIds peers ids) (hHash : Function.Injective hash)
    (hBox : ∀ i j, S.RoundTrips (peers i).node.myKeys (peers j).node.myKeys) {i : ι} {e : Event}
    (hServed : Served hash net (i, e)) :
    OpensInv S peers (netStep (P2PNode.step S) net (i, e)) where
  readable := by
    intro sender receiver packet hSent
    by_cases hSender : sender = i
    · subst hSender
      rw [netStep_self] at hSent
      exact readable_of_step S hNet hIds hHash hServed (hBox sender)
        (fun receiver => h.readable sender receiver) hSent
    · rw [netStep_of_ne hSender] at hSent
      exact h.readable sender receiver packet hSent
  seen := by
    intro k senderId messageId hSeen
    by_cases hki : k = i
    · subst hki
      rw [netStep_self] at hSeen ⊢
      exact seen_of_step S h hReceived hNet hIds hHash hServed hSeen
    · rw [netStep_of_ne hki] at hSeen ⊢
      exact h.seen k senderId messageId hSeen

theorem opensInv_run {es : List (ι × Event)} (h : ClosedRun S peers start hash ids es) :
    OpensInv S peers (netFrom S start es) := by
  have hAll : (ClosedNet peers ids (netFrom S start es) ∧ ReceivedInv S peers (netFrom S start es)) ∧
      OpensInv S peers (netFrom S start es) := by
    refine run_invariant_along (I := fun net =>
      (ClosedNet peers ids net ∧ ReceivedInv S peers net) ∧ OpensInv S peers net) ?_ ?_ (h.along S)
    · rintro net ⟨i, e⟩ ⟨⟨hNet, hReceived⟩, hOpens⟩ ⟨hPermitted, hServed⟩
      exact ⟨⟨hNet.step S h.usable h.injective hPermitted hServed,
        hReceived.step S hNet h.usable h.injective hServed⟩,
        hOpens.step S hReceived hNet h.usable h.injective h.boxes hServed⟩
    · exact ⟨⟨closedNet_run S (h.of_prefix S (List.nil_prefix)),
        receivedInv_run S (h.of_prefix S (List.nil_prefix))⟩,
        opensInv_unused S h.unused⟩
  exact hAll.2

/-- What was put for a peer stays put. -/
theorem mem_sentTo_run {net : ι → P2PNode} {j : ι} {receiverId : Bytes} {packet : EncryptedPacket}
    (h : packet ∈ (net j).sentTo receiverId) (es : List (ι × Event)) :
    packet ∈ (run (netStep (P2PNode.step S)) net es j).sentTo receiverId :=
  run_invariant (I := fun net : ι → P2PNode => packet ∈ (net j).sentTo receiverId)
    (fun _ e hNow => mem_sentTo_netStep S hNow e) h es

theorem reported_run {net : ι → P2PNode} {i : ι} {senderId messageId : Bytes}
    (h : (net i).Reported senderId messageId) (es : List (ι × Event)) :
    (run (netStep (P2PNode.step S)) net es i).Reported senderId messageId := by
  rw [run_netStep_apply]
  exact run_invariant (I := fun n : P2PNode => n.Reported senderId messageId)
    (fun _ e hNow => hNow.step S e) h (eventsAt i es)

section Answered

variable {pre post : List (ι × Event)} {receiver sender : ι} {op : Nat} {values : List Bytes}
  {io : CallbackInput}
  (h : ClosedRun S peers start hash ids (pre ++ (receiver, .lookup op values io) :: post))
  {packet : EncryptedPacket} {key : Bytes} (hAction : (netFrom S start pre receiver).lookupAction
    op values = .decrypt (peers sender).userId packet key)
  (hLength : key.length = crypto_box_PUBLICKEYBYTES) (hPositive : 0 < packet.timestamp)
  (hWindow : |io.now - packet.timestamp| ≤ 300)
  (hDraws : (((netFrom S start (pre ++ (receiver, .lookup op values io) :: post) sender).sentTo
    (peers receiver).userId).map EncryptedPacket.messageId).Nodup)

include h hAction hLength hPositive hWindow hDraws

theorem mem_reported_of_answered :
    packet ∈ ((netFrom S start (pre ++ (receiver, .lookup op values io) :: post)
      receiver).reportsFrom (peers sender).userId).map Report.packet := by
  have hPre : ClosedRun S peers start hash ids pre := h.of_prefix S (List.prefix_append pre _)
  have hNet := closedNet_run S hPre
  have hReceived := receivedInv_run S hPre
  have hServed := h.served.at
  have hRun : netFrom S start (pre ++ (receiver, .lookup op values io) :: post) =
      run (netStep (P2PNode.step S))
        (netStep (P2PNode.step S) (netFrom S start pre) (receiver, .lookup op values io)) post := by
    rw [netFrom, run_append, run_cons]
    rfl
  -- the id is reported by now, and only this packet has it
  have hReported : (netFrom S start (pre ++ (receiver, .lookup op values io) :: post)
      receiver).Reported (peers sender).userId packet.messageId := by
    rw [hRun]
    apply reported_run
    rw [netStep_self]
    exact reported_of_answer S (opensInv_run S hPre) hReceived hNet h.usable h.injective hServed
      rfl hAction hLength hPositive hWindow
  obtain ⟨j, hFrom, -, hSent, -⟩ :=
    decrypts_sent S hReceived hNet h.usable h.injective hServed rfl hAction
  obtain rfl : sender = j := h.usable.injective hFrom
  obtain ⟨r, hr, hPair⟩ := hReported
  obtain ⟨hSender, hId⟩ := Prod.mk.inj hPair
  obtain ⟨k, hFromPeer, hPut, -⟩ := (receivedInv_run S h).reports receiver r hr
  obtain rfl : k = sender := h.usable.injective (hFromPeer.symm.trans hSender)
  have hSame : r.packet = packet := by
    apply List.inj_on_of_nodup_map hDraws hPut _ hId
    rw [hRun]
    apply mem_sentTo_run
    exact mem_sentTo_netStep S hSent _
  rw [← hSame]
  exact List.mem_map_of_mem (List.mem_filter.mpr ⟨hr, decide_eq_true hSender⟩)

end Answered

/-- If the lookup for a packet is answered with a key within the time window, and the sender
drew different ids for its packets, the packet is reported exactly once in the whole run. -/
theorem channel_delivers {pre post : List (ι × Event)} {receiver sender : ι} {op : Nat}
    {values : List Bytes} {io : CallbackInput}
    (h : ClosedRun S peers start hash ids (pre ++ (receiver, .lookup op values io) :: post))
    {packet : EncryptedPacket} {key : Bytes} (hAction : (netFrom S start pre receiver).lookupAction
      op values = .decrypt (peers sender).userId packet key)
    (hLength : key.length = crypto_box_PUBLICKEYBYTES) (hPositive : 0 < packet.timestamp)
    (hWindow : |io.now - packet.timestamp| ≤ 300)
    (hDraws : (((netFrom S start (pre ++ (receiver, .lookup op values io) :: post) sender).sentTo
      (peers receiver).userId).map EncryptedPacket.messageId).Nodup) :
    (((netFrom S start (pre ++ (receiver, .lookup op values io) :: post) receiver).reportsFrom
      (peers sender).userId).map Report.packet).count packet = 1 :=
  List.count_eq_one_of_mem (nodup_reported_packets S h receiver _)
    (mem_reported_of_answered S h hAction hLength hPositive hWindow hDraws)

/-- If a value was put for each text and each of them was reported, what is reported is what
was to be sent. -/
theorem reported_texts_eq {es : List (ι × Event)} (h : ClosedRun S peers start hash ids es)
    {sender receiver : ι}
    (hPut : ((netFrom S start es sender).sentTo (peers receiver).userId).length =
      ((eventsAt sender es).filterMap fun e => e.textFor (peers receiver).userId).length)
    (hNodup : ((netFrom S start es sender).sentTo (peers receiver).userId).Nodup)
    (hReported : (netFrom S start es sender).sentTo (peers receiver).userId ⊆
      ((netFrom S start es receiver).reportsFrom (peers sender).userId).map Report.packet) :
    ((((netFrom S start es receiver).reportsFrom (peers sender).userId).map Report.text :
        List Bytes) : Multiset Bytes) =
      ↑((eventsAt sender es).filterMap fun e => e.textFor (peers receiver).userId) := by
  apply Multiset.eq_of_le_of_card_le (reported_texts_le S h sender receiver)
  rw [Multiset.coe_card, Multiset.coe_card, ← hPut, List.length_map]
  have hLength := (List.subperm_of_subset hNodup hReported).length_le
  rwa [List.length_map] at hLength

end Delivery

namespace Peer

theorem repeatedRun_delivers :
    repeatedRun = repeatedRun.take 7 ++
        (bob, .lookup 0 [alice.profile] noon) :: repeatedRun.drop 8 ∧
      (((netFrom .additive start (repeatedRun.take 7 ++
        (bob, .lookup 0 [alice.profile] noon) :: repeatedRun.drop 8) bob).reportsFrom
          alice.launch.userId).map Report.packet).count (aliceSealed (bytes "hi") noon) = 1 := by
  have hAction : (netFrom .additive start (repeatedRun.take 7) bob).lookupAction 0
      [alice.profile] = .decrypt alice.launch.userId (aliceSealed (bytes "hi") noon)
        alice.launch.publicKey := by decide +kernel
  refine ⟨rfl, channel_delivers .additive repeatedRun_closed hAction ?_ ?_ ?_ ?_⟩
  · decide +kernel
  · decide +kernel
  · decide +kernel
  · decide +kernel

end Peer

end P2PMessenger
