import P2PMessenger.Node.Effect

/-!
# At most one report for each sender and message id

The listener asks the set of delivered keys before it starts a lookup, and the set is
written only after the lookup came back and the message was decrypted. In between a second
copy can pass the same check. What stops it is the replay state of the crypto service: a
pair that was reported while one of its lookups is still open has been recorded there.
A restart forgets that state, but it also drops the lookups.
-/

namespace P2PMessenger

open Text Crypto Run

/-- The sender and the message id of a report. -/
def Report.pair (r : Report) : Bytes × Bytes := (r.fromPeerId, r.packet.messageId)

namespace P2PNode

variable (S : Sodium)

/-- The pair was reported. -/
def Reported (n : P2PNode) (senderId messageId : Bytes) : Prop :=
  ∃ r ∈ n.reports, r.pair = (senderId, messageId)

structure DeliveryInv (n : P2PNode) : Prop where
  nodup : (n.reports.map Report.pair).Nodup
  delivered : ∀ k, k ∈ n.deliveredInboxKeys ↔
    ∃ r ∈ n.reports, buildInboxDedupeKey r.fromPeerId r.packet.messageId = k
  reportSender : ∀ r ∈ n.reports, kDhtFieldSep ∉ r.fromPeerId
  lookupSender : ∀ op senderId packet flag,
    ⟨op, .onSenderProfileFound senderId packet, flag⟩ ∈ n.dht.gets → kDhtFieldSep ∉ senderId
  openLookup : ∀ op senderId packet,
    ⟨op, .onSenderProfileFound senderId packet, false⟩ ∈ n.dht.gets →
      n.Reported senderId packet.messageId → packet.messageId ∈ n.crypto.seenMessageIds senderId
  stopped : n.running = false → n.dht.listenName = none ∧
    ∀ op senderId packet flag, ⟨op, .onSenderProfileFound senderId packet, flag⟩ ∉ n.dht.gets

theorem deliveryInv_new : ({} : P2PNode).DeliveryInv where
  nodup := List.nodup_nil
  delivered := by simp
  reportSender := by simp
  lookupSender := by simp
  openLookup := by simp
  stopped := by simp

namespace DeliveryInv

variable {n : P2PNode}

/-- The set of delivered keys answers for exactly the reported pairs. -/
theorem mem_deliveredInboxKeys (h : n.DeliveryInv) {senderId messageId : Bytes}
    (hSep : kDhtFieldSep ∉ senderId) :
    buildInboxDedupeKey senderId messageId ∈ n.deliveredInboxKeys ↔
      n.Reported senderId messageId := by
  rw [h.delivered]
  constructor
  · rintro ⟨r, hr, hKey⟩
    obtain ⟨hSender, hId⟩ := (buildInboxDedupeKey_inj (h.reportSender r hr) hSep).mp hKey
    exact ⟨r, hr, Prod.ext hSender hId⟩
  · rintro ⟨r, hr, hPair⟩
    obtain ⟨hSender, hId⟩ := Prod.mk.inj hPair
    exact ⟨r, hr, by rw [hSender, hId]⟩

theorem running_of_listening (h : n.DeliveryInv) (hListening : n.dht.listenName.isSome) :
    n.running = true := by
  cases hRunning : n.running with
  | true => rfl
  | false =>
    rw [(h.stopped hRunning).1] at hListening
    cases hListening

theorem withRest (h : n.DeliveryInv) (r : Rest) : (n.withRest r).DeliveryInv := { h with }

theorem raiseFlag (h : n.DeliveryInv) (op : Nat) : (n.raiseFlag op).DeliveryInv where
  nodup := h.nodup
  delivered := h.delivered
  reportSender := h.reportSender
  lookupSender op' senderId packet flag hGet := by
    obtain ⟨⟨op₀, callback, flag₀⟩, hGet₀, hEq⟩ := List.mem_map.mp hGet
    split at hEq <;> cases hEq <;> exact h.lookupSender _ _ _ _ hGet₀
  openLookup op' senderId packet hGet := h.openLookup op' senderId packet
    (mem_raiseFlag_gets hGet rfl).1
  stopped hStopped := by
    refine ⟨(h.stopped hStopped).1, ?_⟩
    intro op' senderId packet flag hGet
    obtain ⟨⟨op₀, callback, flag₀⟩, hGet₀, hEq⟩ := List.mem_map.mp hGet
    split at hEq <;> cases hEq <;> exact (h.stopped hStopped).2 _ _ _ _ hGet₀

/-- New lookups of senders are for pairs that were not reported, and start while running. -/
theorem addGets (h : n.DeliveryInv) (gs : List Get)
    (hNew : ∀ op senderId packet flag, ⟨op, .onSenderProfileFound senderId packet, flag⟩ ∈ gs →
      n.running = true ∧ kDhtFieldSep ∉ senderId ∧ ¬ n.Reported senderId packet.messageId) :
    ({ n with dht := { n.dht with gets := gs ++ n.dht.gets } } : P2PNode).DeliveryInv where
  nodup := h.nodup
  delivered := h.delivered
  reportSender := h.reportSender
  lookupSender op senderId packet flag hGet := by
    rcases List.mem_append.mp hGet with hNewGet | hOld
    · exact (hNew op senderId packet flag hNewGet).2.1
    · exact h.lookupSender op senderId packet flag hOld
  openLookup op senderId packet hGet hReported := by
    rcases List.mem_append.mp hGet with hNewGet | hOld
    · exact absurd hReported (hNew op senderId packet false hNewGet).2.2
    · exact h.openLookup op senderId packet hOld hReported
  stopped hStopped := by
    refine ⟨(h.stopped hStopped).1, ?_⟩
    intro op senderId packet flag hGet
    rcases List.mem_append.mp hGet with hNewGet | hOld
    · rw [(hNew op senderId packet flag hNewGet).1] at hStopped
      cases hStopped
    · exact (h.stopped hStopped).2 op senderId packet flag hOld

/-- Recording more ids keeps the invariant. -/
theorem withCrypto (h : n.DeliveryInv) {crypto : CryptoService}
    (hSeen : ∀ s m, m ∈ n.crypto.seenMessageIds s → m ∈ crypto.seenMessageIds s) :
    ({ n with crypto := crypto } : P2PNode).DeliveryInv :=
  { h with
    openLookup := fun op senderId packet hGet hReported =>
      hSeen _ _ (h.openLookup op senderId packet hGet hReported) }

/-- A pair that is recorded and was not reported may be reported. -/
theorem report (h : n.DeliveryInv) {senderId : Bytes} {packet : EncryptedPacket}
    (plainText : Bytes) (clock : Int) (hSep : kDhtFieldSep ∉ senderId)
    (hNew : ¬ n.Reported senderId packet.messageId)
    (hSeen : packet.messageId ∈ n.crypto.seenMessageIds senderId) :
    (n.delivered senderId packet plainText clock).DeliveryInv where
  nodup := by
    simp only [P2PNode.delivered, List.map_append, List.map_cons, List.map_nil]
    refine h.nodup.append (List.nodup_singleton _) ?_
    intro pair hOld hLast
    obtain ⟨r, hr, rfl⟩ := List.mem_map.mp hOld
    exact hNew ⟨r, hr, List.mem_singleton.mp hLast⟩
  delivered k := by
    simp only [P2PNode.delivered, List.mem_insert_iff, h.delivered, List.mem_append,
      List.mem_singleton, or_and_right, exists_or, exists_eq_left]
    rw [or_comm]
    exact or_congr_right eq_comm
  reportSender r hr := by
    rcases List.mem_append.mp hr with hOld | hLast
    · exact h.reportSender r hOld
    · rw [List.mem_singleton.mp hLast]
      exact hSep
  lookupSender := h.lookupSender
  openLookup op sender packet' hGet hReported := by
    obtain ⟨r, hr, hPair⟩ := hReported
    rcases List.mem_append.mp hr with hOld | hLast
    · exact h.openLookup op sender packet' hGet ⟨r, hOld, hPair⟩
    · rw [List.mem_singleton.mp hLast] at hPair
      obtain ⟨rfl, hId⟩ := Prod.mk.inj hPair
      rw [← hId]
      exact hSeen
  stopped := h.stopped

theorem decrypt (h : n.DeliveryInv) {op : Nat} {values : List Bytes} {senderId key : Bytes}
    {packet : EncryptedPacket} (hAction : n.lookupAction op values = .decrypt senderId packet key)
    (io : CallbackInput) :
    ((n.raiseFlag op).decryptResult S senderId packet key io).DeliveryInv := by
  obtain ⟨-, hGet, -⟩ := of_pending (pending_of_decrypt hAction).1
  have hFlagged := h.raiseFlag op
  have hSeenEq : ((n.raiseFlag op).decryption S senderId packet key io).2.seenMessageIds = _ :=
    CryptoService.decrypt_seenMessageIds S _ _ _ _ _ _
  have hKept : ∀ s m, m ∈ n.crypto.seenMessageIds s →
      m ∈ ((n.raiseFlag op).decryption S senderId packet key io).2.seenMessageIds s := by
    intro s m hm
    rw [hSeenEq]
    split
    · exact CryptoService.mem_record.mpr (Or.inr hm)
    · exact hm
  cases hResult : ((n.raiseFlag op).decryption S senderId packet key io).1 with
  | error error =>
    rw [decryptResult_of_error S hResult]
    exact hFlagged.withCrypto hKept
  | ok plainText =>
    rw [decryptResult_of_ok S hResult]
    obtain ⟨hReaches, -⟩ := (CryptoService.decrypt_ok_iff S _ _ _ _ _ _).mp hResult
    have hNew : ¬ n.Reported senderId packet.messageId := by
      intro hReported
      exact hReaches.2.2 (h.openLookup op senderId packet hGet hReported)
    apply (hFlagged.withCrypto hKept).report plainText io.now
      (h.lookupSender op senderId packet false hGet) hNew
    show packet.messageId ∈ _
    rw [hSeenEq, if_pos hReaches]
    exact CryptoService.mem_record.mpr (Or.inl ⟨rfl, rfl⟩)

end DeliveryInv

theorem deliveryInv_step {n : P2PNode} (h : n.DeliveryInv) (e : Event) :
    (n.step S e).DeliveryInv := by
  obtain ⟨rest, hStep⟩ := step_effect S n e
  rw [hStep]
  refine DeliveryInv.withRest ?_ rest
  cases e with
  | setNodeConfig port id => exact { h with }
  | startNode io =>
    simp only [effect]
    split
    · exact h
    · rename_i hRunning
      have hStopped := h.stopped (Bool.not_eq_true _ ▸ hRunning)
      exact { h with
        openLookup := fun op senderId packet hGet =>
          absurd hGet (hStopped.2 op senderId packet false)
        stopped := fun hRun => by cases hRun }
  | stopNode =>
    simp only [effect]
    split
    · exact { h with
        lookupSender := by simp
        openLookup := by simp
        stopped := by simp }
    · exact h
  | sendMessage op toPeerId text =>
    simp only [effect]
    split
    · exact h
    · exact h.addGets [_] (by simp)
  | publishProfile profile => exact { h with }
  | findPeer op userId => exact h.addGets [_] (by simp)
  | inbox values expired =>
    simp only [effect]
    split
    · rename_i hListening
      apply h.addGets
      intro op senderId packet flag hGet
      obtain ⟨payload, sender, packet', body, -, hEq, hPayload, -, -, hKey⟩ := mem_valueGets hGet
      obtain ⟨rfl, rfl⟩ := Callback.onSenderProfileFound.inj (Get.mk.inj hEq).2.1
      have hSep := sep_not_mem_senderId hPayload
      refine ⟨h.running_of_listening hListening.1, hSep, ?_⟩
      intro hReported
      exact hKey ((h.mem_deliveredInboxKeys hSep).mpr hReported)
    · exact h
  | lookup op values io =>
    simp only [effect, afterLookup]
    cases hAction : n.lookupAction op values with
    | ignore => exact h
    | giveUp => exact h.raiseFlag op
    | encrypt receiverId packet key =>
      simp only [sendEncrypted_eq]
      exact { (h.raiseFlag op).withCrypto (fun _ _ hm => hm) with }
    | decrypt senderId packet key => exact h.decrypt S hAction io
  | _ => exact h

theorem deliveryInv_run (es : List Event) : (run (step S) {} es).DeliveryInv :=
  run_invariant (I := DeliveryInv) (fun _ e h => deliveryInv_step S h e) deliveryInv_new es

/-- Over the life of a node no pair of a sender and a message id is reported twice, the
listener takes a value for delivered exactly if its pair was reported, and dedupe keys of
different pairs differ. -/
theorem reported_at_most_once (es : List Event) :
    ((run (step S) {} es).reports.map Report.pair).Nodup ∧
      (∀ payload senderId body packet start,
        parseDhtMessagePayload payload = some (senderId, body) →
        parseSecureBody body start = some packet →
          ((run (step S) {} es).wasInboxMessageDelivered senderId packet.messageId = true ↔
            (run (step S) {} es).Reported senderId packet.messageId)) ∧
      ∀ payload payload' senderId senderId' body body' messageId messageId',
        parseDhtMessagePayload payload = some (senderId, body) →
        parseDhtMessagePayload payload' = some (senderId', body') →
        buildInboxDedupeKey senderId messageId = buildInboxDedupeKey senderId' messageId' →
          senderId = senderId' ∧ messageId = messageId' := by
  have hInv := deliveryInv_run S es
  refine ⟨hInv.nodup, ?_, ?_⟩
  · intro payload senderId body packet start hPayload _
    simpa [wasInboxMessageDelivered] using
      hInv.mem_deliveredInboxKeys (sep_not_mem_senderId hPayload)
  · intro payload payload' senderId senderId' body body' messageId messageId' h h' hKey
    exact (buildInboxDedupeKey_inj (sep_not_mem_senderId h) (sep_not_mem_senderId h')).mp hKey

end P2PNode

end P2PMessenger
