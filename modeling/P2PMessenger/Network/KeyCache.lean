import P2PMessenger.Network.Channel

/-!
# The key cache

Every lookup that finds a key and every confirmed publication writes into `m_peerPublicKeys`;
sending and delivery never read it. In a closed network the cache holds what the DHT would
answer: keys of peers under their own ids, and one for each peer that the node has written
to or heard from.
-/

namespace P2PMessenger

open Text Crypto Run

/-- The cache behind `cachePeerPublicKey`. -/
def remember (cache : List (Bytes × Bytes)) (p : Bytes × Bytes) : List (Bytes × Bytes) :=
  if p.1 = [] ∨ p.2 = [] then cache else p :: cache.filter fun q => q.1 ≠ p.1

theorem lookup_filter_ne {α β : Type} [BEq α] [LawfulBEq α] [DecidableEq α] {l : List (α × β)}
    {a b : α} (h : a ≠ b) : (l.filter fun q => q.1 ≠ a).lookup b = l.lookup b := by
  induction l with
  | nil => rfl
  | cons q rest ih =>
    obtain ⟨c, v⟩ := q
    by_cases hDropped : c = a
    · have hOther : (b == c) = false := beq_false_of_ne (hDropped ▸ h.symm)
      rw [List.filter_cons_of_neg (by simpa using hDropped), ih, List.lookup_cons, hOther]
    · rw [List.filter_cons_of_pos (by simpa using hDropped), List.lookup_cons,
        List.lookup_cons, ih]

theorem lookup_remember (cache : List (Bytes × Bytes)) (p : Bytes × Bytes) (id : Bytes) :
    (remember cache p).lookup id =
      if p.1 = id ∧ p.1 ≠ [] ∧ p.2 ≠ [] then some p.2 else cache.lookup id := by
  obtain ⟨userId, key⟩ := p
  unfold remember
  by_cases hEmpty : userId = [] ∨ key = []
  · rw [if_pos hEmpty, if_neg]
    rintro ⟨-, hId, hKey⟩
    exact hEmpty.elim hId hKey
  · rw [if_neg hEmpty]
    by_cases hSame : userId = id
    · subst hSame
      rw [if_pos ⟨rfl, not_or.mp hEmpty⟩, List.lookup_cons_self]
    · have hOther : (id == userId) = false := beq_false_of_ne (Ne.symm hSame)
      rw [if_neg fun h => hSame h.1, List.lookup_cons, hOther]
      exact lookup_filter_ne hSame

/-- What is found was there or has been learned. -/
theorem lookup_foldl_remember {l cache : List (Bytes × Bytes)} {id key : Bytes}
    (h : (l.foldl remember cache).lookup id = some key) :
    cache.lookup id = some key ∨ (id, key) ∈ l := by
  induction l generalizing cache with
  | nil => exact Or.inl h
  | cons p rest ih =>
    rcases ih h with hNow | hLater
    · rw [lookup_remember] at hNow
      split at hNow
      · rename_i hSame
        obtain rfl := Option.some.inj hNow
        obtain rfl := hSame.1
        exact Or.inr List.mem_cons_self
      · exact Or.inl hNow
    · exact Or.inr (List.mem_cons_of_mem p hLater)

/-- No id is forgotten. -/
theorem isSome_lookup_foldl_remember {l cache : List (Bytes × Bytes)} {id : Bytes}
    (h : (cache.lookup id).isSome = true ∨ ∃ key, (id, key) ∈ l ∧ id ≠ [] ∧ key ≠ []) :
    ((l.foldl remember cache).lookup id).isSome = true := by
  induction l generalizing cache with
  | nil =>
    rcases h with hOld | ⟨key, hMem, -⟩
    · exact hOld
    · cases hMem
  | cons p rest ih =>
    apply ih
    rw [lookup_remember]
    rcases h with hOld | ⟨key, hMem, hId, hKey⟩
    · left
      split
      · rfl
      · exact hOld
    · rcases List.mem_cons.mp hMem with rfl | hLater
      · left
        rw [if_pos ⟨rfl, hId, hKey⟩]
        rfl
      · exact Or.inr ⟨key, hLater, hId, hKey⟩

namespace P2PNode

def tryGetCachedPeerPublicKey (n : P2PNode) (userId : Bytes) : Option Bytes :=
  n.peerPublicKeys.lookup userId

/-! ## What a step writes into the cache -/

/-- The calls of `cachePeerPublicKey` in a step. -/
def learned (n : P2PNode) : Event → List (Bytes × Bytes)
  | .profilePut profile success =>
    if n.dht.running = true ∧ success = true then [(profile.userId, n.myKeys.publicKey)] else []
  | .lookup op values _ =>
    match n.pending op with
    | some ⟨_, .findPeer userId, _⟩ =>
      values.filterMap fun payload => (profileKey [payload]).map (Prod.mk userId)
    | some ⟨_, callback, false⟩ => ((profileKey values).map (Prod.mk callback.userId)).toList
    | _ => []
  | _ => []

theorem peerPublicKeys_cachePeerPublicKey (n : P2PNode) (userId key : Bytes) :
    (n.cachePeerPublicKey userId key).peerPublicKeys =
      remember n.peerPublicKeys (userId, key) := by
  unfold cachePeerPublicKey remember
  split <;> rfl

theorem peerPublicKeys_foldl_foundPeerValue (n : P2PNode) (userId : Bytes) (values : List Bytes) :
    (values.foldl (fun n payload => n.foundPeerValue userId payload) n).peerPublicKeys =
      (values.filterMap fun payload => (profileKey [payload]).map (Prod.mk userId)).foldl remember
        n.peerPublicKeys := by
  induction values generalizing n with
  | nil => rfl
  | cons payload rest ih =>
    have hValue : (n.foundPeerValue userId payload).peerPublicKeys =
        ((profileKey [payload]).map (Prod.mk userId)).toList.foldl remember n.peerPublicKeys := by
      unfold foundPeerValue profileKey
      cases hCut : cutLast pipe payload with
      | none => simp [hCut, notifyPeerFound]
      | some parts =>
        cases hKey : fromBase64 parts.2 with
        | none => simp [hCut, hKey, notifyPeerFound]
        | some key =>
          simp [hCut, hKey, notifyPeerFound, peerPublicKeys_cachePeerPublicKey]
    rw [List.foldl_cons, ih, hValue, List.filterMap_cons]
    cases (profileKey [payload]).map (Prod.mk userId) <;> rfl

variable (S : Sodium)

theorem peerPublicKeys_onProfileFound (n : P2PNode) (receiverId : Bytes)
    (packet : EncryptedPacket) (values : List Bytes) (io : CallbackInput) :
    (n.onProfileFound S receiverId packet values io).peerPublicKeys =
      ((profileKey values).map (Prod.mk receiverId)).toList.foldl remember n.peerPublicKeys := by
  unfold onProfileFound profileKey
  cases values with
  | nil => rfl
  | cons payload rest =>
    cases hCut : cutLast pipe payload with
    | none => simp [hCut, notifyError]
    | some parts =>
      cases hKey : fromBase64 parts.2 with
      | none => simp [hCut, hKey, notifyError]
      | some key =>
        simp only [hCut, hKey, List.head?_cons, Option.bind_eq_bind, Option.bind_some,
          Option.map_some, Option.toList_some, List.foldl_cons, List.foldl_nil,
          ← peerPublicKeys_cachePeerPublicKey, sendEncrypted]
        generalize (n.cachePeerPublicKey receiverId key).crypto.encrypt S _ _ _ _ _ _ _ = result
        obtain ⟨result, crypto⟩ := result
        cases result <;> rfl

theorem peerPublicKeys_onSenderProfileFound (n : P2PNode) (senderId : Bytes)
    (packet : EncryptedPacket) (values : List Bytes) (io : CallbackInput) :
    (n.onSenderProfileFound S senderId packet values io).peerPublicKeys =
      ((profileKey values).map (Prod.mk senderId)).toList.foldl remember n.peerPublicKeys := by
  unfold onSenderProfileFound profileKey
  cases values with
  | nil => rfl
  | cons payload rest =>
    cases hCut : cutLast pipe payload with
    | none => simp [hCut]
    | some parts =>
      cases hKey : fromBase64 parts.2 with
      | none =>
        simp only [hCut, hKey, List.head?_cons, Option.bind_eq_bind, Option.bind_some]
        split <;> rfl
      | some key =>
        simp only [hCut, hKey, List.head?_cons, Option.bind_eq_bind, Option.bind_some,
          Option.map_some, Option.toList_some, List.foldl_cons, List.foldl_nil,
          ← peerPublicKeys_cachePeerPublicKey, decryptWithSenderKey]
        generalize (n.cachePeerPublicKey senderId key).crypto.decrypt S _ _ _ _ _ = result
        obtain ⟨result, crypto⟩ := result
        cases result with
        | ok plainText => rfl
        | error error =>
          dsimp only
          split <;> rfl

theorem peerPublicKeys_onLookup (n : P2PNode) (op : Nat) (values : List Bytes)
    (io : CallbackInput) :
    (n.onLookup S op values io).peerPublicKeys =
      (n.learned (.lookup op values io)).foldl remember n.peerPublicKeys := by
  unfold onLookup learned
  dsimp only
  cases n.pending op with
  | none => rfl
  | some g =>
    obtain ⟨op', callback, flag⟩ := g
    cases callback with
    | findPeer userId =>
      dsimp only
      rw [← peerPublicKeys_foldl_foundPeerValue, onPeerFound]
      cases values <;> rfl
    | onProfileFound receiverId packet =>
      cases flag with
      | true => rfl
      | false => exact peerPublicKeys_onProfileFound S (n.raiseFlag op) receiverId packet values io
    | onSenderProfileFound senderId packet =>
      cases flag with
      | true => rfl
      | false =>
        exact peerPublicKeys_onSenderProfileFound S (n.raiseFlag op) senderId packet values io

/-- Nothing else touches the cache. -/
theorem step_peerPublicKeys (n : P2PNode) (e : Event) :
    (n.step S e).peerPublicKeys = (n.learned e).foldl remember n.peerPublicKeys := by
  cases e with
  | startNode io =>
    simp only [step, startNode, learned]
    split <;> rfl
  | stopNode =>
    simp only [step, stopNode, learned]
    split <;> rfl
  | setBootstrapHost host =>
    simp only [step, setBootstrapHost, learned]
    split <;> rfl
  | bootstrap ip port =>
    simp only [step, bootstrap, setBootstrapHost, learned]
    split <;> rfl
  | sendMessage op toPeerId text =>
    simp only [step, sendMessage, learned]
    split <;> rfl
  | profilePut profile success =>
    simp only [step, learned, onProfilePut]
    cases n.dht.running <;> cases success
    · rfl
    · rfl
    · rfl
    · exact peerPublicKeys_cachePeerPublicKey _ profile.userId n.myKeys.publicKey
  | refreshProfile =>
    simp only [step, refreshProfile, learned]
    split
    · split <;> rfl
    · rfl
  | inbox values expired =>
    simp only [step, onMessageReceived_eq, learned]
    split
    · split <;> rfl
    · rfl
  | lookup op values io => exact peerPublicKeys_onLookup S n op values io
  | _ => rfl

/-- A node that writes to somebody, or hears from somebody, has learned a key. -/
theorem learned_of_newPuts {n : P2PNode} {e : Event} {q : Put} (hq : q ∈ n.newPuts S e)
    {packet : EncryptedPacket} (hPacket : q.packet = some packet) :
    ∃ key, (packet.receiverId, key) ∈ n.learned e := by
  unfold newPuts at hq
  split at hq
  · rw [List.mem_singleton.mp hq] at hPacket
    cases hPacket
  · split at hq
    · rw [List.mem_singleton.mp hq] at hPacket
      cases hPacket
    · cases hq
  · split at hq
    · rename_i receiverId request key hAction
      obtain ⟨hPending, hKey⟩ := pending_of_encrypt hAction
      split at hq
      · cases hq
      · rw [List.mem_singleton.mp hq] at hPacket
        obtain rfl := Option.some.inj hPacket
        refine ⟨key, ?_⟩
        simp only [learned, hPending, hKey]
        exact List.mem_singleton_self _
    · cases hq
  · cases hq

theorem learned_of_newReports {n : P2PNode} {e : Event} {r : Report} (hr : r ∈ n.newReports S e) :
    ∃ key, (r.fromPeerId, key) ∈ n.learned e := by
  obtain ⟨op, values, io, senderId, packet, key, rfl, hAction, -, -, hReport⟩ :=
    mem_newReports S hr
  obtain ⟨hPending, hKey⟩ := pending_of_decrypt hAction
  refine ⟨key, ?_⟩
  rw [hReport]
  simp only [learned, hPending, hKey]
  exact List.mem_singleton_self _

end P2PNode

/-- The profile whose put the DHT reports back. -/
def Event.putProfile : Event → Option UserProfile
  | .profilePut profile _ => some profile
  | _ => none

/-- The callback of a put belongs to a profile that the node has put. -/
def Event.Confirms (n : P2PNode) (e : Event) : Prop :=
  ∀ profile ∈ e.putProfile, .publishProfile profile ∈ n.puts.map Put.origin

instance (n : P2PNode) (e : Event) : Decidable (e.Confirms n) := by
  unfold Event.Confirms
  infer_instance

section Closed

variable {ι κ : Type} {peers : ι → Launch} {hash : Bytes → κ} {ids : Set Bytes}
  {net : ι → P2PNode}

theorem ClosedNet.learned_genuine (h : ClosedNet peers ids net) (hIds : UsableIds peers ids)
    (hHash : Function.Injective hash) {i : ι} {e : Event} (hServed : Served hash net (i, e))
    (hConfirms : e.Confirms (net i)) :
    ∀ p ∈ (net i).learned e, ∃ j, p.1 = (peers j).userId ∧ p.2 = (peers j).publicKey := by
  intro p hp
  cases e with
  | profilePut profile success =>
    simp only [P2PNode.learned] at hp
    split at hp
    · rename_i hRunning
      obtain ⟨q, hq, hOrigin⟩ := List.mem_map.mp (hConfirms profile rfl)
      have hMade := (h.genuine i).puts q hq
      simp only [Put.MadeBy, hOrigin] at hMade
      rw [List.mem_singleton.mp hp]
      refine ⟨i, hMade.1, ?_⟩
      rw [(h.genuine i).myKeys ((h.genuine i).running.symm.trans hRunning.1)]
      rfl
    · cases hp
  | lookup op values io =>
    simp only [P2PNode.learned] at hp
    cases hPending : (net i).pending op with
    | none =>
      rw [hPending] at hp
      cases hp
    | some g =>
      have hFound {payload key : Bytes} (hMem : payload ∈ values)
          (hKey : profileKey [payload] = some key) :
          ∃ j, g.callback.userId = (peers j).userId ∧ key = (peers j).publicKey := by
        obtain ⟨j, hUser, hOwn⟩ := h.served_profile hIds hHash hServed hPending hMem
        exact ⟨j, hUser, Option.some.inj (hKey.symm.trans hOwn)⟩
      have hFirst (hp : p ∈ ((profileKey values).map (Prod.mk g.callback.userId)).toList) :
          ∃ j, p.1 = (peers j).userId ∧ p.2 = (peers j).publicKey := by
        obtain ⟨key, hKey, rfl⟩ := Option.map_eq_some_iff.mp (Option.mem_toList.mp hp)
        cases values with
        | nil => cases hKey
        | cons payload rest => exact hFound List.mem_cons_self hKey
      rw [hPending] at hp
      obtain ⟨op', callback, flag⟩ := g
      cases callback with
      | findPeer userId =>
        obtain ⟨payload, hMem, hMap⟩ := List.mem_filterMap.mp hp
        obtain ⟨key, hKey, rfl⟩ := Option.map_eq_some_iff.mp hMap
        exact hFound hMem hKey
      | onProfileFound receiverId packet =>
        cases flag with
        | true => cases hp
        | false => exact hFirst hp
      | onSenderProfileFound senderId packet =>
        cases flag with
        | true => cases hp
        | false => exact hFirst hp
  | _ => cases hp

/-- What the cache of a node holds. -/
structure CacheInv (peers : ι → Launch) (n : P2PNode) : Prop where
  genuine : ∀ userId key, n.tryGetCachedPeerPublicKey userId = some key →
    ∃ j, userId = (peers j).userId ∧ key = (peers j).publicKey
  written : ∀ packet ∈ n.puts.filterMap Put.packet,
    (n.tryGetCachedPeerPublicKey packet.receiverId).isSome = true
  heard : ∀ r ∈ n.reports, (n.tryGetCachedPeerPublicKey r.fromPeerId).isSome = true

theorem CacheInv.step (S : Sodium) {i : ι} (hCache : CacheInv peers (net i))
    (h : ClosedNet peers ids net) (hIds : UsableIds peers ids) (hHash : Function.Injective hash)
    (hKeys : ∀ j, (peers j).publicKey ≠ []) {e : Event} (hServed : Served hash net (i, e))
    (hConfirms : e.Confirms (net i)) : CacheInv peers ((net i).step S e) := by
  have hLearned := h.learned_genuine hIds hHash hServed hConfirms
  have hStep (userId : Bytes) : ((net i).step S e).tryGetCachedPeerPublicKey userId =
      (((net i).learned e).foldl remember (net i).peerPublicKeys).lookup userId := by
    rw [P2PNode.tryGetCachedPeerPublicKey, P2PNode.step_peerPublicKeys]
  have hOld {userId : Bytes}
      (hSome : ((net i).tryGetCachedPeerPublicKey userId).isSome = true) :
      (((net i).step S e).tryGetCachedPeerPublicKey userId).isSome = true := by
    rw [hStep]
    exact isSome_lookup_foldl_remember (Or.inl hSome)
  have hNew {userId : Bytes} (hSome : ∃ key, (userId, key) ∈ (net i).learned e) :
      (((net i).step S e).tryGetCachedPeerPublicKey userId).isSome = true := by
    obtain ⟨key, hMem⟩ := hSome
    obtain ⟨j, hUser, hKey⟩ := hLearned _ hMem
    rw [hStep]
    exact isSome_lookup_foldl_remember
      (Or.inr ⟨key, hMem, fun hNil => hIds.ne_nil j (hUser.symm.trans hNil),
        fun hNil => hKeys j (hKey.symm.trans hNil)⟩)
  constructor
  · intro userId key hGet
    rw [hStep] at hGet
    rcases lookup_foldl_remember hGet with hBefore | hNow
    · exact hCache.genuine userId key hBefore
    · exact hLearned _ hNow
  · intro packet hPacket
    rw [P2PNode.step_puts, List.filterMap_append, List.mem_append] at hPacket
    rcases hPacket with hBefore | hNow
    · exact hOld (hCache.written packet hBefore)
    · obtain ⟨q, hq, hOrigin⟩ := List.mem_filterMap.mp hNow
      exact hNew (P2PNode.learned_of_newPuts S hq hOrigin)
  · intro r hr
    rw [P2PNode.step_reports, List.mem_append] at hr
    rcases hr with hBefore | hNow
    · exact hOld (hCache.heard r hBefore)
    · exact hNew (P2PNode.learned_of_newReports S hNow)

variable [DecidableEq ι] (S : Sodium) {start : ι → P2PNode}

/-- In every run of a closed network whose peers have keys, the cache of a node answers as the
DHT would: it has the key of every peer that the node has put a message for or reported one
of, and no key but those of peers under their own ids. -/
theorem cache_agrees {es : List (ι × Event)} (h : ClosedRun S peers start hash ids es)
    (hKeys : ∀ j, (peers j).publicKey ≠ []) (hEmpty : ∀ i, (start i).peerPublicKeys = [])
    (hConfirms : Along (netStep (P2PNode.step S)) (fun net e => e.2.Confirms (net e.1)) start es)
    (i : ι) :
    (∀ userId key, (netFrom S start es i).tryGetCachedPeerPublicKey userId = some key →
      ∃ j, userId = (peers j).userId ∧ key = (peers j).publicKey) ∧
    ∀ j, (netFrom S start es i).sentTo (peers j).userId ≠ [] ∨
        (netFrom S start es i).reportsFrom (peers j).userId ≠ [] →
      (netFrom S start es i).tryGetCachedPeerPublicKey (peers j).userId =
        some (peers j).publicKey := by
  have hBoth : ClosedNet peers ids (netFrom S start es) ∧
      ∀ i, CacheInv peers (netFrom S start es i) := by
    refine run_invariant_along
      (I := fun net => ClosedNet peers ids net ∧ ∀ i, CacheInv peers (net i)) ?_ ?_
      (along_and.mpr ⟨h.along S, hConfirms⟩)
    · rintro net ⟨k, e⟩ ⟨hNet, hCache⟩ ⟨⟨hPermitted, hServed⟩, hConfirm⟩
      refine ⟨hNet.step S h.usable h.injective hPermitted hServed, ?_⟩
      intro i
      by_cases hik : i = k
      · subst hik
        rw [netStep_self]
        exact (hCache i).step S hNet h.usable h.injective hKeys hServed hConfirm
      · rw [netStep_of_ne hik]
        exact hCache i
    · refine ⟨closedNet_unused h.usable h.unused, ?_⟩
      intro i
      constructor
      · intro userId key hGet
        rw [P2PNode.tryGetCachedPeerPublicKey, hEmpty i] at hGet
        cases hGet
      · intro packet hPacket
        rw [(h.unused i).puts] at hPacket
        cases hPacket
      · intro r hr
        rw [(h.unused i).reports] at hr
        cases hr
  have hCache := hBoth.2 i
  refine ⟨hCache.genuine, ?_⟩
  intro j hKnown
  have hSome : ((netFrom S start es i).tryGetCachedPeerPublicKey (peers j).userId).isSome = true := by
    rcases hKnown with hSent | hHeard
    · obtain ⟨packet, hPacket⟩ := List.exists_mem_of_ne_nil _ hSent
      obtain ⟨hPut, hReceiver⟩ := List.mem_filter.mp hPacket
      rw [← of_decide_eq_true hReceiver]
      exact hCache.written packet hPut
    · obtain ⟨r, hReport⟩ := List.exists_mem_of_ne_nil _ hHeard
      obtain ⟨hr, hSender⟩ := List.mem_filter.mp hReport
      rw [← of_decide_eq_true hSender]
      exact hCache.heard r hr
  obtain ⟨key, hGet⟩ := Option.isSome_iff_exists.mp hSome
  obtain ⟨k, hUser, hKey⟩ := hCache.genuine _ key hGet
  obtain rfl : j = k := h.usable.injective hUser
  rw [hGet, hKey]

end Closed

namespace Peer

theorem repeatedRun_cache_agrees :
    (∀ userId key,
      (netFrom .additive start repeatedRun bob).tryGetCachedPeerPublicKey userId = some key →
        ∃ j : Peer, userId = j.launch.userId ∧ key = j.launch.publicKey) ∧
    (netFrom .additive start repeatedRun bob).tryGetCachedPeerPublicKey alice.launch.userId =
      some alice.launch.publicKey := by
  have h := cache_agrees .additive repeatedRun_closed (by decide +kernel) (fun _ => rfl)
    (by decide +kernel) bob
  exact ⟨h.1, h.2 alice (Or.inr (by decide +kernel))⟩

end Peer

end P2PMessenger
