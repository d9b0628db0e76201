import P2PMessenger.Network.Namespaces
import P2PMessenger.Network.Replay
import P2PMessenger.Network.RoundTrip
import P2PMessenger.Run.Simulation

/-!
# A closed network

Without an attacker the DHT hands out only what some node put under the key that is asked
for; it may still lose, repeat and reorder values. Nodes may stop and start again with the
keys they had. Then a lookup of a peer returns the key of that peer, and a kept inbox value
is a packet that the sender it names put for this node, field by field.
-/

namespace P2PMessenger

open Text Crypto Run

namespace Launch

variable (l : Launch)

theorem userId_eq :
    l.userId = if l.id = [] then bytes "default_node" else trim isSpace l.id := rfl

theorem trim_userId : trim isSpace l.userId = l.userId := by
  rw [userId_eq]
  split
  · decide +kernel
  · exact trim_trim l.id

end Launch

/-- The event leaves the id of the peer as it is, starts it with the keys of its launch,
publishes the peer's own profile while it runs, and asks for users of the given set. -/
def Event.Permitted (l : Launch) (ids : Set Bytes) (n : P2PNode) : Event → Prop
  | .setNodeConfig _ id => id ≠ [] → trim isSpace id = l.userId
  | .startNode io => (initKeys io).1 = l.node.myKeys
  | .publishProfile profile => n.running = true ∧ profile.userId = l.userId
  | .sendMessage _ toPeerId _ => toPeerId ∈ ids
  | .findPeer _ userId => userId ∈ ids
  | _ => True

instance (l : Launch) (ids : Set Bytes) [DecidablePred (· ∈ ids)] (n : P2PNode) (e : Event) :
    Decidable (e.Permitted l ids n) := by
  cases e <;> unfold Event.Permitted <;> infer_instance

/-- A value that the peer puts: its own key, or a packet that it sealed. -/
def Put.MadeBy (l : Launch) (q : Put) : Prop :=
  match q.origin with
  | .publishProfile profile =>
    profile.userId = l.userId ∧ q.payload = profilePayload profile l.publicKey
  | .sendPacket packet =>
    q.payload = fullPayload l.userId packet ∧
      ∃ (draws : Draws) (now : Int) (ciphertext : Bytes), InInt64 now ∧
        crypto_box_MACBYTES ≤ ciphertext.length ∧
        packet = CryptoService.sealedPacket l.userId packet.receiverId draws now ciphertext

namespace P2PNode

/-- The node goes by the id of its launch, has its keys while it runs, and everything it put
is its own. -/
structure Genuine (l : Launch) (n : P2PNode) : Prop where
  myId : n.myId = l.userId
  running : n.dht.running = n.running
  myKeys : n.running = true → n.myKeys = l.node.myKeys
  profile : n.currentProfile.userId ≠ [] → n.currentProfile.userId = l.userId
  puts : ∀ q ∈ n.puts, q.MadeBy l
  listens : ∀ name ∈ n.dht.listenName, name = inboxName l.userId

variable (S : Sodium) {l : Launch} {ids : Set Bytes}

theorem Genuine.profilePut {n : P2PNode} (h : n.Genuine l) (hRunning : n.running = true)
    {profile : UserProfile} (hOwn : profile.userId = l.userId) :
    (n.profilePut profile).MadeBy l := by
  refine ⟨hOwn, ?_⟩
  rw [P2PNode.profilePut, h.myKeys hRunning]
  rfl

/-- A callback runs only while the node does. -/
theorem Genuine.keys_of_pending {n : P2PNode} (h : n.Genuine l) {op : Nat} {g : Get}
    (hPending : n.pending op = some g) : n.myKeys = l.node.myKeys :=
  h.myKeys (h.running.symm.trans (of_pending hPending).1)

theorem Genuine.newPuts {n : P2PNode} (h : n.Genuine l) {e : Event}
    (hPermitted : e.Permitted l ids n) : ∀ q ∈ n.newPuts S e, q.MadeBy l := by
  intro q hq
  unfold P2PNode.newPuts at hq
  split at hq
  · rw [List.mem_singleton.mp hq]
    exact h.profilePut hPermitted.1 hPermitted.2
  · split at hq
    · rename_i hRefresh
      rw [List.mem_singleton.mp hq]
      exact h.profilePut hRefresh.1 (h.profile hRefresh.2)
    · cases hq
  · rename_i io
    split at hq
    · split at hq
      · cases hq
      · rename_i ciphertext hBox
        rw [List.mem_singleton.mp hq]
        refine ⟨by rw [messagePut, h.myId], io.draws, io.now, ciphertext, io.now_range, ?_, ?_⟩
        · rw [S.boxEasy_length hBox]
          exact Nat.le_add_right _ _
        · rw [h.myId]
          rfl
    · cases hq
  · cases hq

theorem Genuine.step {n : P2PNode} (h : n.Genuine l) {e : Event}
    (hPermitted : e.Permitted l ids n) : (n.step S e).Genuine l := by
  have hPuts : ∀ q ∈ (n.step S e).puts, q.MadeBy l := by
    intro q hq
    rw [step_puts, List.mem_append] at hq
    rcases hq with hOld | hNew
    · exact h.puts q hOld
    · exact h.newPuts S hPermitted q hNew
  have hProfile : (n.step S e).currentProfile.userId ≠ [] →
      (n.step S e).currentProfile.userId = l.userId := by
    rcases step_currentProfile S n e with hSame | ⟨profile, rfl, hNew⟩
    · rw [hSame]
      exact h.profile
    · rw [hNew]
      exact fun _ => hPermitted.2
  have hListens : ∀ name ∈ (n.step S e).dht.listenName, name = inboxName l.userId := by
    intro name hName
    rcases step_listenName S n e with hSame | hNone | ⟨io, -, hNew⟩
    · exact h.listens name (hSame ▸ hName)
    · rw [hNone] at hName
      cases hName
    · rw [hNew, h.myId] at hName
      exact (Option.some.inj hName).symm
  cases hKeeps : e.keeps with
  | true =>
    have hSame := step_sameSession S hKeeps (n := n)
    exact ⟨hSame.myId.trans h.myId, hSame.dhtRunning.trans (h.running.trans hSame.running.symm),
      fun hRunning => hSame.myKeys.trans (h.myKeys (hSame.running.symm.trans hRunning)),
      hProfile, hPuts, hListens⟩
  | false =>
    cases e with
    | setNodeConfig port id =>
      refine ⟨?_, h.running, h.myKeys, hProfile, hPuts, hListens⟩
      show (if id = [] then n.myId else trim isSpace id) = l.userId
      split
      · exact h.myId
      · rename_i hId
        exact hPermitted hId
    | startNode io =>
      cases hRunning : n.running with
      | true =>
        have hStep : n.step S (.startNode io) = n := startNode_of_running hRunning io
        rw [hStep]
        exact h
      | false =>
        have hStep : n.step S (.startNode io) = ((n.initNodeKeys io).cachePublicKey).runDht :=
          startNode_of_stopped hRunning io
        refine ⟨?_, ?_, ?_, hProfile, hPuts, hListens⟩
        · rw [hStep]
          exact h.myId
        · rw [hStep]
          rfl
        · rw [hStep]
          exact fun _ => hPermitted
    | stopNode =>
      cases hRunning : n.running with
      | true =>
        have hStep : n.step S .stopNode =
            ({ n with running := false, dht := {} } : P2PNode).notifyNetworkStatus
              (bytes "Node stopped") := stopNode_of_running hRunning
        refine ⟨?_, ?_, ?_, hProfile, hPuts, hListens⟩
        · rw [hStep]
          exact h.myId
        · rw [hStep]
          rfl
        · rw [hStep]
          intro hFalse
          cases hFalse
      | false =>
        have hStep : n.step S .stopNode = n := stopNode_of_stopped hRunning
        rw [hStep]
        exact h
    | _ => cases hKeeps

/-- The node of a peer that has not done anything yet. It may be running already. -/
structure Unused (l : Launch) (n : P2PNode) : Prop where
  genuine : n.Genuine l
  listening : n.dht.listenName.isSome → n.running = true
  profile : n.currentProfile.userId = []
  gets : n.dht.gets = []
  puts : n.puts = []
  reports : n.reports = []
  delivered : n.deliveredInboxKeys = []
  seen : ∀ senderId, n.crypto.seenMessageIds senderId = []

theorem unused_launch : l.node.Unused l where
  genuine := ⟨rfl, rfl, fun _ => rfl, fun h => absurd rfl h, fun _ h => (nomatch h),
    fun _ h => (Option.some.inj h).symm⟩
  listening := fun _ => rfl
  profile := rfl
  gets := rfl
  puts := rfl
  reports := rfl
  delivered := rfl
  seen _ := rfl

theorem Unused.deliveryInv {n : P2PNode} (h : n.Unused l) : n.DeliveryInv where
  nodup := by simp [h.reports]
  delivered := by simp [h.delivered, h.reports]
  reportSender := by simp [h.reports]
  lookupSender := by simp [h.gets]
  openLookup := by simp [h.gets]
  stopped := by
    intro hStopped
    refine ⟨?_, by simp [h.gets]⟩
    by_contra hListens
    rw [h.listening (Option.isSome_iff_ne_none.mpr hListens)] at hStopped
    cases hStopped

theorem Unused.namesIn {n : P2PNode} (h : n.Unused l) (hMem : l.userId ∈ ids) : n.NamesIn ids where
  profile hne := absurd h.profile hne
  puts := by simp [h.puts]
  gets := by simp [h.gets]
  listens name hName := ⟨l.userId, hMem, h.genuine.listens name hName⟩

end P2PNode

section Closed

variable {ι κ : Type} (peers : ι → Launch) (hash : Bytes → κ) (ids : Set Bytes)

/-- The DHT hands out only what some node put under the key that is asked for. -/
def Served (net : ι → P2PNode) (e : ι × Event) : Prop :=
  match e.2 with
  | .inbox values _ => ∀ value ∈ values, ∃ j, ∃ q ∈ (net j).puts,
      (net e.1).dht.listenName.map hash = some (hash q.name) ∧ q.payload = value.2
  | .lookup op values _ => ∀ g ∈ (net e.1).pending op, ∀ payload ∈ values, ∃ j,
      ∃ q ∈ (net j).puts, hash q.name = hash g.callback.userId ∧ q.payload = payload
  | _ => True

instance [Fintype ι] [DecidableEq κ] (net : ι → P2PNode) (e : ι × Event) :
    Decidable (Served hash net e) := by
  unfold Served
  split <;> infer_instance

/-- The ids that the peers listen for are usable and name one peer each. -/
structure UsableIds : Prop where
  injective : Function.Injective fun i => (peers i).userId
  ne_nil : ∀ i, (peers i).userId ≠ []
  sep : ∀ i, kDhtFieldSep ∉ (peers i).userId
  mem : ∀ i, (peers i).userId ∈ ids
  separate : SeparateIds ids

/-- What holds of all nodes of a closed network. -/
structure ClosedNet (net : ι → P2PNode) : Prop where
  genuine : ∀ i, (net i).Genuine (peers i)
  names : ∀ i, (net i).NamesIn ids

variable {peers hash ids} {net : ι → P2PNode}

/-- A packet in the puts of a node is one that it sealed. -/
theorem ClosedNet.sealedPacket (h : ClosedNet peers ids net) {i : ι} {packet : EncryptedPacket}
    (hPacket : packet ∈ (net i).puts.filterMap Put.packet) :
    ∃ (draws : Draws) (now : Int) (ciphertext : Bytes), InInt64 now ∧
      crypto_box_MACBYTES ≤ ciphertext.length ∧
      packet = CryptoService.sealedPacket (peers i).userId packet.receiverId draws now
        ciphertext := by
  obtain ⟨q, hq, hPacket⟩ := List.mem_filterMap.mp hPacket
  have hMade := (h.genuine i).puts q hq
  unfold Put.packet at hPacket
  unfold Put.MadeBy at hMade
  cases hOrigin : q.origin with
  | publishProfile profile =>
    rw [hOrigin] at hPacket
    cases hPacket
  | sendPacket packet' =>
    rw [hOrigin] at hPacket hMade
    obtain rfl := Option.some.inj hPacket
    exact hMade.2

/-- Every value that a lookup returns is a profile of the peer that is asked for. -/
theorem ClosedNet.served_profile (h : ClosedNet peers ids net) (hIds : UsableIds peers ids)
    (hHash : Function.Injective hash) {i : ι} {op : Nat} {values : List Bytes}
    {io : CallbackInput} (hServed : Served hash net (i, .lookup op values io)) {g : Get}
    (hPending : (net i).pending op = some g) {payload : Bytes} (hMem : payload ∈ values) :
    ∃ j, g.callback.userId = (peers j).userId ∧
      profileKey [payload] = some (peers j).publicKey := by
  obtain ⟨k, q, hq, hName, rfl⟩ := hServed g hPending payload hMem
  obtain ⟨profile, hOrigin, hProfile⟩ :=
    (keysSeparate_of_namesIn hHash hIds.separate h.names).profiles i op g hPending q ⟨k, hq, hName⟩
  have hMade := (h.genuine k).puts q hq
  simp only [Put.MadeBy, hOrigin] at hMade
  refine ⟨k, hProfile.symm.trans hMade.1, ?_⟩
  rw [hMade.2]
  exact profileKey_profilePayload profile (peers k).publicKey []

/-- A lookup of a peer returns the key of that peer, if it returns a key. -/
theorem ClosedNet.served_key (h : ClosedNet peers ids net) (hIds : UsableIds peers ids)
    (hHash : Function.Injective hash) {i : ι} {op : Nat} {values : List Bytes}
    {io : CallbackInput} (hServed : Served hash net (i, .lookup op values io)) {g : Get}
    (hPending : (net i).pending op = some g) {key : Bytes} (hKey : profileKey values = some key)
    {j : ι} (hUser : g.callback.userId = (peers j).userId) : key = (peers j).publicKey := by
  cases values with
  | nil => cases hKey
  | cons payload more =>
    obtain ⟨k, hAsked, hOwn⟩ := h.served_profile hIds hHash hServed hPending List.mem_cons_self
    obtain rfl : k = j := hIds.injective (hAsked.symm.trans hUser)
    exact Option.some.inj (hKey.symm.trans hOwn)

/-- A kept inbox value is a packet that the named sender put for this node. -/
theorem ClosedNet.served_value (h : ClosedNet peers ids net) (hIds : UsableIds peers ids)
    (hHash : Function.Injective hash) {i : ι} {values : List (Nat × Bytes)} {expired : Bool}
    (hServed : Served hash net (i, .inbox values expired)) {g : Get}
    (hg : g ∈ (net i).valueGets values) :
    ∃ j packet, g.callback = .onSenderProfileFound (peers j).userId packet ∧
      packet ∈ (net j).puts.filterMap Put.packet ∧ packet.receiverId = (peers i).userId := by
  obtain ⟨payload, senderId, packet, body, hValue, hGet, hParse, -, hBody, -⟩ :=
    P2PNode.mem_valueGets hg
  obtain ⟨j, q, hq, hMapped, hPayload⟩ := hServed _ hValue
  obtain ⟨name, hListens, hKey⟩ := Option.map_eq_some_iff.mp hMapped
  obtain ⟨sent, hOrigin, hInbox⟩ :=
    (keysSeparate_of_namesIn hHash hIds.separate h.names).inboxes i name hListens q
      ⟨j, hq, hKey.symm⟩
  have hReceiver : sent.receiverId = (peers i).userId :=
    List.append_cancel_right (hInbox.trans ((h.genuine i).listens name hListens))
  have hMade := (h.genuine j).puts q hq
  simp only [Put.MadeBy, hOrigin] at hMade
  obtain ⟨hText, draws, now, ciphertext, hNow, hLong, hSealed⟩ := hMade
  dsimp only at hPayload
  rw [← hPayload, hText,
    parseDhtMessagePayload_fullPayload (peers j).trim_userId (hIds.ne_nil j) (hIds.sep j)] at hParse
  obtain ⟨rfl, rfl⟩ := Prod.mk.inj (Option.some.inj hParse)
  rw [hSealed, P2PNode.parseSecureBody_sealedPacket _ _ draws now hNow hLong] at hBody
  -- every field is read back, and the node's own id is that of the receiver
  have hSame : packet = sent := by
    calc packet
        _ = CryptoService.sealedPacket (peers j).userId sent.receiverId draws now ciphertext := by
          rw [← Option.some.inj hBody, (h.genuine i).myId, hReceiver]
          rfl
        _ = sent := hSealed.symm
  refine ⟨j, sent, by rw [hGet, hSame], List.mem_filterMap.mpr ⟨q, hq, ?_⟩, hReceiver⟩
  rw [Put.packet, hOrigin]

theorem closedNet_unused (hIds : UsableIds peers ids) (hUnused : ∀ i, (net i).Unused (peers i)) :
    ClosedNet peers ids net where
  genuine i := (hUnused i).genuine
  names i := (hUnused i).namesIn (hIds.mem i)

variable [DecidableEq ι] (S : Sodium)

theorem ClosedNet.step (h : ClosedNet peers ids net) (hIds : UsableIds peers ids)
    (hHash : Function.Injective hash) {e : ι × Event}
    (hPermitted : e.2.Permitted (peers e.1) ids (net e.1)) (hServed : Served hash net e) :
    ClosedNet peers ids (netStep (P2PNode.step S) net e) := by
  obtain ⟨i, e⟩ := e
  have hUse : ∀ id ∈ e.ids (net i), id ∈ ids := by
    intro id hId
    cases e with
    | startNode io =>
      rw [List.mem_singleton.mp hId, (h.genuine i).myId]
      exact hIds.mem i
    | publishProfile profile =>
      have hOwn : profile.userId = (peers i).userId := hPermitted.2
      rw [List.mem_singleton.mp hId, hOwn]
      exact hIds.mem i
    | sendMessage op toPeerId text =>
      rw [List.mem_singleton.mp hId]
      exact hPermitted
    | findPeer op userId =>
      rw [List.mem_singleton.mp hId]
      exact hPermitted
    | inbox values expired =>
      obtain ⟨g, hg, rfl⟩ := List.mem_map.mp hId
      obtain ⟨j, packet, hCallback, -⟩ := h.served_value hIds hHash hServed hg
      rw [hCallback]
      exact hIds.mem j
    | _ => cases hId
  constructor
  · intro j
    by_cases hij : j = i
    · subst hij
      rw [netStep_self]
      exact (h.genuine j).step S hPermitted
    · rw [netStep_of_ne hij]
      exact h.genuine j
  · intro j
    by_cases hij : j = i
    · subst hij
      rw [netStep_self]
      exact (h.names j).step S hUse
    · rw [netStep_of_ne hij]
      exact h.names j

/-- The network after a run from these nodes. -/
def netFrom (start : ι → P2PNode) (es : List (ι × Event)) : ι → P2PNode :=
  run (netStep (P2PNode.step S)) start es

theorem netFrom_apply (start : ι → P2PNode) (es : List (ι × Event)) (i : ι) :
    netFrom S start es i = run (P2PNode.step S) (start i) (eventsAt i es) :=
  run_netStep_apply start es i

/-- The assumptions on a run of a closed network: fixed and distinct ids, the same keys at each
start, lookups and sends within a set of ids that share no DHT key, boxes that open, and a DHT
that hands out what the peers have put. -/
structure ClosedRun (peers : ι → Launch) (start : ι → P2PNode) (hash : Bytes → κ) (ids : Set Bytes)
    (es : List (ι × Event)) : Prop where
  usable : UsableIds peers ids
  injective : Function.Injective hash
  boxes : ∀ i j, S.RoundTrips (peers i).node.myKeys (peers j).node.myKeys
  unused : ∀ i, (start i).Unused (peers i)
  permitted : Along (netStep (P2PNode.step S))
    (fun net e => e.2.Permitted (peers e.1) ids (net e.1)) start es
  served : Along (netStep (P2PNode.step S)) (fun net e => Served hash net e) start es

variable {start : ι → P2PNode}

theorem ClosedRun.of_prefix {es fs : List (ι × Event)} (h : ClosedRun S peers start hash ids fs)
    (hPrefix : es <+: fs) : ClosedRun S peers start hash ids es :=
  { h with
    permitted := h.permitted.of_prefix hPrefix
    served := h.served.of_prefix hPrefix }

theorem ClosedRun.along {es : List (ι × Event)} (h : ClosedRun S peers start hash ids es) :
    Along (netStep (P2PNode.step S))
      (fun net e => e.2.Permitted (peers e.1) ids (net e.1) ∧ Served hash net e) start es :=
  along_and.mpr ⟨h.permitted, h.served⟩

theorem closedNet_run {es : List (ι × Event)} (h : ClosedRun S peers start hash ids es) :
    ClosedNet peers ids (netFrom S start es) :=
  run_invariant_along (I := ClosedNet peers ids)
    (fun _ _ hNet hNow => hNet.step S h.usable h.injective hNow.1 hNow.2)
    (closedNet_unused h.usable h.unused) (h.along S)

end Closed

end P2PMessenger
