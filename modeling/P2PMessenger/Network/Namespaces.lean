import P2PMessenger.Node.Effect
import P2PMessenger.Run.Network
import P2PMessenger.Controller.App
import Mathlib.Logic.Function.Basic
import Mathlib.Data.Set.Defs

/-!
# Profiles and inboxes in one key space

A profile is stored under the hash of an id and a message under the hash of an id followed
by `_inbox`; nothing in a value tells the two apart. The two kinds of names are disjoint on
a set of ids exactly if no id of the set is another one followed by `_inbox`, and on such a
set no run of nodes, in any order of calls and callbacks, mixes the two.
-/

namespace P2PMessenger

open Text Crypto Run

/-- The ids that an event brings into use: the id listened for, published, addressed, looked
up, or named as the sender of a kept inbox value. -/
def Event.ids (n : P2PNode) : Event → List Bytes
  | .startNode _ => [n.myId]
  | .publishProfile profile => [profile.userId]
  | .sendMessage _ toPeerId _ => [toPeerId]
  | .findPeer _ userId => [userId]
  | .inbox values _ => (n.valueGets values).map fun g => g.callback.userId
  | _ => []

/-- The name that a value was put under is the one its kind asks for. -/
def Put.NamedIn (ids : Set Bytes) (q : Put) : Prop :=
  match q.origin with
  | .publishProfile profile => q.name = profile.userId ∧ profile.userId ∈ ids
  | .sendPacket packet => q.name = inboxName packet.receiverId ∧ packet.receiverId ∈ ids

/-- No id is another one followed by `_inbox`. -/
def SeparateIds (ids : Set Bytes) : Prop := ∀ u ∈ ids, ∀ v ∈ ids, u ≠ inboxName v

namespace P2PNode

/-- Everything the node listens for, looks up and has put is named by ids of the set. -/
structure NamesIn (n : P2PNode) (ids : Set Bytes) : Prop where
  profile : n.currentProfile.userId ≠ [] → n.currentProfile.userId ∈ ids
  puts : ∀ q ∈ n.puts, q.NamedIn ids
  gets : ∀ g ∈ n.dht.gets, g.callback.userId ∈ ids
  listens : ∀ name ∈ n.dht.listenName, ∃ v ∈ ids, name = inboxName v

theorem namesIn_new (ids : Set Bytes) : ({} : P2PNode).NamesIn ids where
  profile := fun h => absurd rfl h
  puts := by simp
  gets := by simp
  listens := by simp

variable (S : Sodium) {ids : Set Bytes}

theorem newPuts_namedIn {n : P2PNode} (h : n.NamesIn ids) {e : Event}
    (hUse : ∀ id ∈ e.ids n, id ∈ ids) : ∀ q ∈ n.newPuts S e, q.NamedIn ids := by
  intro q hq
  cases e with
  | publishProfile profile =>
    obtain rfl := List.mem_singleton.mp hq
    exact ⟨rfl, hUse _ List.mem_cons_self⟩
  | refreshProfile =>
    simp only [newPuts] at hq
    split at hq
    · rename_i hRefresh
      obtain rfl := List.mem_singleton.mp hq
      exact ⟨rfl, h.profile hRefresh.2⟩
    · cases hq
  | lookup op values io =>
    simp only [newPuts] at hq
    split at hq
    · rename_i receiverId packet key hAction
      obtain ⟨hPending, -⟩ := pending_of_encrypt hAction
      have hReceiver : receiverId ∈ ids := h.gets _ (of_pending hPending).2.1
      split at hq
      · cases hq
      · obtain rfl := List.mem_singleton.mp hq
        exact ⟨rfl, hReceiver⟩
    · cases hq
  | _ => cases hq

/-- Only `publishProfile` changes the remembered profile; the refresh publishes the same one. -/
theorem step_currentProfile (n : P2PNode) (e : Event) :
    (n.step S e).currentProfile = n.currentProfile ∨ ∃ profile, e = .publishProfile profile ∧
      (n.step S e).currentProfile = profile := by
  obtain ⟨rest, hStep⟩ := step_effect S n e
  rw [hStep]
  show (n.effect S e).currentProfile = n.currentProfile ∨ ∃ profile, e = .publishProfile profile ∧
      (n.effect S e).currentProfile = profile
  cases e with
  | publishProfile profile => exact Or.inr ⟨profile, rfl, rfl⟩
  | lookup op values io =>
    refine Or.inl ?_
    simp only [effect, afterLookup]
    cases n.lookupAction op values with
    | ignore => rfl
    | giveUp => rfl
    | encrypt receiverId packet key => simp only [sendEncrypted_eq, raiseFlag]
    | decrypt senderId packet key =>
      simp only [decryptResult]
      split <;> rfl
  | _ =>
    refine Or.inl ?_
    simp only [effect]
    try split
    all_goals rfl

/-- Only `startNode` registers a listener, and only `stopNode` drops it. -/
theorem step_listenName (n : P2PNode) (e : Event) :
    (n.step S e).dht.listenName = n.dht.listenName ∨ (n.step S e).dht.listenName = none ∨
      ∃ io, e = .startNode io ∧ (n.step S e).dht.listenName = some (inboxName n.myId) := by
  cases hKeeps : e.keeps with
  | true => exact Or.inl (step_sameSession S hKeeps).listenName
  | false =>
    obtain ⟨rest, hStep⟩ := step_effect S n e
    have hName : (n.step S e).dht.listenName = (n.effect S e).dht.listenName := by rw [hStep]; rfl
    rw [hName]
    cases e with
    | setNodeConfig port id => exact Or.inl rfl
    | startNode io =>
      simp only [effect]
      split
      · exact Or.inl rfl
      · exact Or.inr (Or.inr ⟨io, rfl, rfl⟩)
    | stopNode =>
      simp only [effect]
      split
      · exact Or.inr (Or.inl rfl)
      · exact Or.inl rfl
    | _ => cases hKeeps

theorem NamesIn.step {n : P2PNode} (h : n.NamesIn ids) {e : Event}
    (hUse : ∀ id ∈ e.ids n, id ∈ ids) : (n.step S e).NamesIn ids where
  profile := by
    intro hne
    rcases step_currentProfile S n e with hSame | ⟨profile, rfl, hNew⟩
    · rw [hSame] at hne ⊢
      exact h.profile hne
    · rw [hNew]
      exact hUse _ List.mem_cons_self
  puts := by
    intro q hq
    rw [step_puts, List.mem_append] at hq
    rcases hq with hOld | hNew
    · exact h.puts q hOld
    · exact newPuts_namedIn S h hUse q hNew
  gets := by
    intro g hg
    rcases mem_step_gets S hg with ⟨flag, hOld⟩ | ⟨toPeerId, text, rfl, hCallback⟩ |
      ⟨userId, rfl, hCallback⟩ | ⟨values, rfl, hValue⟩
    · exact h.gets { g with flag := flag } hOld
    · rw [hCallback]
      exact hUse _ List.mem_cons_self
    · rw [hCallback]
      exact hUse _ List.mem_cons_self
    · exact hUse _ (List.mem_map_of_mem hValue)
  listens := by
    intro name hName
    rcases step_listenName S n e with hSame | hNone | ⟨io, rfl, hNew⟩
    · rw [hSame] at hName
      exact h.listens name hName
    · rw [hNone] at hName
      cases hName
    · rw [hNew] at hName
      obtain rfl := Option.some.inj hName
      exact ⟨n.myId, hUse _ List.mem_cons_self, rfl⟩

end P2PNode

section Store

variable {ι κ : Type} (hash : Bytes → κ)

/-- What the DHT can hand out under the key of a name: the values put under that key. -/
def stored (net : ι → P2PNode) (name : Bytes) : Set Put :=
  {q | ∃ i, q ∈ (net i).puts ∧ hash q.name = hash name}

/-- Under the key of a user that is looked up there are profiles of that user only, and under
the key that a node listens on there are packets only. -/
structure KeysSeparate (net : ι → P2PNode) : Prop where
  profiles : ∀ i op g, (net i).pending op = some g →
    ∀ q ∈ stored hash net g.callback.userId,
      ∃ profile, q.origin = .publishProfile profile ∧ profile.userId = g.callback.userId
  inboxes : ∀ i name, (net i).dht.listenName = some name →
    ∀ q ∈ stored hash net name,
      ∃ packet, q.origin = .sendPacket packet ∧ inboxName packet.receiverId = name

variable {hash}

theorem keysSeparate_of_namesIn (hHash : Function.Injective hash) {ids : Set Bytes}
    (hIds : SeparateIds ids) {net : ι → P2PNode} (h : ∀ i, (net i).NamesIn ids) :
    KeysSeparate hash net where
  profiles := by
    intro i op g hPending q hq
    obtain ⟨j, hPut, hKey⟩ := hq
    have hName : q.name = g.callback.userId := hHash hKey
    have hUser : g.callback.userId ∈ ids := (h i).gets g (P2PNode.of_pending hPending).2.1
    have hNamed : q.NamedIn ids := (h j).puts q hPut
    unfold Put.NamedIn at hNamed
    cases hOrigin : q.origin with
    | publishProfile profile =>
      rw [hOrigin] at hNamed
      exact ⟨profile, rfl, hNamed.1.symm.trans hName⟩
    | sendPacket packet =>
      rw [hOrigin] at hNamed
      exact absurd (hName.symm.trans hNamed.1) (hIds _ hUser _ hNamed.2)
  inboxes := by
    intro i name hListens q hq
    obtain ⟨j, hPut, hKey⟩ := hq
    have hName : q.name = name := hHash hKey
    obtain ⟨v, hOwner, hInbox⟩ := (h i).listens name hListens
    have hNamed : q.NamedIn ids := (h j).puts q hPut
    unfold Put.NamedIn at hNamed
    cases hOrigin : q.origin with
    | publishProfile profile =>
      rw [hOrigin] at hNamed
      have hSame : profile.userId = inboxName v := hNamed.1.symm.trans (hName.trans hInbox)
      exact absurd hSame (hIds _ hNamed.2 _ hOwner)
    | sendPacket packet =>
      rw [hOrigin] at hNamed
      exact ⟨packet, rfl, hNamed.1.symm.trans hName⟩

variable [DecidableEq ι] (S : Sodium)

/-- On separate ids the two kinds of keys stay apart in every run of new nodes. -/
theorem keysSeparate_run (hHash : Function.Injective hash) {ids : Set Bytes}
    (hIds : SeparateIds ids) {es : List (ι × Event)}
    (hUse : Along (netStep (P2PNode.step S)) (fun net e => ∀ id ∈ e.2.ids (net e.1), id ∈ ids)
      (fun _ => {}) es) :
    KeysSeparate hash (run (netStep (P2PNode.step S)) (fun _ : ι => {}) es) := by
  apply keysSeparate_of_namesIn hHash hIds
  intro i
  rw [run_netStep_apply]
  have hOwn : Along (P2PNode.step S) (fun n e => ∀ id ∈ e.ids n, id ∈ ids) {} (eventsAt i es) :=
    Along.eventsAt (P := fun _ n (e : Event) => ∀ id ∈ e.ids n, id ∈ ids) hUse i
  exact run_invariant_along (I := fun n : P2PNode => n.NamesIn ids)
    (fun _ _ h hStep => h.step S hStep) (P2PNode.namesIn_new ids) hOwn

end Store

/-! ## Configured ids -/

namespace AppController

/-- What `start` makes the node do. -/
def startEvents (a : AppController) (bootstrapHost bootstrapPort : Bytes) (io : StartInput) :
    List Event :=
  .startNode io :: .publishProfile a.ownProfile ::
    if Dials bootstrapPort then
      [.bootstrap bootstrapHost bootstrapPort, .publishProfile a.ownProfile]
    else []

section Start

variable (S : Sodium) {a : AppController} (hRunning : a.running = false)
  (bootstrapHost bootstrapPort : Bytes) (io : StartInput)

include hRunning

theorem start_node :
    (a.start bootstrapHost bootstrapPort io).node =
      run (P2PNode.step S) a.node (a.startEvents bootstrapHost bootstrapPort io) := by
  unfold start startEvents
  rw [hRunning]
  by_cases hDials : Dials bootstrapPort
  · simp only [hDials, if_true]
    rfl
  · simp only [hDials, if_false]
    rfl

/-- All publishes of `start` go to the controller's id, and the first one always happens. -/
theorem start_puts :
    ∃ q more, (a.start bootstrapHost bootstrapPort io).node.puts = a.node.puts ++ q :: more ∧
      ∀ p ∈ q :: more, p.name = a.peerId := by
  rw [start_node Sodium.additive hRunning, startEvents]
  by_cases hDials : Dials bootstrapPort
  · simp only [hDials, if_true, run_cons, run_nil, P2PNode.step_puts, P2PNode.newPuts,
      List.append_nil, List.append_assoc, List.singleton_append]
    refine ⟨_, _, rfl, ?_⟩
    simp [P2PNode.profilePut, ownProfile]
  · simp only [hDials, if_false, run_cons, run_nil, P2PNode.step_puts, P2PNode.newPuts,
      List.append_nil]
    refine ⟨_, _, rfl, ?_⟩
    simp [P2PNode.profilePut, ownProfile]

theorem start_listenName (hNode : a.node.running = false) :
    (a.start bootstrapHost bootstrapPort io).node.dht.listenName =
      some (inboxName a.node.myId) := by
  have hStart : (a.node.step Sodium.additive (.startNode io)).dht.listenName =
      some (inboxName a.node.myId) := by
    obtain ⟨rest, hStep⟩ := P2PNode.step_effect Sodium.additive a.node (.startNode io)
    rw [hStep]
    simp only [P2PNode.effect, hNode]
    rfl
  rw [start_node Sodium.additive hRunning, startEvents, run_cons, ← hStart]
  -- what follows the start keeps the registration
  refine (P2PNode.run_sameSession Sodium.additive ?_).listenName
  by_cases hDials : Dials bootstrapPort
  · rw [if_pos hDials]
    exact ⟨rfl, rfl, rfl, trivial⟩
  · rw [if_neg hDials]
    exact ⟨rfl, trivial⟩

end Start

/-- A controller that was given an id and started. -/
def started (peerId : Bytes) (port : Nat) (bootstrapHost bootstrapPort : Bytes)
    (io : StartInput) : AppController :=
  (({} : AppController).configure peerId port).start bootstrapHost bootstrapPort io

variable (peerId : Bytes) (port : Nat) (bootstrapHost bootstrapPort : Bytes) (io : StartInput)

theorem started_puts :
    ∃ q more, (started peerId port bootstrapHost bootstrapPort io).node.puts = q :: more ∧
      ∀ p ∈ q :: more, p.name = configuredId peerId :=
  start_puts (a := ({} : AppController).configure peerId port) rfl bootstrapHost bootstrapPort io

/-- The inbox of a configured id is that of the trimmed id. -/
theorem started_listenName :
    (started peerId port bootstrapHost bootstrapPort io).node.dht.listenName =
      some (inboxName (trim isSpace (configuredId peerId))) := by
  have hMyId : (({} : AppController).configure peerId port).node.myId =
      trim isSpace (configuredId peerId) := by
    simp [configure, P2PNode.setNodeConfig, configuredId_ne_nil]
  rw [← hMyId]
  exact start_listenName rfl bootstrapHost bootstrapPort io rfl

end AppController

open AppController in
/-- The keys of the profiles of `u` and of the inbox of `v` differ if and only if `u` is not
the trimmed `v` followed by `_inbox`; and on ids of which none is another one followed by
`_inbox`, every run keeps profiles and messages under different keys. -/
theorem keys_differ_iff {ι κ : Type} [DecidableEq ι] (S : Sodium) (hash : Bytes → κ)
    (hHash : Function.Injective hash) :
    (∀ u v port₁ host₁ bootstrapPort₁ io₁ port₂ host₂ bootstrapPort₂ io₂,
      (∀ q ∈ (started u port₁ host₁ bootstrapPort₁ io₁).node.puts,
        ∀ name ∈ (started v port₂ host₂ bootstrapPort₂ io₂).node.dht.listenName,
          hash q.name ≠ hash name) ↔
        configuredId u ≠ inboxName (trim isSpace (configuredId v))) ∧
    ∀ (ids : Set Bytes) (es : List (ι × Event)), SeparateIds ids →
      Along (netStep (P2PNode.step S)) (fun net e => ∀ id ∈ e.2.ids (net e.1), id ∈ ids)
        (fun _ => {}) es →
      KeysSeparate hash (run (netStep (P2PNode.step S)) (fun _ : ι => {}) es) := by
  constructor
  · intro u v port₁ host₁ bootstrapPort₁ io₁ port₂ host₂ bootstrapPort₂ io₂
    obtain ⟨q, more, hPuts, hNames⟩ := started_puts u port₁ host₁ bootstrapPort₁ io₁
    rw [hPuts, started_listenName]
    constructor
    · intro hKeys hSame
      apply hKeys q List.mem_cons_self _ rfl
      rw [hNames q List.mem_cons_self, hSame]
    · intro hne p hp name hName hKey
      obtain rfl := Option.some.inj hName
      have hSame : p.name = inboxName (trim isSpace (configuredId v)) := hHash hKey
      exact hne ((hNames p hp).symm.trans hSame)
  · intro ids es hIds hUse
    exact keysSeparate_run S hHash hIds hUse

/-- Alice publishes her profile, and Bob listens and writes to her. -/
def aliceAndBob : List (Bool × Event) :=
  [(false, .setNodeConfig 4222 (bytes "alice")), (false, .startNode { generated := .constant 7 }),
    (false, .publishProfile { userId := bytes "alice" }),
    (true, .setNodeConfig 4223 (bytes "bob")), (true, .startNode { generated := .constant 40 }),
    (true, .sendMessage 0 (bytes "alice") (bytes "hello")),
    (true, .lookup 0 [profilePayload {} (GeneratedKeys.constant 7).keys.publicKey]
      { now := 43200, draws := .constant 5 9 })]

open AppController in
theorem alice_and_bob_keys_differ :
    (∀ q ∈ (started (bytes "alice") 4222 [] [] { generated := .constant 7 }).node.puts,
      ∀ name ∈ (started (bytes "bob") 4223 [] [] { generated := .constant 40 }).node.dht.listenName,
        q.name ≠ name) ∧
      KeysSeparate (fun name : Bytes => name)
        (run (netStep (P2PNode.step Sodium.additive)) (fun _ : Bool => {}) aliceAndBob) := by
  have hIds : SeparateIds {id | id ∈ [bytes "alice", bytes "bob"]} := by
    have hList : ∀ u ∈ [bytes "alice", bytes "bob"], ∀ v ∈ [bytes "alice", bytes "bob"],
        u ≠ inboxName v := by decide +kernel
    exact hList
  have hUse : Along (netStep (P2PNode.step Sodium.additive))
      (fun net e => ∀ id ∈ e.2.ids (net e.1), id ∈ {id | id ∈ [bytes "alice", bytes "bob"]})
      (fun _ : Bool => {}) aliceAndBob := by decide +kernel
  have hIff := keys_differ_iff (ι := Bool) Sodium.additive (fun name : Bytes => name)
    Function.injective_id
  exact ⟨(hIff.1 _ _ _ _ _ _ _ _ _ _).mpr (by decide +kernel), hIff.2 _ _ hIds hUse⟩

open AppController in
/-- The profile of a user called `bob_inbox` is put where Bob listens. -/
theorem bob_inbox_profile_in_inbox_of_bob :
    ∃ q ∈ (started (bytes "bob_inbox") 4222 [] [] { generated := .constant 7 }).node.puts,
      some q.name =
        (started (bytes "bob") 4223 [] [] { generated := .constant 40 }).node.dht.listenName := by
  decide +kernel

end P2PMessenger
