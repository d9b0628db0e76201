import P2PMessenger.Node.Notices
import P2PMessenger.Run.Simulation
import Mathlib.Algebra.Order.Group.Multiset
import Mathlib.Data.Multiset.Filter

/-!
# Every lookup is accounted for

A message is sent, and a received one delivered, in the callback of a lookup. Each lookup
that was started is still open, was answered once, or was dropped by a stop of the node; an
answered one ends in a value for the receiver, a report or an error for the user, and the
cases that end in silence are known.
-/

namespace P2PMessenger

open Text Crypto Run

/-- The callback stands behind a flag, so only its first call does anything. -/
def Callback.once : Callback → Bool
  | .findPeer _ => false
  | _ => true

/-- The lookups that an event names. -/
def Event.ops : Event → List Nat
  | .sendMessage op _ _ => [op]
  | .findPeer op _ => [op]
  | .inbox values _ => values.map Prod.fst
  | _ => []

/-- A list whose keys are all different has one element with a given key. -/
theorem filter_key_eq {α β : Type} [DecidableEq β] {key : α → β} {l : List α}
    (h : (l.map key).Nodup) {x : α} (hx : x ∈ l) : l.filter (fun y => key y = key x) = [x] := by
  induction l with
  | nil => cases hx
  | cons y rest ih =>
    rw [List.map_cons, List.nodup_cons] at h
    rcases List.mem_cons.mp hx with rfl | hRest
    · have hNone : rest.filter (fun y => key y = key x) = [] := by
        rw [List.filter_eq_nil_iff]
        intro z hz hKey
        exact h.1 (of_decide_eq_true hKey ▸ List.mem_map_of_mem hz)
      simp [hNone]
    · have hne : key y ≠ key x := fun hKey => h.1 (hKey ▸ List.mem_map_of_mem hRest)
      simp [hne, ih h.2 hRest]

namespace P2PNode

/-! ## What enters and leaves -/

/-- The lookups that wait for their answer. -/
def openLookups (n : P2PNode) : List Get := n.dht.gets.filter fun g => g.callback.once && !g.flag

/-- The lookups of sends and deliveries that an event starts. -/
def startedLookups (n : P2PNode) : Event → List Get
  | .sendMessage op toPeerId text =>
    if n.myId = [] then []
    else [⟨op, .onProfileFound toPeerId
      { senderId := n.myId, receiverId := toPeerId, ciphertext := text }, false⟩]
  | .inbox values expired =>
    if n.dht.listenName.isSome ∧ expired = false then n.valueGets values else []
  | _ => []

/-- The lookups that a stop of the node drops. -/
def droppedLookups (n : P2PNode) : Event → List Get
  | .stopNode => if n.running then n.openLookups else []
  | _ => []

variable (S : Sodium)

/-- The lookups that an event answers, with their outcomes. -/
def outcomes (n : P2PNode) (e : Event) : List (Get × Outcome) := (n.completion S e).toList

def answeredLookups (n : P2PNode) (e : Event) : List Get := (n.outcomes S e).map Prod.fst

/-! ## One step -/

theorem openLookups_raiseFlag (n : P2PNode) (op : Nat) :
    (n.raiseFlag op).openLookups = n.openLookups.filter fun g => g.op ≠ op := by
  unfold openLookups raiseFlag
  dsimp only
  induction n.dht.gets with
  | nil => rfl
  | cons g rest ih =>
    by_cases hOp : g.op = op
    · simp [hOp, ih]
    · cases hOpen : g.callback.once && !g.flag <;> simp [hOp, ih, hOpen]

/-- The flag is raised exactly if the answer completes a lookup. -/
theorem gets_afterLookup (n : P2PNode) (op : Nat) (values : List Bytes) (io : CallbackInput) :
    (n.afterLookup S op values io).dht.gets =
      match n.completion S (.lookup op values io) with
      | none => n.dht.gets
      | some _ => (n.raiseFlag op).dht.gets := by
  have hEncrypt (receiverId key : Bytes) (packet : EncryptedPacket) :
      ((n.raiseFlag op).sendEncrypted S receiverId packet key io).2.dht.gets =
        (n.raiseFlag op).dht.gets := by rw [sendEncrypted_eq]
  have hDecrypt (senderId key : Bytes) (packet : EncryptedPacket) :
      ((n.raiseFlag op).decryptResult S senderId packet key io).dht.gets =
        (n.raiseFlag op).dht.gets := by
    unfold decryptResult
    split <;> rfl
  unfold afterLookup lookupAction completion
  dsimp only
  cases n.pending op with
  | none => rfl
  | some g =>
    obtain ⟨op', callback, flag⟩ := g
    cases callback with
    | findPeer userId => rfl
    | onProfileFound receiverId packet =>
      cases flag with
      | true => rfl
      | false =>
        cases profileKey values with
        | none => rfl
        | some key => exact hEncrypt receiverId key packet
    | onSenderProfileFound senderId packet =>
      cases flag with
      | true => rfl
      | false =>
        cases profileKey values with
        | none => rfl
        | some key => exact hDecrypt senderId key packet

theorem openLookups_step (n : P2PNode) (e : Event) :
    (n.step S e).openLookups = (n.effect S e).openLookups := by
  obtain ⟨rest, hStep⟩ := step_effect S n e
  rw [hStep]
  rfl

theorem filter_valueGets (n : P2PNode) (values : List (Nat × Bytes)) :
    (n.valueGets values).filter (fun g => g.callback.once && !g.flag) = n.valueGets values := by
  apply List.filter_eq_self.mpr
  intro g hg
  obtain ⟨_, _, _, _, -, hGet, -⟩ := mem_valueGets hg
  rw [hGet]
  rfl

/-- An event that is no answer and no stop only adds what it starts. -/
theorem openLookups_of_not_answer {n : P2PNode} {e : Event} (hAnswer : n.completion S e = none)
    (hDropped : n.droppedLookups e = []) :
    (n.step S e).openLookups = n.startedLookups e ++ n.openLookups := by
  rw [openLookups_step]
  cases e with
  | startNode io =>
    simp only [effect]
    split <;> rfl
  | stopNode =>
    simp only [droppedLookups, effect, startedLookups] at hDropped ⊢
    split
    · rename_i hRunning
      rw [if_pos hRunning] at hDropped
      rw [hDropped]
      rfl
    · rfl
  | sendMessage op toPeerId text =>
    simp only [effect, startedLookups]
    split <;> rfl
  | inbox values expired =>
    simp only [effect, startedLookups]
    split
    · simp [openLookups, filter_valueGets]
    · rfl
  | lookup op values io =>
    show ((n.afterLookup S op values io).dht.gets.filter _) = _
    rw [gets_afterLookup, hAnswer]
    rfl
  | _ => rfl

theorem mem_openLookups_of_completion {n : P2PNode} {e : Event} {g : Get} {o : Outcome}
    (h : n.completion S e = some (g, o)) :
    g ∈ n.openLookups ∧ (n.step S e).openLookups = n.openLookups.filter fun g' => g'.op ≠ g.op := by
  obtain ⟨values, io, rfl, hPending, hFlag, hCallback⟩ := completion_eq_some S h
  constructor
  · apply List.mem_filter.mpr
    refine ⟨(of_pending hPending).2.1, ?_⟩
    rcases hCallback with ⟨_, _, hCallback, -⟩ | ⟨_, _, hCallback, -⟩
    · rw [hCallback, hFlag]
      rfl
    · rw [hCallback, hFlag]
      rfl
  · rw [← openLookups_raiseFlag, openLookups_step]
    show ((n.afterLookup S g.op values io).dht.gets.filter _) = _
    rw [gets_afterLookup, h]
    rfl

/-- What is dropped is what was open, so a step without an answer balances. -/
theorem step_lookups_of_not_answer {n : P2PNode} {e : Event} (hAnswer : n.completion S e = none) :
    ((n.step S e).openLookups : Multiset Get) + (n.droppedLookups e : Multiset Get) =
      (n.openLookups : Multiset Get) + (n.startedLookups e : Multiset Get) := by
  by_cases hDropped : n.droppedLookups e = []
  · rw [openLookups_of_not_answer S hAnswer hDropped, hDropped, ← Multiset.coe_add,
      add_comm (n.startedLookups e : Multiset Get)]
    exact add_zero _
  · cases e with
    | stopNode =>
      have hRunning : n.running = true := by
        by_contra hStopped
        exact hDropped (if_neg hStopped)
      rw [openLookups_step]
      simp [effect, droppedLookups, startedLookups, hRunning, openLookups]
    | _ => exact absurd rfl hDropped

theorem flows_of_completion {n : P2PNode} {e : Event} {c : Get × Outcome}
    (h : n.completion S e = some c) : n.startedLookups e = [] ∧ n.droppedLookups e = [] := by
  obtain ⟨values, io, rfl, -⟩ := completion_eq_some S h
  exact ⟨rfl, rfl⟩

/-- No step answers or keeps a lookup that it did not have or start. -/
theorem step_lookups_le (n : P2PNode) (e : Event) :
    ((n.step S e).openLookups : Multiset Get) +
        ((n.answeredLookups S e : Multiset Get) + (n.droppedLookups e : Multiset Get)) ≤
      (n.openLookups : Multiset Get) + (n.startedLookups e : Multiset Get) := by
  unfold answeredLookups outcomes
  cases hAnswer : n.completion S e with
  | none => simpa using (step_lookups_of_not_answer S hAnswer).le
  | some c =>
    obtain ⟨g, o⟩ := c
    obtain ⟨hStarted, hDropped⟩ := flows_of_completion S hAnswer
    obtain ⟨hOpen, hStep⟩ := mem_openLookups_of_completion S hAnswer
    rw [hStarted, hDropped, hStep]
    -- the answered lookup has the name that is filtered out
    have hOne : ({g} : Multiset Get) ≤ Multiset.filter (fun g' => g'.op = g.op) ↑n.openLookups :=
      Multiset.singleton_le.mpr (Multiset.mem_filter.mpr ⟨hOpen, rfl⟩)
    calc (↑(n.openLookups.filter fun g' => g'.op ≠ g.op) : Multiset Get) + ({g} + 0)
        _ = {g} + Multiset.filter (fun g' => ¬ g'.op = g.op) ↑n.openLookups := by
          rw [add_zero, add_comm]
          simp
        _ ≤ Multiset.filter (fun g' => g'.op = g.op) ↑n.openLookups +
            Multiset.filter (fun g' => ¬ g'.op = g.op) ↑n.openLookups := add_le_add_left hOne _
        _ = ↑n.openLookups + 0 := by rw [Multiset.filter_add_not, add_zero]

/-- With one lookup for each name, a step balances. -/
theorem step_lookups_eq {n : P2PNode} (hNames : (n.dht.gets.map Get.op).Nodup) (e : Event) :
    ((n.step S e).openLookups : Multiset Get) +
        ((n.answeredLookups S e : Multiset Get) + (n.droppedLookups e : Multiset Get)) =
      (n.openLookups : Multiset Get) + (n.startedLookups e : Multiset Get) := by
  unfold answeredLookups outcomes
  cases hAnswer : n.completion S e with
  | none => simpa using step_lookups_of_not_answer S hAnswer
  | some c =>
    obtain ⟨g, o⟩ := c
    obtain ⟨hStarted, hDropped⟩ := flows_of_completion S hAnswer
    obtain ⟨hOpen, hStep⟩ := mem_openLookups_of_completion S hAnswer
    have hOpenNames : (n.openLookups.map Get.op).Nodup :=
      hNames.sublist (List.filter_sublist.map Get.op)
    have hOne : n.openLookups.filter (fun g' => g'.op = g.op) = [g] :=
      filter_key_eq hOpenNames hOpen
    rw [hStarted, hDropped, hStep]
    calc (↑(n.openLookups.filter fun g' => g'.op ≠ g.op) : Multiset Get) + ({g} + 0)
        _ = ↑(n.openLookups.filter fun g' => g'.op = g.op) +
            Multiset.filter (fun g' => ¬ g'.op = g.op) ↑n.openLookups := by
          rw [add_zero, add_comm, hOne]
          simp
        _ = ↑n.openLookups + 0 := by
          rw [← Multiset.filter_coe, Multiset.filter_add_not, add_zero]

/-! ## Runs -/

/-- The event names its lookups by new and different names. -/
def Fresh (n : P2PNode) (e : Event) : Prop := (e.ops ++ n.dht.gets.map Get.op).Nodup

instance (n : P2PNode) (e : Event) : Decidable (n.Fresh e) :=
  inferInstanceAs (Decidable (List.Nodup _))

theorem ops_valueGets_sublist (n : P2PNode) (values : List (Nat × Bytes)) :
    ((n.valueGets values).map Get.op).Sublist (values.map Prod.fst).reverse := by
  unfold valueGets
  rw [List.map_reverse, List.reverse_sublist]
  induction values with
  | nil => exact List.Sublist.refl _
  | cons value rest ih =>
    cases hLookup : n.valueLookup value.2 with
    | none => simpa [hLookup] using ih.cons value.1
    | some parts => simpa [hLookup] using ih.cons_cons value.1

theorem ops_raiseFlag (n : P2PNode) (op : Nat) :
    (n.raiseFlag op).dht.gets.map Get.op = n.dht.gets.map Get.op := by
  unfold raiseFlag
  rw [List.map_map]
  apply List.map_congr_left
  intro g _
  simp only [Function.comp]
  split <;> rfl

/-- The names of the lookups after a step are those before it and some that the event gave. -/
theorem ops_step_le (n : P2PNode) (e : Event) :
    ((n.step S e).dht.gets.map Get.op : Multiset Nat) ≤ ↑(e.ops ++ n.dht.gets.map Get.op) := by
  obtain ⟨rest, hStep⟩ := step_effect S n e
  rw [hStep]
  show ((n.effect S e).dht.gets.map Get.op : Multiset Nat) ≤ _
  have hOld : (n.dht.gets.map Get.op : Multiset Nat) ≤ ↑(e.ops ++ n.dht.gets.map Get.op) :=
    Multiset.coe_le.mpr (List.sublist_append_right _ _).subperm
  cases e with
  | startNode io =>
    simp only [effect]
    split <;> exact hOld
  | stopNode =>
    simp only [effect]
    split
    · exact Multiset.zero_le _
    · exact hOld
  | sendMessage op toPeerId text =>
    simp only [effect]
    split
    · exact hOld
    · exact le_refl _
  | inbox values expired =>
    simp only [effect]
    split
    · have hNew : ((n.valueGets values).map Get.op : Multiset Nat) ≤ ↑(values.map Prod.fst) := by
        rw [← Multiset.coe_reverse (values.map Prod.fst)]
        exact Multiset.coe_le.mpr (ops_valueGets_sublist n values).subperm
      rw [List.map_append, ← Multiset.coe_add]
      exact add_le_add_left hNew _
    · exact hOld
  | lookup op values io =>
    rcases afterLookup_dht S n op values io with hDht | hDht
    · simp only [effect, hDht]
      exact le_refl _
    · simp only [effect, hDht, ops_raiseFlag]
      exact le_refl _
  | findPeer op userId => exact le_refl _
  | _ => exact hOld

theorem nodup_ops_step {n : P2PNode} {e : Event} (hFresh : n.Fresh e) :
    ((n.step S e).dht.gets.map Get.op).Nodup :=
  Multiset.coe_nodup.mp (Multiset.nodup_of_le (ops_step_le S n e) (Multiset.coe_nodup.mpr hFresh))

/-- Along a run, what was started is open, answered or dropped. -/
theorem lookups_balance {es : List Event} (hFresh : Along (step S) Fresh {} es) :
    ((run (step S) {} es).openLookups : Multiset Get) +
        ((added (step S) (answeredLookups S) {} es : Multiset Get) +
          (added (step S) droppedLookups {} es : Multiset Get)) =
      (added (step S) startedLookups {} es : Multiset Get) := by
  have hBalance := balance_run (fun n : P2PNode => (n.openLookups : Multiset Get))
    (fun n e => (n.startedLookups e : Multiset Get))
    (fun n e => (n.answeredLookups S e : Multiset Get) + (n.droppedLookups e : Multiset Get))
    (I := fun n : P2PNode => (n.dht.gets.map Get.op).Nodup) (P := Fresh)
    (fun _ _ _ hNow => nodup_ops_step S hNow) (fun _ e hNames _ => step_lookups_eq S hNames e)
    (s := {}) List.nodup_nil hFresh
  rw [total_add, total_coe, total_coe, total_coe] at hBalance
  rw [hBalance]
  exact zero_add _

/-! ## The outcomes of a run -/

/-- What each step takes from its outcome, a run takes from its outcomes. -/
theorem added_outcomes {α : Type} {new : P2PNode → Event → List α} {part : Outcome → Option α}
    (h : ∀ n e, new n e = ((n.completion S e).bind fun c => part c.2).toList) (n : P2PNode)
    (es : List Event) :
    added (step S) new n es = (added (step S) (outcomes S) n es).filterMap fun c => part c.2 := by
  apply added_filterMap
  intro n e
  rw [h, outcomes]
  cases n.completion S e with
  | none => rfl
  | some c => cases hPart : part c.2 <;> simp [hPart]

theorem packets_run (n : P2PNode) (es : List Event) :
    (run (step S) n es).puts.filterMap Put.packet =
      n.puts.filterMap Put.packet ++
        (added (step S) (outcomes S) n es).filterMap fun c => c.2.packet := by
  rw [history_run (step_puts S), List.filterMap_append, ← added_outcomes S (newPackets_eq S)]
  congr 1
  exact (added_filterMap (fun _ _ => rfl) n es).symm

theorem reports_run (es : List Event) :
    (run (step S) {} es).reports =
      (added (step S) (outcomes S) {} es).filterMap fun c => c.2.report := by
  rw [history_run (step_reports S), ← added_outcomes S (newReports_eq S)]
  rfl

/-- Every notice of an outcome is queued for the window, in order. -/
theorem notices_sublist_newUi (n : P2PNode) (e : Event) :
    ((n.completion S e).bind fun c => c.2.notice).toList.Sublist (n.newUi S e) := by
  cases e with
  | lookup op values io =>
    simp only [newUi]
    split
    · rename_i op' userId flag hPending
      have hNone : n.completion S (.lookup op values io) = none := by
        simp [completion, hPending]
      rw [hNone]
      exact List.nil_sublist _
    · exact List.Sublist.refl _
  | _ => exact List.nil_sublist _

theorem notices_run (es : List Event) :
    ((added (step S) (outcomes S) {} es).filterMap fun c => c.2.notice).Sublist
      (run (step S) {} es).ui := by
  rw [history_run (step_ui S), ← added_outcomes S (fun _ _ => rfl)]
  apply added_sublist
  exact notices_sublist_newUi S

/-- What the outcome of a lookup says that was answered in this state. A send leads to a value
or to an error; of a received packet the user is not told exactly if its sender's profile has
no pipe, or has a key of the right length and the validation rejects the packet. -/
def Explains (n : P2PNode) (values : List Bytes) (io : CallbackInput) : Get × Outcome → Prop
  | (⟨_, .onProfileFound receiverId _, _⟩, o) =>
    (∃ ciphertext,
      o = .put (CryptoService.sealedPacket n.myId receiverId io.draws io.now ciphertext)) ∨
      ∃ code message, o = .failed code message
  | (⟨_, .onSenderProfileFound senderId packet, _⟩, o) =>
    o.packet = none ∧ (o.notice = none ↔ profileAnswer values = .malformed ∨
      ∃ publicKey, profileAnswer values = .key publicKey ∧
        publicKey.length = crypto_box_PUBLICKEYBYTES ∧
        ¬ n.crypto.Reaches (n.inbound senderId packet) publicKey n.myId io.now)
  | (⟨_, .findPeer _, _⟩, _) => False

/-- The books of a run of a new node: nothing that was started is lost, and everything that
was put or reported is the outcome of one lookup. -/
structure Accounted (es : List Event) : Prop where
  balance : (added (step S) startedLookups {} es : Multiset Get) =
    ↑(run (step S) {} es).openLookups +
      ((added (step S) (outcomes S) {} es).map Prod.fst + ↑(added (step S) droppedLookups {} es))
  packets : (run (step S) {} es).puts.filterMap Put.packet =
    (added (step S) (outcomes S) {} es).filterMap fun c => c.2.packet
  reports : (run (step S) {} es).reports =
    (added (step S) (outcomes S) {} es).filterMap fun c => c.2.report
  notices : ((added (step S) (outcomes S) {} es).filterMap fun c => c.2.notice).Sublist
    (run (step S) {} es).ui
  explained : ∀ c ∈ added (step S) (outcomes S) {} es, ∃ pre values io post,
    es = pre ++ .lookup c.1.op values io :: post ∧ c.1 ∈ (run (step S) {} pre).openLookups ∧
      (run (step S) {} pre).Explains values io c

theorem explains_of_completion {n : P2PNode} {e : Event} {c : Get × Outcome}
    (h : n.completion S e = some c) :
    ∃ values io, e = .lookup c.1.op values io ∧ c.1 ∈ n.openLookups ∧ n.Explains values io c := by
  obtain ⟨⟨op, callback, flag⟩, o⟩ := c
  have hOpen := (mem_openLookups_of_completion S h).1
  obtain ⟨values, io, rfl, -, -, hKind⟩ := completion_eq_some S h
  refine ⟨values, io, rfl, hOpen, ?_⟩
  rcases hKind with ⟨receiverId, packet, rfl, rfl⟩ | ⟨senderId, packet, rfl, rfl⟩
  · exact sendOutcome_cases S n receiverId packet values io
  · exact ⟨deliveryOutcome_ne_put S n senderId packet values io,
      deliveryOutcome_notice_eq_none_iff S⟩

theorem added_answeredLookups (n : P2PNode) (es : List Event) :
    added (step S) (answeredLookups S) n es =
      (added (step S) (outcomes S) n es).map Prod.fst := by
  rw [← List.filterMap_eq_map]
  apply added_filterMap
  intro n e
  rw [List.filterMap_eq_map]
  rfl

/-- In a run that names its lookups apart, every send and every kept packet is still waiting,
was dropped by a stop of the node, or was answered exactly once, with an outcome that the
user or the receiver sees or whose silence is explained. -/
theorem lookups_accounted {es : List Event} (hFresh : Along (step S) Fresh {} es) :
    Accounted S es where
  balance := by
    rw [← added_answeredLookups]
    exact (lookups_balance S hFresh).symm
  packets := packets_run S {} es
  reports := reports_run S es
  notices := notices_run S es
  explained := by
    intro c hc
    obtain ⟨pre, e, post, rfl, hNew⟩ := mem_added hc
    obtain ⟨values, io, rfl, hOpen, hExplains⟩ :=
      explains_of_completion S (Option.mem_toList.mp hNew)
    exact ⟨pre, values, io, post, rfl, hOpen, hExplains⟩

/-- Alice sends twice and receives one message; one of her sends is open when she stops. -/
def aliceSession : List Event :=
  let io : CallbackInput := { now := 36000, draws := .constant 5 9 }
  let alice := (GeneratedKeys.constant 7).keys
  let bob := (GeneratedKeys.constant 40).keys
  let sent := CryptoService.sealedPacket (bytes "bob") (bytes "alice") io.draws io.now
    (Sodium.additiveTag io.draws.nonce alice.publicKey bob.privateKey ++ bytes "hello")
  [.setNodeConfig 4222 (bytes "alice"), .startNode { generated := .constant 7 },
    .sendMessage 0 (bytes "bob") (bytes "hi"), .lookup 0 [profilePayload {} bob.publicKey] io,
    .inbox [(1, fullPayload (bytes "bob") sent)] false,
    .sendMessage 2 (bytes "carol") (bytes "hi"), .lookup 1 [profilePayload {} bob.publicKey] io,
    .stopNode]

theorem aliceSession_accounted :
    Accounted .additive aliceSession ∧
      (added (step .additive) (outcomes .additive) {} aliceSession).map (fun c => c.1.op) = [0, 1] ∧
      (run (step .additive) {} aliceSession).reports.map Report.text = [bytes "hello"] ∧
      (added (step .additive) droppedLookups {} aliceSession).map Get.op = [2] :=
  ⟨lookups_accounted .additive (by decide +kernel), by decide +kernel, by decide +kernel,
    by decide +kernel⟩

end P2PNode

end P2PMessenger
