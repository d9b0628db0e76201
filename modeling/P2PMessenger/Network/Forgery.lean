import P2PMessenger.Network.Peers

/-!
# Two runs, one with forged values

The second run receives, besides the values of the first, inbox values that do not open.
The tokens of lookups tell the two kinds apart: `keep` holds for the common ones. The runs
stay in step except for the replay state, into which a forged value is recorded before its
tag is checked. So the second run loses a message exactly where a genuine value comes to
`decrypt` under a pair that a forged one has used up, and there only.
-/

namespace P2PMessenger

open Text Crypto Run

/-- An event both runs have in common, batches of inbox values aside. -/
def Event.Common (keep : Nat → Bool) : Event → Prop
  | .sendMessage op _ _ | .findPeer op _ | .lookup op _ _ => keep op = true
  | .inbox _ _ => False
  | _ => True

/-- A completion of a lookup that only the second run has. -/
def Event.extra (keep : Nat → Bool) : Event → Bool
  | .lookup op _ _ => !keep op
  | _ => false

/-- The second list of events is the first with more inbox values, anywhere within batches
or in batches of their own, and the completions of their lookups at any later points. -/
inductive Extended (keep : Nat → Bool) : List Event → List Event → Prop where
  | nil : Extended keep [] []
  | common {e : Event} {es fs : List Event} (hCommon : e.Common keep) (h : Extended keep es fs) :
    Extended keep (e :: es) (e :: fs)
  | batch {values : List (Nat × Bytes)} {expired : Bool} {es fs : List Event}
    (h : Extended keep es fs) :
    Extended keep (.inbox (values.filter fun v => keep v.1) expired :: es)
      (.inbox values expired :: fs)
  | extraBatch {values : List (Nat × Bytes)} {expired : Bool} {es fs : List Event}
    (hExtra : ∀ v ∈ values, keep v.1 = false) (h : Extended keep es fs) :
    Extended keep es (.inbox values expired :: fs)
  | extraLookup {op : Nat} {values : List Bytes} {io : CallbackInput} {es fs : List Event}
    (hExtra : keep op = false) (h : Extended keep es fs) :
    Extended keep es (.lookup op values io :: fs)

namespace P2PNode

variable (S : Sodium) (keep : Nat → Bool)

/-- An extra value does not open under the key its lookup returned. -/
def ForgedExtra (n : P2PNode) (e : Event) : Prop :=
  e.extra keep = true → ∀ a ∈ n.attempt e,
    CryptoService.openedText S (n.inbound a.senderId a.packet) n.myKeys.privateKey a.key = none

/-- The pair that an extra value records in the replay state. -/
def spoils (n : P2PNode) (e : Event) : List (Bytes × Bytes) :=
  match n.attempt e with
  | none => []
  | some a =>
    if e.extra keep = true ∧ n.crypto.Reaches (n.inbound a.senderId a.packet) a.key n.myId a.clock
    then [(a.senderId, a.packet.messageId)] else []

/-- The pair that a common value brings through the checks: if nothing else has, it uses up the
pair in the first run too. -/
def clears (n : P2PNode) (e : Event) : List (Bytes × Bytes) :=
  match n.attempt e with
  | none => []
  | some a =>
    if e.extra keep = false ∧ a.key.length = crypto_box_PUBLICKEYBYTES ∧
      passesChecks (n.inbound a.senderId a.packet) n.myId a.clock = true
    then [(a.senderId, a.packet.messageId)] else []

/-- The node together with the pairs that since the last start only extra values have used up. -/
def spoilStep (s : P2PNode × List (Bytes × Bytes)) (e : Event) : P2PNode × List (Bytes × Bytes) :=
  (s.1.step S e,
    match e with
    | .startNode _ => if s.1.running then s.2 else []
    | _ => s.1.spoils keep e ++ s.2.filter fun pair => pair ∉ s.1.clears keep e)

/-- An extra lookup clears nothing. -/
theorem spoilStep_of_extra (s : P2PNode × List (Bytes × Bytes)) {op : Nat} (hExtra : keep op = false)
    (values : List Bytes) (io : CallbackInput) :
    (spoilStep S keep s (.lookup op values io)).2 =
      s.1.spoils keep (.lookup op values io) ++ s.2 := by
  have hClears : s.1.clears keep (.lookup op values io) = [] := by
    unfold clears
    split
    · rfl
    · simp [Event.extra, hExtra]
  simp [spoilStep, hClears]

theorem spoilStep_of_no_attempt {s : P2PNode × List (Bytes × Bytes)} {e : Event}
    (hAttempt : s.1.attempt e = none) (hStart : ∀ io, e ≠ .startNode io) :
    (spoilStep S keep s e).2 = s.2 := by
  cases e with
  | startNode io => exact absurd rfl (hStart io)
  | _ => simp [spoilStep, spoils, clears, hAttempt]

/-- A packet that passes the checks is in the replay state behind the attempt to open it. -/
theorem seen_of_checks {n : P2PNode} {senderId key : Bytes} {packet : EncryptedPacket}
    {io : CallbackInput} (hLength : key.length = crypto_box_PUBLICKEYBYTES)
    (hChecks : passesChecks (n.inbound senderId packet) n.myId io.now = true) :
    packet.messageId ∈ (n.decryptResult S senderId packet key io).crypto.seenMessageIds
      senderId := by
  rw [decryptResult_crypto, decryption, CryptoService.decrypt_seenMessageIds]
  split
  · exact CryptoService.mem_record.mpr (Or.inl ⟨rfl, rfl⟩)
  · rename_i hStopped
    by_contra hUnseen
    exact hStopped ⟨hLength, hChecks, hUnseen⟩

/-- A common value that passes the checks under a pair that only extra values have used up does
not open. -/
def Unspoiled (s : P2PNode × List (Bytes × Bytes)) (e : Event) : Prop :=
  e.extra keep = false → ∀ a ∈ s.1.attempt e, (a.senderId, a.packet.messageId) ∈ s.2 →
    a.key.length = crypto_box_PUBLICKEYBYTES →
    passesChecks (s.1.inbound a.senderId a.packet) s.1.myId a.clock = true →
    CryptoService.openedText S (s.1.inbound a.senderId a.packet) s.1.myKeys.privateKey a.key = none

instance (n : P2PNode) (e : Event) : Decidable (ForgedExtra S keep n e) := by
  unfold ForgedExtra
  infer_instance

instance (s : P2PNode × List (Bytes × Bytes)) (e : Event) : Decidable (Unspoiled S keep s e) := by
  unfold Unspoiled
  infer_instance

/-! ## The relation between the runs -/

/-- The two nodes agree, up to extra lookups and used-up pairs. -/
structure Coupled (spoiled : List (Bytes × Bytes)) (n₁ n₂ : P2PNode) : Prop where
  myId : n₁.myId = n₂.myId
  myKeys : n₁.myKeys = n₂.myKeys
  running : n₁.running = n₂.running
  dhtRunning : n₁.dht.running = n₂.dht.running
  listenName : n₁.dht.listenName = n₂.dht.listenName
  deliveredInboxKeys : n₁.deliveredInboxKeys = n₂.deliveredInboxKeys
  reports : n₁.reports = n₂.reports
  gets : n₁.dht.gets = n₂.dht.gets.filter fun g => keep g.op
  seen_le : ∀ s m, m ∈ n₁.crypto.seenMessageIds s → m ∈ n₂.crypto.seenMessageIds s
  le_seen : ∀ s m, m ∈ n₂.crypto.seenMessageIds s →
    m ∈ n₁.crypto.seenMessageIds s ∨ (s, m) ∈ spoiled

namespace Coupled

variable {keep} {spoiled : List (Bytes × Bytes)} {n₁ n₂ : P2PNode}

theorem withRest (h : Coupled keep spoiled n₁ n₂) (r₁ r₂ : Rest) :
    Coupled keep spoiled (n₁.withRest r₁) (n₂.withRest r₂) := { h with }

theorem mono (h : Coupled keep spoiled n₁ n₂) {spoiled' : List (Bytes × Bytes)}
    (hSub : spoiled ⊆ spoiled') : Coupled keep spoiled' n₁ n₂ :=
  { h with le_seen := fun s m hm => (h.le_seen s m hm).imp_right fun hmem => hSub hmem }

/-- A pair that both runs have recorded is no longer spoiled. -/
theorem drop (h : Coupled keep spoiled n₁ n₂) {cleared : List (Bytes × Bytes)}
    (hSeen : ∀ pair ∈ cleared, pair.2 ∈ n₁.crypto.seenMessageIds pair.1) :
    Coupled keep (spoiled.filter fun pair => pair ∉ cleared) n₁ n₂ :=
  { h with
    le_seen := by
      intro s m hm
      by_cases hCleared : (s, m) ∈ cleared
      · exact Or.inl (hSeen (s, m) hCleared)
      · apply (h.le_seen s m hm).imp_right
        intro hSpoiled
        exact List.mem_filter.mpr ⟨hSpoiled, by simpa using hCleared⟩ }

theorem withCrypto (h : Coupled keep spoiled n₁ n₂) {c₁ c₂ : CryptoService}
    {spoiled' : List (Bytes × Bytes)}
    (hSub : ∀ s m, m ∈ c₁.seenMessageIds s → m ∈ c₂.seenMessageIds s)
    (hSup : ∀ s m, m ∈ c₂.seenMessageIds s → m ∈ c₁.seenMessageIds s ∨ (s, m) ∈ spoiled') :
    Coupled keep spoiled' { n₁ with crypto := c₁ } { n₂ with crypto := c₂ } :=
  { h with seen_le := hSub, le_seen := hSup }

theorem inbound (h : Coupled keep spoiled n₁ n₂) (senderId : Bytes) (packet : EncryptedPacket) :
    n₁.inbound senderId packet = n₂.inbound senderId packet := by
  simp only [P2PNode.inbound, h.myId]

theorem delivered (h : Coupled keep spoiled n₁ n₂) (senderId : Bytes) (packet : EncryptedPacket)
    (text : Bytes) (clock : Int) :
    Coupled keep spoiled (n₁.delivered senderId packet text clock)
      (n₂.delivered senderId packet text clock) :=
  { h with
    deliveredInboxKeys := by simp only [P2PNode.delivered, h.deliveredInboxKeys]
    reports := by simp only [P2PNode.delivered, h.reports, h.inbound] }

theorem pending (h : Coupled keep spoiled n₁ n₂) {op : Nat} (hOp : keep op = true) :
    n₁.pending op = n₂.pending op := by
  simp only [P2PNode.pending, h.dhtRunning, h.gets, List.find?_filter]
  congr 2
  funext g
  by_cases hg : g.op = op
  · simp [hg, hOp]
  · simp [hg]

theorem raiseFlag (h : Coupled keep spoiled n₁ n₂) (op : Nat) :
    Coupled keep spoiled (n₁.raiseFlag op) (n₂.raiseFlag op) :=
  { h with
    gets := by
      simp only [P2PNode.raiseFlag, h.gets, List.filter_map]
      congr 2
      funext g
      simp only [Function.comp]
      split <;> rfl }

/-- The flag of an extra lookup is not seen by the first run. -/
theorem raiseFlag_extra (h : Coupled keep spoiled n₁ n₂) {op : Nat} (hOp : keep op = false) :
    Coupled keep spoiled n₁ (n₂.raiseFlag op) :=
  { h with
    gets := by
      rw [h.gets]
      simp only [P2PNode.raiseFlag, List.filter_map]
      have hKeep : ((fun g : Get => keep g.op) ∘ fun g : Get =>
          if g.op = op then { g with flag := true } else g) = fun g : Get => keep g.op := by
        funext g
        simp only [Function.comp]
        split <;> rfl
      rw [hKeep]
      rw [List.map_congr_left (g := id), List.map_id]
      intro g hg
      have hCommon : keep g.op = true := (List.mem_filter.mp hg).2
      have hne : g.op ≠ op := by
        intro hEq
        rw [hEq, hOp] at hCommon
        cases hCommon
      exact if_neg hne }

/-- Both runs decrypt a common value. A used-up pair stops only the second. -/
theorem decrypt (h : Coupled keep spoiled n₁ n₂) {senderId key : Bytes} {packet : EncryptedPacket}
    {io : CallbackInput}
    (hSpoiled : (senderId, packet.messageId) ∈ spoiled →
      key.length = crypto_box_PUBLICKEYBYTES →
      passesChecks (n₂.inbound senderId packet) n₂.myId io.now = true →
      CryptoService.openedText S (n₂.inbound senderId packet) n₂.myKeys.privateKey key = none) :
    Coupled keep spoiled (n₁.decryptResult S senderId packet key io)
      (n₂.decryptResult S senderId packet key io) := by
  by_cases h₁ : n₁.crypto.Reaches (n₁.inbound senderId packet) key n₁.myId io.now
  · obtain ⟨c₁, hSeen₁, hResult₁⟩ := decryptResult_of_reaches S h₁
    have hText : CryptoService.openedText S (n₁.inbound senderId packet) n₁.myKeys.privateKey key =
        CryptoService.openedText S (n₂.inbound senderId packet) n₂.myKeys.privateKey key := by
      rw [h.inbound, h.myKeys]
    rw [hText] at hResult₁
    rw [h.inbound, h.myId] at h₁
    by_cases h₂ : n₂.crypto.Reaches (n₂.inbound senderId packet) key n₂.myId io.now
    · -- recorded by both
      obtain ⟨c₂, hSeen₂, hResult₂⟩ := decryptResult_of_reaches S h₂
      have hBoth : Coupled keep spoiled { n₁ with crypto := c₁ } { n₂ with crypto := c₂ } := by
        apply h.withCrypto
        · intro s m hm
          rw [hSeen₁] at hm
          rw [hSeen₂]
          apply CryptoService.mem_record.mpr
          exact (CryptoService.mem_record.mp hm).imp_right (h.seen_le s m)
        · intro s m hm
          rw [hSeen₂] at hm
          rw [hSeen₁]
          rcases CryptoService.mem_record.mp hm with hNew | hOld
          · exact Or.inl (CryptoService.mem_record.mpr (Or.inl hNew))
          · apply (h.le_seen s m hOld).imp_left
            intro hFirst
            exact CryptoService.mem_record.mpr (Or.inr hFirst)
      rw [hResult₁, hResult₂]
      cases CryptoService.openedText S (n₂.inbound senderId packet) n₂.myKeys.privateKey key with
      | none => exact hBoth
      | some text => exact hBoth.delivered senderId packet text io.now
    · -- recorded by the first only: the pair was used up, so the box does not open
      obtain ⟨hLength, hChecks, hUnseen⟩ := h₁
      have hMem : packet.messageId ∈ n₂.crypto.seenMessageIds senderId := by
        by_contra hNot
        exact h₂ ⟨hLength, hChecks, hNot⟩
      have hUsed : (senderId, packet.messageId) ∈ spoiled :=
        (h.le_seen senderId packet.messageId hMem).resolve_left hUnseen
      rw [decryptResult_of_not_reaches S h₂, hResult₁, hSpoiled hUsed hLength hChecks]
      apply h.withCrypto
      · intro s m hm
        rw [hSeen₁] at hm
        rcases CryptoService.mem_record.mp hm with ⟨rfl, rfl⟩ | hOld
        · exact hMem
        · exact h.seen_le s m hOld
      · intro s m hm
        rw [hSeen₁]
        apply (h.le_seen s m hm).imp_left
        intro hFirst
        exact CryptoService.mem_record.mpr (Or.inr hFirst)
  · have h₂ : ¬ n₂.crypto.Reaches (n₂.inbound senderId packet) key n₂.myId io.now := by
      rw [h.inbound, h.myId] at h₁
      rintro ⟨hLength, hChecks, hUnseen⟩
      apply h₁
      refine ⟨hLength, hChecks, ?_⟩
      intro hm
      exact hUnseen (h.seen_le _ _ hm)
    rw [decryptResult_of_not_reaches S h₁, decryptResult_of_not_reaches S h₂]
    exact h

/-- A forged value changes nothing but the replay state. -/
theorem decrypt_extra (h : Coupled keep spoiled n₁ n₂) {senderId key : Bytes}
    {packet : EncryptedPacket} {io : CallbackInput}
    (hForged : CryptoService.openedText S (n₂.inbound senderId packet) n₂.myKeys.privateKey key =
      none) :
    Coupled keep
      ((if n₂.crypto.Reaches (n₂.inbound senderId packet) key n₂.myId io.now then
        [(senderId, packet.messageId)] else []) ++ spoiled)
      n₁ (n₂.decryptResult S senderId packet key io) := by
  by_cases h₂ : n₂.crypto.Reaches (n₂.inbound senderId packet) key n₂.myId io.now
  · obtain ⟨c₂, hSeen₂, hResult₂⟩ := decryptResult_of_reaches S h₂
    rw [hResult₂, hForged, if_pos h₂]
    apply h.withCrypto
    · intro s m hm
      rw [hSeen₂]
      exact CryptoService.mem_record.mpr (Or.inr (h.seen_le s m hm))
    · intro s m hm
      rw [hSeen₂] at hm
      rcases CryptoService.mem_record.mp hm with ⟨rfl, rfl⟩ | hOld
      · exact Or.inr (by simp)
      · apply (h.le_seen s m hOld).imp_right
        intro hUsed
        exact List.mem_append_right _ hUsed
  · rw [decryptResult_of_not_reaches S h₂, if_neg h₂]
    exact h

/-- Lookups that both runs start. -/
theorem addGets (h : Coupled keep spoiled n₁ n₂) (gs₁ gs₂ : List Get)
    (hGets : gs₁ = gs₂.filter fun g => keep g.op) :
    Coupled keep spoiled { n₁ with dht := { n₁.dht with gets := gs₁ ++ n₁.dht.gets } }
      { n₂ with dht := { n₂.dht with gets := gs₂ ++ n₂.dht.gets } } :=
  { h with gets := by simp only [List.filter_append, hGets, h.gets] }

theorem valueLookup (h : Coupled keep spoiled n₁ n₂) (payload : Bytes) :
    n₁.valueLookup payload = n₂.valueLookup payload := by
  unfold P2PNode.valueLookup wasInboxMessageDelivered
  rw [h.myId, h.deliveredInboxKeys]

/-- The common values of a batch start the common lookups. -/
theorem valueGets (h : Coupled keep spoiled n₁ n₂) (values : List (Nat × Bytes)) :
    n₁.valueGets (values.filter fun v => keep v.1) =
      (n₂.valueGets values).filter fun g => keep g.op := by
  simp only [P2PNode.valueGets, h.valueLookup, List.filter_reverse]
  congr 1
  induction values with
  | nil => rfl
  | cons v rest ih =>
    cases hKeep : keep v.1 <;> cases hValue : n₂.valueLookup v.2 <;>
      simp [hKeep, hValue, ih]

theorem lookup (h : Coupled keep spoiled n₁ n₂) {op : Nat} {values : List Bytes}
    {io : CallbackInput} (hKeep : keep op = true)
    (hUnspoiled : Unspoiled S keep (n₂, spoiled) (.lookup op values io)) :
    Coupled keep spoiled (n₁.afterLookup S op values io) (n₂.afterLookup S op values io) := by
  have hAction : n₁.lookupAction op values = n₂.lookupAction op values := by
    simp only [lookupAction, h.pending hKeep]
  unfold afterLookup
  rw [hAction]
  cases hCase : n₂.lookupAction op values with
  | ignore => exact h
  | giveUp => exact h.raiseFlag op
  | encrypt receiverId packet key =>
    simp only [sendEncrypted_eq]
    exact { h.raiseFlag op with }
  | decrypt senderId packet key =>
    exact (h.raiseFlag op).decrypt S
      (hUnspoiled (by simp [Event.extra, hKeep]) _ (attempt_of_decrypt hCase io))

/-- A pair that a common value brings through the checks is one that the first run has seen. -/
theorem seen_of_clears (h : Coupled keep spoiled n₁ n₂) {op : Nat} {values : List Bytes}
    {io : CallbackInput} (hKeep : keep op = true) :
    ∀ pair ∈ n₂.clears keep (.lookup op values io),
      pair.2 ∈ (n₁.afterLookup S op values io).crypto.seenMessageIds pair.1 := by
  have hAction : n₁.lookupAction op values = n₂.lookupAction op values := by
    simp only [lookupAction, h.pending hKeep]
  intro pair hPair
  unfold afterLookup
  rw [hAction]
  cases hCase : n₂.lookupAction op values with
  | decrypt senderId packet key =>
    simp only [clears, attempt_of_decrypt hCase] at hPair
    split at hPair
    · rename_i hCleared
      obtain ⟨-, hLength, hChecks⟩ := hCleared
      obtain rfl := List.mem_singleton.mp hPair
      refine seen_of_checks S hLength ?_
      show passesChecks (n₁.inbound senderId packet) n₁.myId io.now = true
      rw [h.inbound, h.myId]
      exact hChecks
    · cases hPair
  | _ =>
    simp only [clears, attempt, hCase] at hPair
    cases hPair

/-- Both runs take a common step. -/
theorem common (h : Coupled keep spoiled n₁ n₂) {e : Event} (hCommon : e.Common keep)
    (hUnspoiled : Unspoiled S keep (n₂, spoiled) e) :
    Coupled keep (spoilStep S keep (n₂, spoiled) e).2 (n₁.step S e) (n₂.step S e) := by
  obtain ⟨rest₁, hStep₁⟩ := step_effect S n₁ e
  obtain ⟨rest₂, hStep₂⟩ := step_effect S n₂ e
  rw [hStep₁, hStep₂]
  refine withRest ?_ rest₁ rest₂
  have hQuiet (hAttempt : n₂.attempt e = none) (hStart : ∀ io, e ≠ .startNode io)
      (hNext : Coupled keep spoiled (n₁.effect S e) (n₂.effect S e)) :
      Coupled keep (spoilStep S keep (n₂, spoiled) e).2 (n₁.effect S e) (n₂.effect S e) := by
    rw [spoilStep_of_no_attempt S keep hAttempt hStart]
    exact hNext
  cases e with
  | setNodeConfig port id =>
    refine hQuiet rfl (fun _ => Event.noConfusion) ?_
    exact { h with myId := by simp only [effect, h.myId] }
  | startNode io =>
    simp only [effect, spoilStep, h.running]
    split
    · exact h
    · exact { h with
        myKeys := rfl
        running := rfl
        dhtRunning := rfl
        listenName := by simp only [h.myId]
        seen_le := fun _ _ hm => hm
        le_seen := fun _ _ hm => Or.inl hm }
  | stopNode =>
    refine hQuiet rfl (fun _ => Event.noConfusion) ?_
    simp only [effect, h.running]
    split
    · exact { h with running := rfl, dhtRunning := rfl, listenName := rfl, gets := rfl }
    · exact h
  | sendMessage op toPeerId text =>
    refine hQuiet rfl (fun _ => Event.noConfusion) ?_
    simp only [effect, h.myId]
    split
    · exact h
    · exact h.addGets [_] [_] (by simp [show keep op = true from hCommon])
  | publishProfile profile => exact hQuiet rfl (fun _ => Event.noConfusion) { h with }
  | findPeer op userId =>
    refine hQuiet rfl (fun _ => Event.noConfusion) ?_
    exact h.addGets [_] [_] (by simp [show keep op = true from hCommon])
  | inbox values expired => exact hCommon.elim
  | lookup op values io =>
    have hSpoils : n₂.spoils keep (.lookup op values io) = [] := by
      have hKeep : keep op = true := hCommon
      unfold spoils
      split
      · rfl
      · simp [Event.extra, hKeep]
    simp only [spoilStep, hSpoils, List.nil_append]
    exact (h.lookup S hCommon hUnspoiled).drop (h.seen_of_clears S hCommon)
  | _ => exact hQuiet rfl (fun _ => Event.noConfusion) h

/-- Both runs receive a batch. -/
theorem batch (h : Coupled keep spoiled n₁ n₂) (values : List (Nat × Bytes)) (expired : Bool) :
    Coupled keep (spoilStep S keep (n₂, spoiled) (.inbox values expired)).2
      (n₁.step S (.inbox (values.filter fun v => keep v.1) expired))
      (n₂.step S (.inbox values expired)) := by
  rw [spoilStep_of_no_attempt S keep rfl fun _ => Event.noConfusion]
  obtain ⟨rest₁, hStep₁⟩ := step_effect S n₁ (.inbox (values.filter fun v => keep v.1) expired)
  obtain ⟨rest₂, hStep₂⟩ := step_effect S n₂ (.inbox values expired)
  rw [hStep₁, hStep₂]
  refine withRest ?_ rest₁ rest₂
  have hListening : n₁.dht.listenName.isSome = n₂.dht.listenName.isSome := by rw [h.listenName]
  simp only [effect, hListening]
  split
  · exact h.addGets _ _ (h.valueGets values)
  · exact h

/-- The second run receives a batch of forged values only. -/
theorem extraBatch (h : Coupled keep spoiled n₁ n₂) {values : List (Nat × Bytes)}
    (hExtra : ∀ v ∈ values, keep v.1 = false) (expired : Bool) :
    Coupled keep (spoilStep S keep (n₂, spoiled) (.inbox values expired)).2 n₁
      (n₂.step S (.inbox values expired)) := by
  rw [spoilStep_of_no_attempt S keep rfl fun _ => Event.noConfusion]
  obtain ⟨rest, hStep⟩ := step_effect S n₂ (.inbox values expired)
  rw [hStep]
  show Coupled keep spoiled (n₁.withRest n₁.rest) _
  refine withRest ?_ n₁.rest rest
  simp only [effect]
  split
  · have hNone : (n₂.valueGets values).filter (fun g => keep g.op) = [] := by
      apply List.filter_eq_nil_iff.mpr
      intro g hg
      obtain ⟨_, _, _, _, hValue, -⟩ := mem_valueGets hg
      simp [hExtra _ hValue]
    exact h.addGets [] _ hNone.symm
  · exact h

/-- The second run completes a forged lookup. -/
theorem extraLookup (h : Coupled keep spoiled n₁ n₂) {op : Nat} {values : List Bytes}
    {io : CallbackInput} (hExtra : keep op = false)
    (hForged : ForgedExtra S keep n₂ (.lookup op values io)) :
    Coupled keep (spoilStep S keep (n₂, spoiled) (.lookup op values io)).2 n₁
      (n₂.step S (.lookup op values io)) := by
  obtain ⟨rest, hStep⟩ := step_effect S n₂ (.lookup op values io)
  rw [hStep]
  show Coupled keep _ (n₁.withRest n₁.rest) _
  refine withRest ?_ n₁.rest rest
  have hFlag := h.raiseFlag_extra hExtra
  rw [spoilStep_of_extra S keep _ hExtra]
  simp only [effect, spoils, afterLookup]
  cases hAction : n₂.lookupAction op values with
  | ignore => simpa [attempt, hAction] using h
  | giveUp => simpa [attempt, hAction] using hFlag
  | encrypt receiverId packet key =>
    simp only [attempt, hAction, List.nil_append, sendEncrypted_eq]
    exact { hFlag with }
  | decrypt senderId packet key =>
    have hAttempt := attempt_of_decrypt hAction io
    have hExtraEvent : (Event.lookup op values io).extra keep = true := by
      simp [Event.extra, hExtra]
    simp only [hAttempt, hExtraEvent, true_and]
    exact hFlag.decrypt_extra S (hForged hExtraEvent _ hAttempt)

end Coupled

theorem coupled_run {es fs : List Event} (hExtended : Extended keep es fs) {n₁ n₂ : P2PNode}
    {spoiled : List (Bytes × Bytes)} (h : Coupled keep spoiled n₁ n₂)
    (hForged : Along (step S) (ForgedExtra S keep) n₂ fs)
    (hUnspoiled : Along (spoilStep S keep) (Unspoiled S keep) (n₂, spoiled) fs) :
    (run (step S) n₁ es).reports = (run (step S) n₂ fs).reports := by
  induction hExtended generalizing n₁ n₂ spoiled with
  | nil => exact h.reports
  | common hCommon _ ih => exact ih (h.common S hCommon hUnspoiled.1) hForged.2 hUnspoiled.2
  | batch _ ih => exact ih (h.batch S _ _) hForged.2 hUnspoiled.2
  | extraBatch hExtra _ ih => exact ih (h.extraBatch S hExtra _) hForged.2 hUnspoiled.2
  | extraLookup hExtra _ ih => exact ih (h.extraLookup S hExtra hForged.1) hForged.2 hUnspoiled.2

/-- Forged inbox values change nothing that a node reports, in all runs in which no genuine
value comes under a pair that a forged one has used up; and a call of `decrypt` that throws
leaves the replay state answering as before if and only if its packet did not get as far as
being recorded. -/
theorem reports_eq_of_forged {es fs : List Event} (hExtended : Extended keep es fs)
    (hForged : Along (step S) (ForgedExtra S keep) {} fs)
    (hUnspoiled : Along (spoilStep S keep) (Unspoiled S keep) ({}, []) fs) :
    (run (step S) {} es).reports.map (fun r => (r.fromPeerId, r.text)) =
        (run (step S) {} fs).reports.map (fun r => (r.fromPeerId, r.text)) ∧
      ∀ (c : CryptoService) (packet : EncryptedPacket) (myPrivateKey senderPublicKey myUserId error :
          Bytes) (nowSec : Int),
        (c.decrypt S packet myPrivateKey senderPublicKey myUserId nowSec).1 = .error error →
          ((∀ s m, m ∈ (c.decrypt S packet myPrivateKey senderPublicKey myUserId
              nowSec).2.seenMessageIds s ↔ m ∈ c.seenMessageIds s) ↔
            ¬ c.Reaches packet senderPublicKey myUserId nowSec) := by
  constructor
  · have hStart : Coupled keep [] {} {} := by constructor <;> simp
    rw [coupled_run S keep hExtended hStart hForged hUnspoiled]
  · intro c packet myPrivateKey senderPublicKey myUserId error nowSec _
    exact CryptoService.decrypt_answers_iff S _ _ _ _ _ _

end P2PNode

namespace Peer

/-- Bob is started and receives Alice's message. -/
def bobReceives : List Event :=
  [.setNodeConfig 4222 bob.launch.id, .startNode bob.launch.io,
    .inbox [(0, fullPayload alice.launch.userId (aliceSealed (bytes "hi") noon))] false,
    .lookup 0 [alice.profile] noon]

/-- The same with a value that is no box, under `messageId`, looked up before. -/
def bobReceivesForged (messageId : Bytes) : List Event :=
  [.setNodeConfig 4222 bob.launch.id, .startNode bob.launch.io,
    .inbox [(1, fullPayload alice.launch.userId { aliceSealed (bytes "hi") noon with
      messageId := messageId, ciphertext := toBase64 (List.replicate 20 0) })] false,
    .lookup 1 [alice.profile] noon,
    .inbox [(0, fullPayload alice.launch.userId (aliceSealed (bytes "hi") noon))] false,
    .lookup 0 [alice.profile] noon]

theorem bobReceives_extended (messageId : Bytes) :
    Extended (· == 0) bobReceives (bobReceivesForged messageId) :=
  .common trivial (.common trivial (.extraBatch (by simp) (.extraLookup rfl
    (@Extended.batch _ [(0, _)] false _ _ (.common rfl .nil)))))

/-- A forged value under an id of its own does no harm. -/
theorem forged_other_id :
    (run (P2PNode.step .additive) {} bobReceives).reports.map (fun r => (r.fromPeerId, r.text)) =
      (run (P2PNode.step .additive) {} (bobReceivesForged
        (generateMessageId (List.replicate 16 1)))).reports.map
          (fun r => (r.fromPeerId, r.text)) :=
  (P2PNode.reports_eq_of_forged .additive (· == 0) (bobReceives_extended _) (by decide +kernel)
    (by decide +kernel)).1

/-- A forged value under the id of the genuine message suppresses it. -/
theorem forged_same_id :
    Extended (· == 0) bobReceives
        (bobReceivesForged (aliceSealed (bytes "hi") noon).messageId) ∧
      Along (P2PNode.step .additive) (P2PNode.ForgedExtra .additive (· == 0)) {}
        (bobReceivesForged (aliceSealed (bytes "hi") noon).messageId) ∧
      (run (P2PNode.step .additive) {} bobReceives).reports.map
          (fun r => (r.fromPeerId, r.text)) = [(bytes "alice", bytes "hi")] ∧
      (run (P2PNode.step .additive) {}
        (bobReceivesForged (aliceSealed (bytes "hi") noon).messageId)).reports = [] :=
  ⟨bobReceives_extended _, by decide +kernel, by decide +kernel, by decide +kernel⟩

end Peer

end P2PMessenger
