import P2PMessenger.Program.Correspondence
import P2PMessenger.Program.ErrorBoxes

/-!
# What became of a message

The window shows a message as sent when the button is clicked. What becomes of it shows later:
the node refuses it at once if it has no id, waits for the key of the receiver, puts a value
for the receiver, raises an error, or drops the message with its lookup when it stops. For
each receiver these are all messages that are shown, with multiplicity.
-/

namespace P2PMessenger

open Text Crypto Run

/-- How a message that was shown as sent has ended. -/
inductive Fate where
  | put (packet : EncryptedPacket)
  | failed (code message : Bytes)
  | dropped
  deriving DecidableEq

namespace Fate

def packet : Fate → Option EncryptedPacket
  | put packet => some packet
  | _ => none

def error : Fate → Option (Bytes × Bytes)
  | failed code message => some (code, message)
  | _ => none

end Fate

/-- The fate of the message whose lookup has this outcome. -/
def Outcome.fate : Outcome → Option Fate
  | put packet => some (.put packet)
  | failed code message => some (.failed code message)
  | _ => none

namespace P2PNode

/-- The texts for a receiver that wait for its key. -/
def waitingFor (n : P2PNode) (receiverId : Bytes) : List Bytes :=
  n.openLookups.filterMap fun g => g.callback.textFor receiverId

variable (S : Sodium)

/-- The texts for a receiver that end with an event, with their fates. -/
def newFates (receiverId : Bytes) (n : P2PNode) (e : Event) : List (Bytes × Fate) :=
  match e with
  | .sendMessage _ toPeerId text =>
    if n.myId = [] ∧ toPeerId = receiverId then
      [(text, .failed P2PErrorCode.networkUnavailable
        (bytes "Cannot send: local peer ID is not configured (set P2P_PEER_ID)"))]
    else []
  | .stopNode =>
    ((n.droppedLookups .stopNode).filterMap fun g => g.callback.textFor receiverId).map
      fun text => (text, .dropped)
  | e =>
    ((n.completion S e).bind fun c =>
      (c.1.callback.textFor receiverId).bind fun text => c.2.fate.map (Prod.mk text)).toList

/-- The fates of a run. -/
def fates (receiverId : Bytes) (n : P2PNode) (es : List Event) : List (Bytes × Fate) :=
  added (step S) (newFates S receiverId) n es

/-! ## One step -/

/-- Only a send to the receiver starts a lookup with a text for it. -/
theorem texts_started_of_not_send {n : P2PNode} {e : Event}
    (hSend : ∀ op toPeerId text, e ≠ .sendMessage op toPeerId text) (receiverId : Bytes) :
    ((n.startedLookups e).filterMap fun g => g.callback.textFor receiverId) = [] := by
  have hNone : e.textFor receiverId = none := by
    cases e with
    | sendMessage op toPeerId text => exact absurd rfl (hSend op toPeerId text)
    | _ => rfl
  have hSub := texts_started_sublist n e receiverId
  rw [hNone] at hSub
  exact List.sublist_nil.mp hSub

/-- The lookup of a send ends in a fate. -/
theorem fate_of_completion {n : P2PNode} {e : Event} {c : Get × Outcome}
    (hc : n.completion S e = some c) {receiverId text : Bytes}
    (hText : c.1.callback.textFor receiverId = some text) : ∃ fate, c.2.fate = some fate := by
  obtain ⟨g, o⟩ := c
  obtain ⟨values, io, -, -, -, hKind⟩ := completion_eq_some S hc
  rcases hKind with ⟨toPeerId, packet, -, rfl⟩ | ⟨senderId, packet, hCallback, -⟩
  · rcases sendOutcome_cases S n toPeerId packet values io with ⟨_, hPut⟩ | ⟨_, _, hFailed⟩
    · exact ⟨_, congrArg Outcome.fate hPut⟩
    · exact ⟨_, congrArg Outcome.fate hFailed⟩
  · simp only [hCallback, Callback.textFor] at hText
    cases hText

/-- What a step sends and answers for a receiver, text by text. -/
theorem texts_newFates (receiverId : Bytes) (n : P2PNode) (e : Event) :
    (((newFates S receiverId n e).map Prod.fst : List Bytes) : Multiset Bytes) +
        ((n.startedLookups e).filterMap fun g => g.callback.textFor receiverId : List Bytes) =
      ((n.answeredLookups S e).filterMap fun g => g.callback.textFor receiverId : List Bytes) +
        ((n.droppedLookups e).filterMap fun g => g.callback.textFor receiverId : List Bytes) +
        ((e.textFor receiverId).toList : List Bytes) := by
  cases e with
  | sendMessage op toPeerId text =>
    by_cases hId : n.myId = []
    · by_cases hTo : toPeerId = receiverId
      · simp [newFates, startedLookups, answeredLookups, outcomes, completion, droppedLookups,
          Event.textFor, hId, hTo]
      · simp [newFates, startedLookups, answeredLookups, outcomes, completion, droppedLookups,
          Event.textFor, hId, hTo]
    · by_cases hTo : toPeerId = receiverId
      · simp [newFates, startedLookups, answeredLookups, outcomes, completion, droppedLookups,
          Event.textFor, Callback.textFor, hId, hTo]
      · simp [newFates, startedLookups, answeredLookups, outcomes, completion, droppedLookups,
          Event.textFor, Callback.textFor, hId, hTo]
  | stopNode =>
    have hTexts (texts : List Bytes) :
        (texts.map fun text => (text, Fate.dropped)).map Prod.fst = texts := by
      rw [List.map_map]
      exact List.map_id texts
    simp [newFates, hTexts, startedLookups, answeredLookups, outcomes, completion,
      Event.textFor]
  | inbox values expired =>
    rw [texts_started_of_not_send (fun _ _ _ => Event.noConfusion)]
    rfl
  | lookup op values io =>
    have hTexts : (newFates S receiverId n (.lookup op values io)).map Prod.fst =
        (n.answeredLookups S (.lookup op values io)).filterMap
          fun g => g.callback.textFor receiverId := by
      simp only [newFates, answeredLookups, outcomes]
      cases hAnswer : n.completion S (.lookup op values io) with
      | none => rfl
      | some c =>
        cases hText : c.1.callback.textFor receiverId with
        | none => simp [hText]
        | some text =>
          obtain ⟨fate, hFate⟩ := fate_of_completion S hAnswer hText
          simp [hText, hFate]
    rw [hTexts]
    simp [startedLookups, droppedLookups, Event.textFor]
  | _ => rfl

/-- Where the lookups have different names, a step loses no text. -/
theorem step_fates {n : P2PNode} (hNames : (n.dht.gets.map Get.op).Nodup) (receiverId : Bytes)
    (e : Event) :
    ((n.step S e).waitingFor receiverId : Multiset Bytes) +
        ((newFates S receiverId n e).map Prod.fst : List Bytes) =
      (n.waitingFor receiverId : Multiset Bytes) + ((e.textFor receiverId).toList : List Bytes) := by
  have hLookups := congrArg (Multiset.filterMap fun g : Get => g.callback.textFor receiverId)
    (step_lookups_eq S hNames e)
  simp only [Multiset.filterMap_add, Multiset.filterMap_coe] at hLookups
  exact balance_trans hLookups (texts_newFates S receiverId n e)

/-- The values for a receiver that a step puts. -/
theorem packets_newFates (receiverId : Bytes) (n : P2PNode) (e : Event) :
    (newFates S receiverId n e).filterMap (fun fate => fate.2.packet) =
      ((n.newPuts S e).filterMap Put.packet).filter fun packet => packet.receiverId = receiverId := by
  rw [newPackets_eq]
  cases e with
  | sendMessage op toPeerId text =>
    simp only [newFates, completion]
    split <;> rfl
  | stopNode =>
    simp only [newFates, completion, List.filterMap_map]
    exact List.filterMap_eq_nil_iff.mpr fun _ _ => rfl
  | lookup op values io =>
    simp only [newFates]
    cases hAnswer : n.completion S (.lookup op values io) with
    | none => rfl
    | some c =>
      obtain ⟨g, o⟩ := c
      obtain ⟨_, _, -, -, -, hKind⟩ := completion_eq_some S hAnswer
      rcases hKind with ⟨toPeerId, packet, hCallback, rfl⟩ | ⟨senderId, packet, hCallback, rfl⟩
      · simp only [Option.bind_some, hCallback, Callback.textFor]
        rcases sendOutcome_cases S n toPeerId packet _ _ with ⟨_, hPut⟩ | ⟨_, _, hFailed⟩
        · rw [hPut]
          by_cases hTo : toPeerId = receiverId
          · simp [hTo, Outcome.fate, Fate.packet, Outcome.packet, CryptoService.sealedPacket]
          · simp [hTo, Outcome.packet, CryptoService.sealedPacket]
        · rw [hFailed]
          by_cases hTo : toPeerId = receiverId
          · simp [hTo, Outcome.fate, Fate.packet, Outcome.packet]
          · simp [hTo, Outcome.packet]
      · simp [hCallback, Callback.textFor, deliveryOutcome_ne_put]
  | _ => rfl

/-- The errors in the fates of a step are raised. -/
theorem errors_newFates (receiverId : Bytes) (n : P2PNode) (e : Event) :
    ((newFates S receiverId n e).filterMap fun fate => fate.2.error).Sublist
      ((n.newUi S e).filterMap UiEvent.fault) := by
  cases e with
  | sendMessage op toPeerId text =>
    by_cases hId : n.myId = []
    · by_cases hTo : toPeerId = receiverId
      · simp [newFates, newUi, hId, hTo, Fate.error, UiEvent.fault]
      · simp [newFates, hTo]
    · simp [newFates, hId]
  | stopNode =>
    have hNone : (newFates S receiverId n .stopNode).filterMap (fun fate => fate.2.error) = [] := by
      simp only [newFates, List.filterMap_map]
      exact List.filterMap_eq_nil_iff.mpr fun _ _ => rfl
    rw [hNone]
    exact List.nil_sublist _
  | lookup op values io =>
    refine List.Sublist.trans ?_
      ((notices_sublist_newUi S n (.lookup op values io)).filterMap UiEvent.fault)
    simp only [newFates]
    cases n.completion S (.lookup op values io) with
    | none => exact List.Sublist.refl _
    | some c =>
      obtain ⟨g, o⟩ := c
      simp only [Option.bind_some]
      cases g.callback.textFor receiverId with
      | none => exact List.nil_sublist _
      | some text => cases o <;> simp [Outcome.fate, Outcome.notice, Fate.error, UiEvent.fault]
  | _ => exact List.nil_sublist _

/-- A value for a receiver holds the text in a box. -/
def Boxed (receiverId text : Bytes) (packet : EncryptedPacket) : Prop :=
  ∃ (myId publicKey privateKey : Bytes) (io : CallbackInput) (ciphertext : Bytes),
    S.boxEasy text io.draws.nonce publicKey privateKey = some ciphertext ∧
      packet = CryptoService.sealedPacket myId receiverId io.draws io.now ciphertext

theorem boxed_newFates {receiverId : Bytes} {n : P2PNode} {e : Event} {text : Bytes}
    {packet : EncryptedPacket} (h : (text, .put packet) ∈ newFates S receiverId n e) :
    Boxed S receiverId text packet := by
  cases e with
  | sendMessage op toPeerId sent =>
    simp only [newFates] at h
    split at h
    · cases List.mem_singleton.mp h
    · cases h
  | stopNode =>
    obtain ⟨_, -, hSame⟩ := List.mem_map.mp h
    cases hSame
  | lookup op values io =>
    obtain ⟨c, hAnswer, hFate⟩ := Option.bind_eq_some_iff.mp (Option.mem_toList.mp h)
    obtain ⟨sent, hText, hPut⟩ := Option.bind_eq_some_iff.mp hFate
    obtain ⟨fate, hOutcome, hSame⟩ := Option.map_eq_some_iff.mp hPut
    obtain ⟨rfl, rfl⟩ := Prod.mk.inj hSame
    have hPacket : c.2.packet = some packet := by
      cases hCase : c.2 with
      | put packet' =>
        rw [hCase] at hOutcome
        cases hOutcome
        rfl
      | _ =>
        rw [hCase] at hOutcome
        cases hOutcome
    obtain ⟨values', io', request, key, -, -, hCallback, -, ciphertext, hBox, hSealed⟩ :=
      packet_of_mem_outcomes S (Option.mem_toList.mpr hAnswer) hPacket
    rw [hCallback, Callback.textFor] at hText
    obtain ⟨hReceiver, hSent⟩ := Option.ite_none_right_eq_some.mp hText
    rw [Option.some.inj hSent] at hBox
    rw [hReceiver] at hSealed
    exact ⟨n.myId, key, n.myKeys.privateKey, io', ciphertext, hBox, hSealed⟩
  | _ => cases h

/-! ## Runs -/

theorem waiting_run {n : P2PNode} (hNames : (n.dht.gets.map Get.op).Nodup) {es : List Event}
    (hFresh : Along (step S) Fresh n es) (receiverId : Bytes) :
    ((run (step S) n es).waitingFor receiverId : Multiset Bytes) +
        ((fates S receiverId n es).map Prod.fst : List Bytes) =
      (n.waitingFor receiverId : Multiset Bytes) +
        (es.filterMap (fun e => e.textFor receiverId) : List Bytes) := by
  have hBalance := balance_run (fun n : P2PNode => (n.waitingFor receiverId : Multiset Bytes))
    (fun _ e => ((e.textFor receiverId).toList : Multiset Bytes))
    (fun n e => ((newFates S receiverId n e).map Prod.fst : Multiset Bytes))
    (I := fun n : P2PNode => (n.dht.gets.map Get.op).Nodup) (P := Fresh)
    (fun _ _ _ hNow => nodup_ops_step S hNow)
    (fun _ e hNames _ => step_fates S hNames receiverId e) hNames hFresh
  have hFates : added (step S) (fun n e => (newFates S receiverId n e).map Prod.fst) n es =
      (fates S receiverId n es).map Prod.fst := by
    rw [fates, ← List.filterMap_eq_map]
    exact added_filterMap (fun _ _ => rfl) n es
  rw [total_coe, total_coe, hFates, added_toList] at hBalance
  exact hBalance

theorem packets_fates (receiverId : Bytes) (n : P2PNode) (es : List Event) :
    (run (step S) n es).sentTo receiverId =
      n.sentTo receiverId ++ (fates S receiverId n es).filterMap fun fate => fate.2.packet := by
  rw [fates, ← added_filterMap (fun n e => (packets_newFates S receiverId n e).symm)]
  apply history_run (f := fun n : P2PNode => n.sentTo receiverId)
  intro n e
  rw [sentTo, step_puts, List.filterMap_append, List.filter_append]
  rfl

theorem errors_fates (receiverId : Bytes) (n : P2PNode) (es : List Event) :
    ((fates S receiverId n es).filterMap fun fate => fate.2.error).Sublist
      ((run (step S) n es).ui.filterMap UiEvent.fault) := by
  have hFates : added (step S)
      (fun n e => (newFates S receiverId n e).filterMap fun fate => fate.2.error) n es =
        (fates S receiverId n es).filterMap fun fate => fate.2.error :=
    added_filterMap (fun _ _ => rfl) n es
  have hUi : added (step S) (fun n e => (n.newUi S e).filterMap UiEvent.fault) n es =
      (added (step S) (newUi S) n es).filterMap UiEvent.fault :=
    added_filterMap (fun _ _ => rfl) n es
  rw [history_run (step_ui S), List.filterMap_append, ← hFates, ← hUi]
  exact (added_sublist (errors_newFates S receiverId) n es).trans (List.sublist_append_right _ _)

end P2PNode

namespace Messenger

variable (sameItem : WxString → WxString → Bool) (S : Sodium)

/-- The fates of the messages to a receiver in a run of the program. -/
def fates (receiverId : Bytes) (m : Messenger) (es : List (WxString × Input)) :
    List (Bytes × Fate) :=
  P2PNode.fates S receiverId m.system.app.node (added (step sameItem S) (nodeEvents sameItem S) m es)

/-- Alice writes to Bob three times: he is found, he is not, and she closes the window. -/
def aliceWrites : List (WxString × Input) :=
  let io : CallbackInput := { now := 25200, draws := .constant 5 9 }
  let bob := (GeneratedKeys.constant 40).keys.publicKey
  List.replicate 4 ([], .work { generated := .constant 7 }) ++
    [([], .type [] (wxT "bob") (wxT "hello")), ([], .send 0),
      ([], .lookup 0 [profilePayload {} bob] io),
      ([], .type [] (wxT "bob") (wxT "there?")), ([], .send 1), ([], .lookup 1 [] io),
      ([], .type [] (wxT "bob") (wxT "bye")), ([], .send 2), ([], .close),
      ([], .work { generated := .constant 7 })]

end Messenger

end P2PMessenger
