import P2PMessenger.Program.Conversations

/-!
# Errors in front of the user

Between the node and the box that the user has to confirm an error is a code and a text in
one string. Every error of the node arrives there once, in order and with its whole text,
and the icon tells a fault of this program from a peer that is not there.
-/

namespace P2PMessenger

open Text Crypto Run

namespace P2PErrorCode

def all : List Bytes := [peerNotFound, decryptionFailed, networkUnavailable, deliveryFailed]

/-- The codes of a fault on this side. -/
def IsFault (code : Bytes) : Prop := code = decryptionFailed ∨ code = networkUnavailable

instance (code : Bytes) : Decidable (IsFault code) := inferInstanceAs (Decidable (_ ∨ _))

end P2PErrorCode

namespace UiEvent

/-- The code and the text of an error. -/
def fault : UiEvent → Option (Bytes × Bytes)
  | .error code message => some (code, message)
  | _ => none

end UiEvent

namespace P2PNode

/-- The window is told of errors with known codes only. -/
def KnownErrors (n : P2PNode) : Prop := ∀ p ∈ n.ui.filterMap UiEvent.fault, p.1 ∈ P2PErrorCode.all

variable (S : Sodium)

theorem sendOutcome_code (n : P2PNode) (receiverId : Bytes) (packet : EncryptedPacket)
    (values : List Bytes) (io : CallbackInput) {code message : Bytes}
    (h : n.sendOutcome S receiverId packet values io = .failed code message) :
    code ∈ P2PErrorCode.all := by
  unfold sendOutcome at h
  split at h
  · obtain ⟨rfl, -⟩ := Outcome.failed.inj h
    simp [P2PErrorCode.all]
  · obtain ⟨rfl, -⟩ := Outcome.failed.inj h
    simp [P2PErrorCode.all]
  · obtain ⟨rfl, -⟩ := Outcome.failed.inj h
    simp [P2PErrorCode.all]
  · split at h
    · obtain ⟨rfl, -⟩ := Outcome.failed.inj h
      simp [P2PErrorCode.all]
    · cases h

theorem deliveryOutcome_code (n : P2PNode) (senderId : Bytes) (packet : EncryptedPacket)
    (values : List Bytes) (io : CallbackInput) {code message : Bytes}
    (h : n.deliveryOutcome S senderId packet values io = .failed code message) :
    code ∈ P2PErrorCode.all := by
  unfold deliveryOutcome at h
  split at h
  · obtain ⟨rfl, -⟩ := Outcome.failed.inj h
    simp [P2PErrorCode.all]
  · cases h
  · obtain ⟨rfl, -⟩ := Outcome.failed.inj h
    simp [P2PErrorCode.all]
  · split at h
    · cases h
    · split at h
      · cases h
      · obtain ⟨rfl, -⟩ := Outcome.failed.inj h
        simp [P2PErrorCode.all]

theorem code_of_newUi {n : P2PNode} {e : Event} {code message : Bytes}
    (h : .error code message ∈ n.newUi S e) : code ∈ P2PErrorCode.all := by
  cases e with
  | sendMessage op toPeerId text =>
    simp only [newUi] at h
    split at h
    · obtain ⟨rfl, -⟩ := UiEvent.error.inj (List.mem_singleton.mp h)
      simp [P2PErrorCode.all]
    · cases h
  | lookup op values io =>
    simp only [newUi] at h
    split at h
    · unfold peerNotices at h
      split at h
      · simp only [List.mem_cons, reduceCtorEq, List.not_mem_nil, or_false, false_or] at h
        obtain ⟨rfl, -⟩ := UiEvent.error.inj h
        simp [P2PErrorCode.all]
      · simp at h
    · obtain ⟨⟨g, o⟩, hCompletion, hNotice⟩ :=
        Option.bind_eq_some_iff.mp (Option.mem_toList.mp h)
      have hFailed : o = .failed code message := by
        cases o <;> simp_all [Outcome.notice]
      obtain ⟨values', io', -, -, -, hKind⟩ := completion_eq_some S hCompletion
      rcases hKind with ⟨receiverId, packet, -, hOutcome⟩ | ⟨senderId, packet, -, hOutcome⟩
      · exact sendOutcome_code S n receiverId packet values' io' (hOutcome.symm.trans hFailed)
      · exact deliveryOutcome_code S n senderId packet values' io' (hOutcome.symm.trans hFailed)
  | startNode io =>
    simp only [newUi] at h
    split at h <;> simp at h
  | stopNode =>
    simp only [newUi] at h
    split at h <;> simp at h
  | profilePut profile success =>
    simp only [newUi] at h
    split at h <;> simp at h
  | refreshProfile =>
    simp only [newUi] at h
    split at h <;> simp at h
  | _ => simp [newUi] at h

theorem KnownErrors.step {n : P2PNode} (h : n.KnownErrors) (e : Event) :
    (n.step S e).KnownErrors := by
  intro p hp
  rw [step_ui, List.filterMap_append, List.mem_append] at hp
  rcases hp with hOld | hNew
  · exact h p hOld
  · obtain ⟨event, hEvent, hFault⟩ := List.mem_filterMap.mp hNew
    cases event with
    | error code message =>
      obtain rfl := Option.some.inj hFault
      exact code_of_newUi S hEvent
    | _ => cases hFault

theorem knownErrors_run (es : List Event) : (run (step S) {} es).KnownErrors :=
  run_invariant (fun _ e h => h.step S e) (fun _ hp => (nomatch hp)) es

end P2PNode

/-- The box of an error. -/
def faultBox (p : Bytes × Bytes) : MessageBox :=
  if P2PErrorCode.IsFault p.1 then
    { message := WxString.fromUTF8Sized p.2, caption := wxT "P2P Error", icon := .error }
  else
    { message := WxString.fromUTF8Sized p.2, caption := wxT "P2P Warning", icon := .warning }

/-- A known code comes through the string, and the text behind the first pipe with it. -/
theorem box_of_known {code : Bytes} (h : code ∈ P2PErrorCode.all) (message : Bytes) :
    (UiEvent.error code message).queued.box = some (faultBox (code, message)) := by
  have hPipe : '|' ∉ WxString.fromUTF8Sized code := by
    have hCodes : ∀ code ∈ P2PErrorCode.all, '|' ∉ WxString.fromUTF8Sized code := by
      decide +kernel
    exact hCodes code h
  have hBox : (UiEvent.error code message).queued.box =
      errorBox (WxString.fromUTF8Sized code) (WxString.fromUTF8Sized message) := by
    have hParse : parseP2PErrorEvent
        (WxString.fromUTF8Sized code ++ '|' :: WxString.fromUTF8Sized message) =
          (WxString.fromUTF8Sized code, WxString.fromUTF8Sized message) := by
      rw [parseP2PErrorEvent, cutFirst_append hPipe]
    have hQueued : (UiEvent.error code message).queued =
        .error (WxString.fromUTF8Sized code ++ '|' :: WxString.fromUTF8Sized message) := by
      simp [UiEvent.queued, P2PNode.queueErrorEventToUi, wxT]
    rw [hQueued, ThreadEvent.box, hParse]
  have hKnown : ∀ code ∈ P2PErrorCode.all,
      (P2PErrorCode.IsFault code ↔
        WxString.fromUTF8Sized code = WxString.fromUTF8 P2PErrorCode.decryptionFailed ∨
          WxString.fromUTF8Sized code = WxString.fromUTF8 P2PErrorCode.networkUnavailable) ∧
      (¬ P2PErrorCode.IsFault code →
        WxString.fromUTF8Sized code = WxString.fromUTF8 P2PErrorCode.peerNotFound ∨
          WxString.fromUTF8Sized code = WxString.fromUTF8 P2PErrorCode.deliveryFailed) := by
    decide +kernel
  obtain ⟨hFault, hWarning⟩ := hKnown code h
  rw [hBox, errorBox, faultBox]
  by_cases hIs : P2PErrorCode.IsFault code
  · rw [if_pos (hFault.mp hIs), if_pos hIs]
  · rw [if_neg (mt hFault.mpr hIs), if_pos (hWarning hIs), if_neg hIs]

namespace Messenger

variable (sameItem : WxString → WxString → Bool) (S : Sodium)

/-- A box that an error has opened, and not an answer to a question of the window. -/
def IsFaultBox (b : MessageBox) : Bool := b.caption ≠ wxT "Change Peer ID"

theorem isFaultBox_faultBox (p : Bytes × Bytes) : IsFaultBox (faultBox p) = true := by
  unfold faultBox
  split <;> rfl

/-- Of what an input shows, the boxes of errors are those of the handled event. -/
theorem newBoxes_faults {m : Messenger} {input : Input}
    (hKnown : ∀ p ∈ (m.newHandled input).toList.filterMap UiEvent.fault, p.1 ∈ P2PErrorCode.all) :
    (m.newBoxes input).filter IsFaultBox =
      ((m.newHandled input).toList.filterMap UiEvent.fault).map faultBox := by
  cases input with
  | changePeerId localPeerId answer =>
    simp only [newBoxes, newHandled, MainWindow.changePeerIdBox]
    cases answer with
    | none => rfl
    | some value =>
      dsimp only
      split <;> rfl
  | nextEvent =>
    simp only [newBoxes, newHandled] at hKnown ⊢
    cases hEvent : m.pendingEvent with
    | none => rfl
    | some event =>
      cases event with
      | error code message =>
        rw [hEvent] at hKnown
        have hBox := box_of_known (hKnown (code, message) List.mem_cons_self) message
        simp [hBox, UiEvent.fault, isFaultBox_faultBox]
      | _ => rfl
  | _ => rfl

/-- In every run of a launched program the boxes of errors are those of the errors the node
has raised, each once and with its whole text, up to the event the window has come to. -/
theorem errors_shown_once (peerId : Bytes) (port : Nat) (bootstrapHost bootstrapPort : Bytes)
    (es : List (WxString × Input)) :
    (launched sameItem S peerId port bootstrapHost bootstrapPort es).boxes.filter IsFaultBox =
      ((launched sameItem S peerId port bootstrapHost bootstrapPort
        es).handledEvents.filterMap UiEvent.fault).map faultBox := by
  induction es using List.reverseRecOn with
  | nil => rfl
  | append_singleton es e ih =>
    have hLe := launched_handled_le sameItem S peerId port bootstrapHost bootstrapPort es
    have hErrors : (launched sameItem S peerId port bootstrapHost bootstrapPort
        es).system.app.node.KnownErrors := by
      obtain ⟨events, hNode⟩ := launched_node sameItem S peerId port bootstrapHost bootstrapPort es
      rw [hNode]
      exact P2PNode.knownErrors_run S events
    rw [launched_snoc]
    generalize launched sameItem S peerId port bootstrapHost bootstrapPort es = m at *
    have hBoxes : (m.step sameItem S e).boxes = m.boxes ++ m.newBoxes e.2 := rfl
    rw [handledEvents_step sameItem S hLe, List.filterMap_append, List.map_append, ← ih, hBoxes,
      List.filter_append, newBoxes_faults]
    intro p hp
    obtain ⟨event, hNew, hFault⟩ := List.mem_filterMap.mp hp
    exact hErrors p (List.mem_filterMap.mpr ⟨event, mem_ui_of_newHandled hNew, hFault⟩)

end Messenger

end P2PMessenger
