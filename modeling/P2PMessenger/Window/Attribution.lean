import P2PMessenger.Window.Books
import P2PMessenger.Run.Trace

/-!
# Which conversation a message is filed under

Only two handlers write to the conversations, each to one key. The key of a received message
is the sender id after a trip through a C string, UTF-8 and a trim; the trip gives back the
bytes of a sender id exactly if they are UTF-8 without a zero byte.
-/

namespace P2PMessenger

open Text Run

/-! ## Ids through a `wxString` -/

namespace WxString

theorem zero_not_mem_utf8_str (s : WxString) : 0 ∉ utf8_str s := zero_not_mem_cString _

theorem isSome_decode?_utf8_str (s : WxString) : (decode? (utf8_str s)).isSome = true := by
  rw [utf8_str, cString_encode, decode?_encode]
  rfl

theorem fromUTF8_of_valid {b : Bytes} {s : WxString} (hZero : 0 ∉ b) (hValid : decode? b = some s) :
    fromUTF8 b = s := by
  rw [fromUTF8, cString_eq_self.mpr hZero, fromUTF8Sized, hValid]
  rfl

/-- A nonempty result is read from the bytes before the first zero byte. -/
theorem encode_fromUTF8 {b : Bytes} (h : fromUTF8 b ≠ []) : encode (fromUTF8 b) = cString b := by
  unfold fromUTF8 fromUTF8Sized at h ⊢
  cases hDecode : decode? (cString b) with
  | none => exact absurd (by rw [hDecode]; rfl) h
  | some s => exact (decode?_eq_some_iff.mp hDecode).symm

/-- A trimmed id that is UTF-8 without a zero byte comes back unchanged. -/
theorem utf8_str_trimRight_fromUTF8 {id : Bytes} (hTrim : trim isSpace id = id) (hZero : 0 ∉ id)
    (hValid : (decode? id).isSome = true) : utf8_str (trimRight (fromUTF8 id)) = id := by
  obtain ⟨s, hDecode⟩ := Option.isSome_iff_exists.mp hValid
  have hEncode : encode s = id := (decode?_eq_some_iff.mp hDecode).symm
  have hKept : trimRight s = s := by
    apply trimRight_eq_self
    intro b hLast
    rw [hEncode, ← hTrim] at hLast
    exact getLast?_trim hLast
  rw [fromUTF8_of_valid hZero hDecode, hKept, utf8_str, hEncode]
  exact cString_eq_self.mpr hZero

/-- A trimmed id that is read as anything is filed under something. -/
theorem utf8_str_trimRight_ne_nil {id : Bytes} (hTrim : trim isSpace id = id)
    (h : fromUTF8 id ≠ []) : utf8_str (trimRight (fromUTF8 id)) ≠ [] := by
  have hEncode : encode (fromUTF8 id) = cString id := encode_fromUTF8 h
  have hNonempty : trimRight (fromUTF8 id) ≠ [] := by
    apply trimRight_ne_nil h
    intro b hHead
    rw [hEncode] at hHead
    obtain ⟨rest, hRest⟩ := isPrefix_cString id
    have hFirst : id.head? = some b := by rw [← hRest, List.head?_append, hHead]; rfl
    rw [← hTrim] at hFirst
    exact head?_trim hFirst
  have hZero : 0 ∉ encode (trimRight (fromUTF8 id)) := by
    intro hMem
    have hOld : 0 ∈ encode (fromUTF8 id) := (isPrefix_encode_trimRight _).subset hMem
    rw [hEncode] at hOld
    exact zero_not_mem_cString id hOld
  rw [utf8_str, cString_eq_self.mpr hZero]
  intro hNil
  exact hNonempty (encode_eq_nil.mp hNil)

end WxString

/-! ## What the handlers write -/

namespace MainWindow

variable (sameItem : WxString → WxString → Bool)

/-- A received message is appended to the conversation it is filed under. -/
theorem history_onP2PMessageReceived (w : MainWindow) (event : MessageEvent) (now : WxString)
    (key : Bytes) :
    (w.onP2PMessageReceived sameItem event now).history key =
      w.history key ++
        if key = [] ∨ key ≠ w.filedUnder event then []
        else [⟨.incoming, w.sender event, (parseMessageReceivedEvent event).2, now⟩] := by
  have hBooks := congrArg Books.history (books_onP2PMessageReceived sameItem w event now)
  refine (congrFun hBooks key).trans ?_
  show w.history key ++ _ = _
  by_cases hKey : w.filedUnder event = []
  · by_cases hNil : key = []
    · simp [hKey, hNil]
    · simp [hKey, hNil]
  · rw [if_neg hKey, filterMap_entryOf hKey]

/-! ## Messages of the node -/

/-- The sender id comes back from the window unchanged, or it is read as nothing and nothing
takes its place: the text is read as nothing, or the "Send to" box is blank. -/
def Attributable (w : MainWindow) (senderId text : Bytes) : Prop :=
  (0 ∉ senderId ∧ (decode? senderId).isSome = true) ∨
    (WxString.fromUTF8 senderId = [] ∧
      (WxString.fromUTF8 text = [] ∨ WxString.utf8_str (trimRight w.peerIdInput) = []))

instance (w : MainWindow) (senderId text : Bytes) : Decidable (w.Attributable senderId text) := by
  unfold Attributable
  infer_instance

/-- The event of a received message. -/
def messageEvent (senderId text : Bytes) : MessageEvent :=
  .data senderId text (WxString.fromUTF8 senderId)

theorem queued_messageReceived (senderId text : Bytes) :
    (UiEvent.messageReceived senderId text).queued =
      .messageReceived (messageEvent senderId text) := rfl

theorem filedUnder_of_read {senderId : Bytes} (hTrim : trim isSpace senderId = senderId)
    (hRead : WxString.fromUTF8 senderId ≠ []) (text : Bytes) (w : MainWindow) :
    w.filedUnder (messageEvent senderId text) =
        WxString.utf8_str (trimRight (WxString.fromUTF8 senderId)) ∧
      w.filedUnder (messageEvent senderId text) ≠ [] := by
  have hKey : WxString.utf8_str (trimRight (WxString.fromUTF8 senderId)) ≠ [] :=
    WxString.utf8_str_trimRight_ne_nil hTrim hRead
  have hSender : trimRight (WxString.fromUTF8 senderId) ≠ [] := fun hNil => hKey (by rw [hNil]; rfl)
  have hFiled : w.filedUnder (messageEvent senderId text) =
      WxString.utf8_str (trimRight (WxString.fromUTF8 senderId)) := by
    simp only [filedUnder, sender, messageEvent, parseMessageReceivedEvent, hSender, false_and,
      if_false]
  exact ⟨hFiled, hFiled ▸ hKey⟩

theorem filedUnder_of_unread {senderId : Bytes} (hRead : WxString.fromUTF8 senderId = [])
    (text : Bytes) (w : MainWindow) :
    w.filedUnder (messageEvent senderId text) =
      if WxString.fromUTF8 text = [] then [] else WxString.utf8_str (trimRight w.peerIdInput) := by
  have hNil : trimRight (WxString.fromUTF8 senderId) = [] := by rw [hRead]; rfl
  simp only [filedUnder, sender, messageEvent, parseMessageReceivedEvent, hNil, true_and]
  by_cases hText : WxString.fromUTF8 text = []
  · simp only [hText, ne_eq, not_true_eq_false, if_false, if_true]
    rfl
  · simp only [hText, ne_eq, not_false_eq_true, if_true, if_false]

/-- A key that a message is filed under is UTF-8 without a zero byte, so an id that is not is
never hit by accident. -/
theorem filedUnder_iff {senderId : Bytes} (hTrim : trim isSpace senderId = senderId)
    (hne : senderId ≠ []) (text : Bytes) (w : MainWindow) :
    (w.filedUnder (messageEvent senderId text) = [] ∨
      w.filedUnder (messageEvent senderId text) = senderId) ↔ w.Attributable senderId text := by
  by_cases hText : 0 ∉ senderId ∧ (decode? senderId).isSome = true
  · refine iff_of_true (Or.inr ?_) (Or.inl hText)
    have hBack := WxString.utf8_str_trimRight_fromUTF8 hTrim hText.1 hText.2
    have hRead : WxString.fromUTF8 senderId ≠ [] := by
      intro hNil
      rw [hNil] at hBack
      exact hne hBack.symm
    exact (filedUnder_of_read hTrim hRead text w).1.trans hBack
  · have hMiss : ∀ s : WxString, WxString.utf8_str s ≠ senderId := by
      intro s hEq
      refine hText ⟨?_, ?_⟩
      · rw [← hEq]
        exact WxString.zero_not_mem_utf8_str s
      · rw [← hEq]
        exact WxString.isSome_decode?_utf8_str s
    by_cases hRead : WxString.fromUTF8 senderId = []
    · rw [filedUnder_of_unread hRead, Attributable]
      by_cases hBlank : WxString.fromUTF8 text = []
      · simp [hBlank, hRead]
      · simp [hBlank, hRead, hText, hMiss]
    · obtain ⟨hFiled, hKey⟩ := filedUnder_of_read hTrim hRead text w
      refine iff_of_false ?_ ?_
      · rintro (hNil | hSame)
        · exact hKey hNil
        · exact hMiss _ (hFiled.symm.trans hSame)
      · rintro (hValid | hUnread)
        · exact hText hValid
        · exact hRead hUnread.1

/-- A message is filed under its sender id or under no key, if and only if the id is
attributable in the state of the window. -/
theorem filed_under_sender_iff {payload senderId body : Bytes}
    (hParse : parseDhtMessagePayload payload = some (senderId, body)) (text : Bytes)
    (w : MainWindow) (now : WxString) :
    (∀ key, (w.onP2PMessageReceived sameItem (messageEvent senderId text) now).history key ≠
        w.history key → key = senderId) ↔ w.Attributable senderId text := by
  rw [← filedUnder_iff (trim_senderId hParse) (senderId_ne_nil hParse)]
  have hChanged (key : Bytes) :
      (w.onP2PMessageReceived sameItem (messageEvent senderId text) now).history key ≠
          w.history key ↔
        key ≠ [] ∧ key = w.filedUnder (messageEvent senderId text) := by
    rw [history_onP2PMessageReceived, ne_eq, List.append_right_eq_self]
    simp
  constructor
  · intro hKeys
    by_cases hNil : w.filedUnder (messageEvent senderId text) = []
    · exact Or.inl hNil
    · exact Or.inr (hKeys _ ((hChanged _).mpr ⟨hNil, rfl⟩))
  · intro hFiled key hKey
    obtain ⟨hNil, rfl⟩ := (hChanged key).mp hKey
    exact hFiled.resolve_left hNil

theorem alice_filed_under_alice :
    parseDhtMessagePayload (bytes "alice" ++ 0x1F :: bytes "body") =
        some (bytes "alice", bytes "body") ∧
      ∀ key, (({} : MainWindow).onP2PMessageReceived (· == ·)
        (messageEvent (bytes "alice") (bytes "hello")) (wxT "12:00:00")).history key ≠
          ({} : MainWindow).history key → key = bytes "alice" := by
  have hParse : parseDhtMessagePayload (bytes "alice" ++ 0x1F :: bytes "body") =
      some (bytes "alice", bytes "body") := by decide +kernel
  have hText : ({} : MainWindow).Attributable (bytes "alice") (bytes "hello") := by decide +kernel
  exact ⟨hParse,
    (filed_under_sender_iff (· == ·) hParse (bytes "hello") {} (wxT "12:00:00")).mpr hText⟩

/-- The id `alice` followed by a zero byte is filed under `alice`. -/
theorem zero_suffix_filed_under_alice :
    parseDhtMessagePayload (bytes "alice" ++ 0 :: 0x1F :: bytes "body") =
        some (bytes "alice" ++ [0], bytes "body") ∧
      ¬ ∀ key, (({} : MainWindow).onP2PMessageReceived (· == ·)
        (messageEvent (bytes "alice" ++ [0]) (bytes "hello")) (wxT "12:00:00")).history key ≠
          ({} : MainWindow).history key → key = bytes "alice" ++ [0] := by
  constructor
  · decide +kernel
  · intro hKeys
    have hChanged : (({} : MainWindow).onP2PMessageReceived (· == ·)
        (messageEvent (bytes "alice" ++ [0]) (bytes "hello")) (wxT "12:00:00")).history
          (bytes "alice") ≠ ({} : MainWindow).history (bytes "alice") := by decide +kernel
    have hOther : bytes "alice" ≠ bytes "alice" ++ [0] := by decide +kernel
    exact hOther (hKeys _ hChanged)

/-! ## Runs of the window -/

/-- The entries that an event adds to a conversation. -/
def newEntries (w : MainWindow) (e : WxString × WindowEvent) (key : Bytes) : List ChatEntry :=
  match e.2 with
  | .send =>
    let peerId := WxString.trimLeft (trimRight w.peerIdInput)
    if peerId = [] ∨ w.messageInput = [] ∨ key = [] ∨ key ≠ WxString.utf8_str peerId then []
    else [⟨.outgoing, peerId, w.messageInput, e.1⟩]
  | .thread (.messageReceived event) _ _ =>
    if key = [] ∨ key ≠ w.filedUnder event then []
    else [⟨.incoming, w.sender event, (parseMessageReceivedEvent event).2, e.1⟩]
  | _ => []

theorem newEntries_eq (w : MainWindow) (e : WxString × WindowEvent) (key : Bytes) :
    w.newEntries e key = (w.message e).filterMap (entryOf key) := by
  obtain ⟨now, e⟩ := e
  cases e with
  | send =>
    show (if w.recipient = [] ∨ w.messageInput = [] ∨ key = [] ∨
        key ≠ WxString.utf8_str w.recipient then ([] : List ChatEntry)
      else [⟨.outgoing, w.recipient, w.messageInput, now⟩]) = _
    simp only [message]
    by_cases hKey : WxString.utf8_str w.recipient = []
    · by_cases hNil : key = []
      · simp [hNil, hKey]
      · simp [hNil, hKey]
    · by_cases hBlank : w.recipient = [] ∨ w.messageInput = []
      · rcases hBlank with hBlank | hBlank <;> simp [hBlank]
      · rw [not_or] at hBlank
        simp only [hBlank.1, hBlank.2, hKey, or_self, if_false, false_or]
        exact (filterMap_entryOf hKey key _).symm
  | thread event localPeerId localPort =>
    cases event with
    | messageReceived event =>
      simp only [newEntries, message]
      by_cases hKey : w.filedUnder event = []
      · by_cases hNil : key = []
        · simp [hNil, hKey]
        · simp [hNil, hKey]
      · rw [if_neg hKey]
        exact (filterMap_entryOf hKey key _).symm
    | _ => rfl
  | _ => rfl

/-- Conversations only grow, and only by a message sent or received. -/
theorem step_history (w : MainWindow) (e : WxString × WindowEvent) (key : Bytes) :
    (w.step sameItem e).history key = w.history key ++ w.newEntries e key := by
  rw [step_conversation, newEntries_eq]

/-- A message event of the step is one that the node queues, attributable in the state. -/
def ReceivesAttributable (w : MainWindow) (e : WxString × WindowEvent) : Prop :=
  match e.2 with
  | .thread (.messageReceived event) _ _ =>
    ∃ senderId text, event = messageEvent senderId text ∧ trim isSpace senderId = senderId ∧
      senderId ≠ [] ∧ w.Attributable senderId text
  | _ => True

/-- Along such a run every incoming entry of a conversation is a message of its peer: two
senders never share a conversation. -/
theorem incoming_entry_has_sender {es : List (WxString × WindowEvent)}
    (h : Along (step sameItem) ReceivesAttributable {} es) {key : Bytes} {entry : ChatEntry}
    (hEntry : entry ∈ (run (step sameItem) {} es).history key) (hKind : entry.kind = .incoming) :
    ∃ pre e post text localPeerId localPort, es = pre ++ e :: post ∧
      e.2 = .thread (UiEvent.messageReceived key text).queued localPeerId localPort := by
  have hHistory := mem_history (f := fun w : MainWindow => w.history key)
    (fun w e => step_history sameItem w e key) hEntry
  rcases hHistory with hStart | ⟨pre, e, post, rfl, hNew⟩
  · cases hStart
  · have hStep : ReceivesAttributable (run (step sameItem) {} pre) e := Along.at h
    obtain ⟨now, e⟩ := e
    unfold newEntries at hNew
    split at hNew
    · dsimp only at hNew
      split at hNew
      · cases hNew
      · rw [List.mem_singleton.mp hNew] at hKind
        cases hKind
    · rename_i event localPeerId localPort hEvent
      split at hNew
      · cases hNew
      · rename_i hKey
        simp only [not_or, not_not] at hKey
        unfold ReceivesAttributable at hStep
        rw [hEvent] at hStep
        obtain ⟨senderId, text, rfl, hTrim, hne, hAttributable⟩ := hStep
        rcases (filedUnder_iff hTrim hne text _).mpr hAttributable with hNil | hSender
        · exact absurd (hKey.2.trans hNil) hKey.1
        · obtain rfl : key = senderId := hKey.2.trans hSender
          refine ⟨pre, _, post, text, localPeerId, localPort, rfl, ?_⟩
          rw [queued_messageReceived]
          exact hEvent
    · cases hNew

end MainWindow

end P2PMessenger
