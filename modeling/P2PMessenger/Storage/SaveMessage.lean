import P2PMessenger.Storage.MessageStorage
import P2PMessenger.Run.Trace

/-!
# What saving a message keeps

A reachable file reads as the entries of a list of messages whose texts are UTF-8 (`Holds`).
Saving either leaves the file, or appends the message, or empties the file: `writeFile` has
opened it when `dump` meets a text that is not UTF-8.
-/

namespace P2PMessenger.Storage

open Text Run

/-- The texts of the message can be printed. -/
def ValidTexts (message : ChatMessage) : Bool :=
  (decode? message.messageId).isSome && (decode? message.senderId).isSome &&
    (decode? message.receiverId).isSome && (decode? message.plaintext).isSome

/-- What a file with these messages reads as. -/
def stored (messages : List ChatMessage) : Json := .array (messages.map entryOf)

theorem validUtf8_entryOf (message : ChatMessage) :
    (entryOf message).validUtf8 = ValidTexts message := by
  simp only [entryOf, Json.validUtf8, Json.validMembers, ValidTexts, Bool.and_true]
  cases (decode? message.messageId).isSome <;> cases (decode? message.senderId).isSome <;>
    cases (decode? message.receiverId).isSome <;> cases (decode? message.plaintext).isSome <;> rfl

theorem validUtf8_stored (messages : List ChatMessage) :
    (stored messages).validUtf8 = messages.all ValidTexts := by
  rw [stored, Json.validUtf8, Json.validElements_eq_all, List.all_map]
  exact congrArg messages.all (funext validUtf8_entryOf)

theorem mapM_readEntry (messages : List ChatMessage) :
    (messages.map entryOf).mapM readEntry = .ok messages := by
  induction messages with
  | nil => rfl
  | cons message rest ih =>
    rw [List.map_cons, List.mapM_cons, readEntry_entryOf, ih]
    rfl

theorem hasMessageId_map_entryOf (messageId : Bytes) (messages : List ChatMessage) :
    hasMessageId messageId (messages.map entryOf) =
      .ok (messages.any fun message => message.messageId = messageId) := by
  induction messages with
  | nil => rfl
  | cons message rest ih =>
    have hGet : (entryOf message).get "messageId" = .ok (.string message.messageId) := by
      simp [entryOf, Json.get]
    rw [List.map_cons, hasMessageId, hGet]
    simp only [bind, Except.bind, Json.getString, List.any_cons]
    by_cases hSame : message.messageId = messageId
    · simp [hSame]
    · simp [hSame, ih]

theorem entriesOf_map_entryOf (contactId : Bytes) (messages : List ChatMessage) :
    entriesOf contactId (messages.map entryOf) =
      .ok (messages.filter fun m => m.senderId = contactId ∨ m.receiverId = contactId) := by
  induction messages with
  | nil => rfl
  | cons message rest ih =>
    have hSender : (entryOf message).get "senderId" = .ok (.string message.senderId) := by
      simp [entryOf, Json.get, List.lookup_cons]
    have hReceiver : (entryOf message).get "receiverId" = .ok (.string message.receiverId) := by
      simp [entryOf, Json.get, List.lookup_cons]
    rw [List.map_cons, entriesOf, hSender, hReceiver]
    simp only [bind, Except.bind, Json.eqString, readEntry_entryOf, ih]
    by_cases hContact : message.senderId = contactId ∨ message.receiverId = contactId
    · simp [hContact, pure, Except.pure]
    · simp [hContact]

namespace MessageStorage

variable {lib : JsonLibrary}

/-- The file reads as these messages, and they were printed once. -/
structure Holds (s : MessageStorage lib) (messages : List ChatMessage) : Prop where
  readFile : s.readFile true = stored messages
  valid : messages.all ValidTexts = true

theorem holds_new (filePath : Bytes) : ({ filePath := filePath } : MessageStorage lib).Holds [] :=
  ⟨rfl, rfl⟩

theorem Holds.loadAll {s : MessageStorage lib} {messages : List ChatMessage}
    (h : s.Holds messages) : s.loadAll true = .ok messages := by
  rw [MessageStorage.loadAll, h.readFile]
  exact mapM_readEntry messages

theorem Holds.loadHistory {s : MessageStorage lib} {messages : List ChatMessage}
    (h : s.Holds messages) (contactId : Bytes) :
    s.loadHistory true contactId =
      .ok (messages.filter fun m => m.senderId = contactId ∨ m.receiverId = contactId) := by
  rw [MessageStorage.loadHistory, h.readFile]
  exact entriesOf_map_entryOf contactId messages

theorem Holds.messageExists {s : MessageStorage lib} {messages : List ChatMessage}
    (h : s.Holds messages) (messageId : Bytes) :
    s.messageExists true messageId =
      .ok (messages.any fun message => message.messageId = messageId) := by
  rw [MessageStorage.messageExists, h.readFile]
  exact hasMessageId_map_entryOf messageId messages

/-- Whether a stream opens or not, what is read is a list of stored messages. -/
theorem Holds.readFile_eq {s : MessageStorage lib} {messages : List ChatMessage}
    (h : s.Holds messages) (opens : Bool) :
    s.readFile opens = stored (if opens then messages else []) := by
  cases opens with
  | true => exact h.readFile
  | false =>
    unfold MessageStorage.readFile
    split <;> rfl

/-- A write that opens the file leaves what was printed, or nothing. -/
theorem writeFile_stored (s : MessageStorage lib) (messages : List ChatMessage) :
    if messages.all ValidTexts then
      (s.writeFile true (stored messages)).1 = .ok () ∧
        (s.writeFile true (stored messages)).2.Holds messages
    else
      (s.writeFile true (stored messages)).1 = .error .typeError ∧
        (s.writeFile true (stored messages)).2.Holds [] := by
  have hDump : (lib.dump (stored messages)).isSome = messages.all ValidTexts :=
    (lib.dump_isSome _).trans (validUtf8_stored messages)
  cases hText : lib.dump (stored messages) with
  | none =>
    rw [hText] at hDump
    rw [← hDump]
    have hWrite : s.writeFile true (stored messages) =
        (.error .typeError, { s with file := some lib.empty }) := by simp [writeFile, hText]
    rw [hWrite]
    refine ⟨rfl, ?_, rfl⟩
    simp [MessageStorage.readFile, lib.parse_empty, stored]
  | some text =>
    rw [hText] at hDump
    rw [← hDump]
    have hWrite : s.writeFile true (stored messages) = (.ok (), { s with file := some text }) := by
      simp [writeFile, hText]
    rw [hWrite]
    refine ⟨rfl, ?_, hDump.symm⟩
    simp [MessageStorage.readFile, lib.parse_dump _ _ hText]

theorem Holds.saveMessage_eq {s : MessageStorage lib} {messages : List ChatMessage}
    (h : s.Holds messages) (streams : SaveStreams) (message : ChatMessage) :
    s.saveMessage streams message =
      if (if streams.existsOpens then messages else []).any
          fun m => m.messageId = message.messageId then (.ok (), s)
      else s.writeFile streams.writeOpens
        (stored ((if streams.readOpens then messages else []) ++ [message])) := by
  have hExists : s.messageExists streams.existsOpens message.messageId =
      .ok ((if streams.existsOpens then messages else []).any
        fun m => m.messageId = message.messageId) := by
    rw [MessageStorage.messageExists, h.readFile_eq]
    exact hasMessageId_map_entryOf _ _
  have hAppend : newEntry message >>= (s.readFile streams.readOpens).pushBack =
      .ok (stored ((if streams.readOpens then messages else []) ++ [message])) := by
    rw [newEntry_eq, h.readFile_eq]
    simp [bind, Except.bind, stored, Json.pushBack]
  unfold MessageStorage.saveMessage
  rw [hExists]
  split
  · rename_i hCase
    cases hCase
  · rename_i hCase
    rw [if_pos (Except.ok.inj hCase)]
  · rename_i hCase
    rw [if_neg (by rw [Except.ok.inj hCase]; exact Bool.false_ne_true), hAppend]

theorem Holds.writeFile {s : MessageStorage lib} {messages : List ChatMessage}
    (h : s.Holds messages) (opens : Bool) (more : List ChatMessage) :
    ∃ left, (s.writeFile opens (stored more)).2.Holds left := by
  cases opens with
  | false => exact ⟨messages, h⟩
  | true =>
    have hWrite := writeFile_stored s more
    split at hWrite
    · exact ⟨more, hWrite.2⟩
    · exact ⟨[], hWrite.2⟩

/-- Every call leaves a file that reads as stored messages. -/
theorem Holds.step {s : MessageStorage lib} {messages : List ChatMessage} (h : s.Holds messages)
    (call : StorageCall) : ∃ left, (s.step call).Holds left := by
  cases call with
  | create directoryExists writeOpens =>
    simp only [MessageStorage.step, MessageStorage.create]
    split
    · exact ⟨messages, h⟩
    · split
      · exact h.writeFile writeOpens []
      · exact ⟨messages, h⟩
  | saveMessage streams message =>
    rw [MessageStorage.step, h.saveMessage_eq]
    by_cases hSeen : ((if streams.existsOpens then messages else []).any
        fun m => m.messageId = message.messageId) = true
    · rw [if_pos hSeen]
      exact ⟨messages, h⟩
    · rw [if_neg hSeen]
      exact h.writeFile _ _

theorem holds_run (lib : JsonLibrary) (filePath : Bytes) (calls : List StorageCall) :
    ∃ messages, (run MessageStorage.step ({ filePath := filePath } : MessageStorage lib)
      calls).Holds messages := by
  apply run_invariant (I := fun s : MessageStorage lib => ∃ messages, s.Holds messages)
  · intro s call hHolds
    obtain ⟨messages, h⟩ := hHolds
    exact h.step call
  · exact ⟨[], holds_new filePath⟩

/-- After `saveMessage`, with all streams open, `loadAll` gives the list of before or that list
with the message; if the call throws, the list of before. -/
def KeepsHistory (s : MessageStorage lib) (message : ChatMessage) : Prop :=
  ∃ previous, s.loadAll true = .ok previous ∧
    ((s.saveMessage {} message).2.loadAll true = .ok previous ∨
      (s.saveMessage {} message).2.loadAll true = .ok (previous ++ [message])) ∧
    ∀ error, (s.saveMessage {} message).1 = .error error →
      (s.saveMessage {} message).2.loadAll true = .ok previous

/-- In every reachable state the history survives a save, if and only if the message is a
duplicate, its texts are UTF-8, or there is no history. -/
theorem keepsHistory_iff (lib : JsonLibrary) (filePath : Bytes) (calls : List StorageCall)
    (message : ChatMessage) :
    let s := run MessageStorage.step ({ filePath := filePath } : MessageStorage lib) calls
    s.KeepsHistory message ↔
      s.messageExists true message.messageId = .ok true ∨ ValidTexts message = true ∨
        s.loadAll true = .ok [] := by
  intro s
  obtain ⟨messages, hHolds⟩ := holds_run lib filePath calls
  have h : s.Holds messages := hHolds
  have hSave := h.saveMessage_eq {} message
  have hWrite := writeFile_stored s (messages ++ [message])
  simp only [if_true] at hSave
  rw [h.messageExists, h.loadAll]
  cases hExists : messages.any fun m => m.messageId = message.messageId with
  | true =>
    rw [if_pos hExists] at hSave
    refine iff_of_true ⟨messages, h.loadAll, ?_⟩ (Or.inl rfl)
    rw [hSave]
    exact ⟨Or.inl h.loadAll, fun _ _ => h.loadAll⟩
  | false =>
    rw [if_neg (by rw [hExists]; exact Bool.false_ne_true)] at hSave
    have hAll : (messages ++ [message]).all ValidTexts = ValidTexts message := by
      rw [List.all_append, h.valid]
      simp
    rw [hAll] at hWrite
    cases hValid : ValidTexts message with
    | true =>
      rw [hValid, if_pos rfl] at hWrite
      refine iff_of_true ⟨messages, h.loadAll, ?_⟩ (Or.inr (Or.inl rfl))
      rw [hSave]
      refine ⟨Or.inr hWrite.2.loadAll, ?_⟩
      intro error hError
      rw [hWrite.1] at hError
      cases hError
    | false =>
      rw [hValid, if_neg Bool.false_ne_true] at hWrite
      -- the file was emptied: only an empty history survives
      constructor
      · rintro ⟨previous, hPrevious, -, hThrows⟩
        rw [hSave] at hThrows
        have hEmpty : Except.ok [] = Except.ok previous :=
          hWrite.2.loadAll.symm.trans (hThrows _ hWrite.1)
        rw [h.loadAll] at hPrevious
        exact Or.inr (Or.inr (hPrevious.trans hEmpty.symm))
      · intro hCase
        have hNil : messages = [] := by simpa using hCase
        refine ⟨messages, h.loadAll, ?_⟩
        rw [hSave, hNil]
        rw [hNil] at hWrite
        exact ⟨Or.inl hWrite.2.loadAll, fun _ _ => hWrite.2.loadAll⟩

def firstMessage : ChatMessage :=
  { messageId := bytes "1", senderId := bytes "bob", receiverId := bytes "alice",
    plaintext := bytes "hello", timestamp := 43200, incoming := true }

/-- A text that Bob's peer can decrypt and `dump` cannot print. -/
def secondMessage : ChatMessage :=
  { firstMessage with messageId := bytes "2", plaintext := [0xFF] }

/-- Saving the second message throws, and the first one is gone. -/
theorem history_lost_by_second_message :
    ¬ (run MessageStorage.step
      ({ filePath := bytes "data/messages.json" } : MessageStorage JsonLibrary.parsed)
      [.create true true, .saveMessage {} firstMessage]).KeepsHistory secondMessage := by
  intro hKeeps
  obtain ⟨previous, hPrevious, -, hThrows⟩ := hKeeps
  have hBefore : (run MessageStorage.step
      ({ filePath := bytes "data/messages.json" } : MessageStorage JsonLibrary.parsed)
      [.create true true, .saveMessage {} firstMessage]).loadAll true = .ok [firstMessage] := by
    decide +kernel
  have hSaved := hThrows .typeError (by decide +kernel)
  rw [← hPrevious, hBefore] at hSaved
  revert hSaved
  decide +kernel

end MessageStorage

end P2PMessenger.Storage
