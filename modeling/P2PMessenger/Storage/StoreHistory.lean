import P2PMessenger.Storage.SaveMessage

/-!
# The storage over a history of calls

As long as an existing file can be read and the saved texts are UTF-8, the file holds the
first message of each message id, in the order in which they were saved. Writes may fail:
a call that throws saves nothing.
-/

namespace P2PMessenger.Storage

open Text Run

/-- A call whose reads find the file and whose message can be printed. -/
def StorageCall.Proper : StorageCall → Prop
  | .create _ _ => True
  | .saveMessage streams message =>
    streams.existsOpens = true ∧ streams.readOpens = true ∧ ValidTexts message = true

/-- The message that a call hands to the storage, unless the file does not open for it. -/
def StorageCall.saved : StorageCall → Option ChatMessage
  | .create _ _ => none
  | .saveMessage streams message => if streams.writeOpens then some message else none

/-- The first message of each id. -/
def kept (calls : List StorageCall) : List ChatMessage :=
  firstBy ChatMessage.messageId (calls.filterMap StorageCall.saved)

/-- A save keeps its message unless the id was saved before or the write fails. -/
theorem kept_saveMessage (calls : List StorageCall) (streams : SaveStreams)
    (message : ChatMessage) :
    kept (calls ++ [.saveMessage streams message]) =
      if message.messageId ∈ (kept calls).map ChatMessage.messageId ∨ streams.writeOpens = false
      then kept calls else kept calls ++ [message] := by
  cases hWrite : streams.writeOpens with
  | false => simp [kept, StorageCall.saved, hWrite]
  | true =>
    have hSaved :
        (calls ++ [StorageCall.saveMessage streams message]).filterMap StorageCall.saved =
          calls.filterMap StorageCall.saved ++ [message] := by
      simp [StorageCall.saved, hWrite]
    have hIds : message.messageId ∈ (kept calls).map ChatMessage.messageId ↔
        message.messageId ∈ (calls.filterMap StorageCall.saved).map ChatMessage.messageId :=
      mem_map_firstBy
    rw [kept, hSaved, firstBy_append_singleton]
    by_cases hOld : message.messageId ∈ (kept calls).map ChatMessage.messageId
    · rw [if_pos (hIds.mp hOld), if_pos (Or.inl hOld), kept]
    · rw [if_neg (hOld ∘ hIds.mpr), if_neg (by simp [hOld]), kept]

namespace MessageStorage

variable {lib : JsonLibrary}

/-- Creating the storage again leaves the messages. -/
theorem Holds.create {s : MessageStorage lib} {messages : List ChatMessage} (h : s.Holds messages)
    (directoryExists writeOpens : Bool) :
    (s.create directoryExists writeOpens).2.Holds messages := by
  unfold MessageStorage.create
  split
  · exact h
  · split
    · rename_i hFile
      -- without a file there are no messages
      have hStored : stored messages = .array [] := by
        rw [← h.readFile]
        simp [MessageStorage.readFile, hFile]
      have hNil : messages = [] := List.map_eq_nil_iff.mp (Json.array.inj hStored)
      subst hNil
      cases writeOpens with
      | false => exact h
      | true => exact (writeFile_stored s []).2
    · exact h

/-- A message with a new id is appended, if the file opens for writing. -/
theorem Holds.saveMessage {s : MessageStorage lib} {messages : List ChatMessage}
    (h : s.Holds messages) {streams : SaveStreams} {message : ChatMessage}
    (hProper : (StorageCall.saveMessage streams message).Proper) :
    (s.saveMessage streams message).2.Holds
      (if message.messageId ∈ messages.map ChatMessage.messageId ∨ streams.writeOpens = false
        then messages else messages ++ [message]) := by
  obtain ⟨hExists, hRead, hValid⟩ := hProper
  have hAny : (messages.any fun m => m.messageId = message.messageId) = true ↔
      message.messageId ∈ messages.map ChatMessage.messageId := by
    simp [List.any_eq_true]
  rw [h.saveMessage_eq, hExists, hRead, if_pos rfl]
  by_cases hOld : message.messageId ∈ messages.map ChatMessage.messageId
  · rw [if_pos (hAny.mpr hOld), if_pos (Or.inl hOld)]
    exact h
  · rw [if_neg (fun hTrue => hOld (hAny.mp hTrue))]
    cases hWrite : streams.writeOpens with
    | false =>
      rw [if_pos (Or.inr rfl)]
      exact h
    | true =>
      have hAll : (messages ++ [message]).all ValidTexts = true := by
        rw [List.all_append, h.valid]
        simp [hValid]
      have hStored := writeFile_stored s (messages ++ [message])
      rw [if_pos hAll] at hStored
      rw [if_neg (by simp [hOld])]
      exact hStored.2

/-- The file holds what was saved first under each id. -/
theorem holds_kept {filePath : Bytes} {calls : List StorageCall}
    (hCalls : ∀ call ∈ calls, call.Proper) :
    (run step ({ filePath := filePath } : MessageStorage lib) calls).Holds (kept calls) := by
  induction calls using List.reverseRecOn with
  | nil => exact holds_new filePath
  | append_singleton calls call ih =>
    have hPast : (run step ({ filePath := filePath } : MessageStorage lib) calls).Holds
        (kept calls) := ih fun c hMem => hCalls c (List.mem_append_left _ hMem)
    have hProper : call.Proper := hCalls call (by simp)
    rw [run_snoc]
    cases call with
    | create directoryExists writeOpens =>
      have hKept : kept (calls ++ [.create directoryExists writeOpens]) = kept calls := by
        rw [kept, List.filterMap_append]
        exact congrArg (firstBy _) (List.append_nil _)
      rw [hKept]
      exact hPast.create directoryExists writeOpens
    | saveMessage streams message =>
      rw [kept_saveMessage]
      exact hPast.saveMessage hProper

/-- After any such calls the storage reads as the messages whose id had not been saved
before, unchanged and in that order: all of them, one by id, and one contact's. -/
theorem reads_kept (lib : JsonLibrary) (filePath : Bytes) {calls : List StorageCall}
    (hCalls : ∀ call ∈ calls, call.Proper) :
    let s := run step ({ filePath := filePath } : MessageStorage lib) calls
    s.loadAll true = .ok (kept calls) ∧
      (kept calls).Sublist (calls.filterMap StorageCall.saved) ∧
      ((kept calls).map ChatMessage.messageId).Nodup ∧
      (∀ messageId, s.messageExists true messageId =
        .ok (decide (messageId ∈ (kept calls).map ChatMessage.messageId))) ∧
      ∀ contactId, s.loadHistory true contactId =
        .ok ((kept calls).filter fun m => m.senderId = contactId ∨ m.receiverId = contactId) := by
  intro s
  have h : s.Holds (kept calls) := holds_kept hCalls
  refine ⟨h.loadAll, firstBy_sublist _, nodup_map_firstBy _, ?_, h.loadHistory⟩
  intro messageId
  rw [h.messageExists]
  congr 1
  rw [Bool.eq_iff_iff]
  simp [List.any_eq_true]

/-- A second message under the first id is not kept. -/
theorem first_message_kept :
    (run step ({ filePath := bytes "data/messages.json" } : MessageStorage JsonLibrary.parsed)
      [.create true true, .saveMessage {} firstMessage, .create true true,
        .saveMessage {} { firstMessage with plaintext := bytes "bye" }]).loadAll true =
      .ok [firstMessage] := by
  have hCalls : ∀ call ∈ [StorageCall.create true true, .saveMessage {} firstMessage,
      .create true true, .saveMessage {} { firstMessage with plaintext := bytes "bye" }],
      call.Proper := by
    intro call hMem
    simp only [List.mem_cons, List.not_mem_nil, or_false] at hMem
    rcases hMem with rfl | rfl | rfl | rfl
    · trivial
    · exact ⟨rfl, rfl, by decide +kernel⟩
    · trivial
    · exact ⟨rfl, rfl, by decide +kernel⟩
  have hKept := (reads_kept JsonLibrary.parsed (bytes "data/messages.json") hCalls).1
  rw [hKept]
  decide +kernel

end MessageStorage

end P2PMessenger.Storage
