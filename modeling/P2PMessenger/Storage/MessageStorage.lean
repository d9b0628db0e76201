import P2PMessenger.Storage.Json

/-!
# The message storage

`MessageStorage.cpp`, method by method, over the file it was given. A stream opens or not as
the caller says; an absent file never opens for reading. `writeFile` empties the file when it
opens it and prints the value afterwards.
-/

namespace P2PMessenger.Storage

open Text

/-- The storage with its file; `none` is no file. -/
structure MessageStorage (lib : JsonLibrary) where
  filePath : Bytes
  file : Option lib.JsonText := none

/-- Which of the streams of `saveMessage` open: of the two reads and of the write. -/
structure SaveStreams where
  existsOpens : Bool := true
  readOpens : Bool := true
  writeOpens : Bool := true

/-- The object that `saveMessage` builds, one key after the other. -/
def newEntry (message : ChatMessage) : Except StorageError Json := do
  let entry := Json.null
  let entry ← entry.set "messageId" (.string message.messageId)
  let entry ← entry.set "senderId" (.string message.senderId)
  let entry ← entry.set "receiverId" (.string message.receiverId)
  let entry ← entry.set "plaintext" (.string message.plaintext)
  let entry ← entry.set "timestamp" (.integer message.timestamp)
  entry.set "incoming" (.boolean message.incoming)

/-- The message that a loop of `loadAll` or `loadHistory` reads from an entry. -/
def readEntry (entry : Json) : Except StorageError ChatMessage := do
  let messageId ← (← entry.get "messageId").getString
  let senderId ← (← entry.get "senderId").getString
  let receiverId ← (← entry.get "receiverId").getString
  let plaintext ← (← entry.get "plaintext").getString
  let timestamp ← (← entry.get "timestamp").getInteger
  let incoming ← (← entry.get "incoming").getBoolean
  return { messageId, senderId, receiverId, plaintext, timestamp, incoming }

/-- The loop of `messageExists`. -/
def hasMessageId (messageId : Bytes) : List Json → Except StorageError Bool
  | [] => .ok false
  | entry :: rest => do
    let stored ← (← entry.get "messageId").getString
    if stored = messageId then .ok true else hasMessageId messageId rest

/-- The loop of `loadHistory`. -/
def entriesOf (contactId : Bytes) : List Json → Except StorageError (List ChatMessage)
  | [] => .ok []
  | entry :: rest => do
    let isFromContact := (← entry.get "senderId").eqString contactId
    let isToContact := (← entry.get "receiverId").eqString contactId
    if isFromContact || isToContact then
      let message ← readEntry entry
      return message :: (← entriesOf contactId rest)
    else entriesOf contactId rest

namespace MessageStorage

variable {lib : JsonLibrary}

def readFile (s : MessageStorage lib) (opens : Bool) : Json :=
  match s.file with
  | none => .array []
  | some text => if opens then (lib.parse text).getD (.array []) else .array []

def writeFile (s : MessageStorage lib) (opens : Bool) (data : Json) :
    Except StorageError Unit × MessageStorage lib :=
  if !opens then (.error (.runtimeError (bytes "Cannot write to: " ++ s.filePath)), s)
  else
    -- the stream has emptied the file by the time the value is printed
    let s := { s with file := some lib.empty }
    match lib.dump data with
    | none => (.error .typeError, s)
    | some text => (.ok (), { s with file := some text })

/-- The constructor, on the file that is at the path. -/
def create (s : MessageStorage lib) (directoryExists writeOpens : Bool) :
    Except StorageError Unit × MessageStorage lib :=
  if !directoryExists then (.error .filesystemError, s)
  else
    match s.file with
    | none => s.writeFile writeOpens (.array [])
    | some _ => (.ok (), s)

def messageExists (s : MessageStorage lib) (opens : Bool) (messageId : Bytes) :
    Except StorageError Bool :=
  hasMessageId messageId (s.readFile opens).elements

def saveMessage (s : MessageStorage lib) (streams : SaveStreams) (message : ChatMessage) :
    Except StorageError Unit × MessageStorage lib :=
  match s.messageExists streams.existsOpens message.messageId with
  | .error error => (.error error, s)
  | .ok true => (.ok (), s)
  | .ok false =>
    match newEntry message >>= (s.readFile streams.readOpens).pushBack with
    | .error error => (.error error, s)
    | .ok all => s.writeFile streams.writeOpens all

def loadAll (s : MessageStorage lib) (opens : Bool) : Except StorageError (List ChatMessage) :=
  (s.readFile opens).elements.mapM readEntry

def loadHistory (s : MessageStorage lib) (opens : Bool) (contactId : Bytes) :
    Except StorageError (List ChatMessage) :=
  entriesOf contactId (s.readFile opens).elements

end MessageStorage

/-- The calls that can change the file. -/
inductive StorageCall where
  | create (directoryExists writeOpens : Bool)
  | saveMessage (streams : SaveStreams) (message : ChatMessage)

def MessageStorage.step {lib : JsonLibrary} (s : MessageStorage lib) :
    StorageCall → MessageStorage lib
  | .create directoryExists writeOpens => (s.create directoryExists writeOpens).2
  | .saveMessage streams message => (s.saveMessage streams message).2

/-! ## Entries -/

/-- The entry of a message. -/
def entryOf (message : ChatMessage) : Json :=
  .object [("messageId", .string message.messageId), ("senderId", .string message.senderId),
    ("receiverId", .string message.receiverId), ("plaintext", .string message.plaintext),
    ("timestamp", .integer message.timestamp), ("incoming", .boolean message.incoming)]

theorem newEntry_eq (message : ChatMessage) : newEntry message = .ok (entryOf message) := by
  simp [newEntry, entryOf, Json.set, Json.insertMember, bind, Except.bind]

theorem readEntry_entryOf (message : ChatMessage) : readEntry (entryOf message) = .ok message := by
  simp [readEntry, entryOf, Json.get, List.lookup_cons, Json.getString, Json.getInteger,
    Json.getBoolean, bind, Except.bind, pure, Except.pure]

end P2PMessenger.Storage
