import P2PMessenger.Text.Utf8
import P2PMessenger.Types

/-!
# JSON values and their library

The values of `nlohmann::json` that the message storage builds and reads. The members of an
object are listed in the order in which their keys were set; nothing reads that order.
Printing and parsing belong to the library: `JsonLibrary` has what the storage relies on,
over any type of texts.
-/

namespace P2PMessenger.Storage

open Text

inductive Json where
  | null
  | boolean (value : Bool)
  | integer (value : Int)
  | string (value : Bytes)
  | array (elements : List Json)
  | object (members : List (String × Json))

inductive StorageError where
  | typeError
  | runtimeError (what : Bytes)
  | filesystemError
  deriving DecidableEq, Repr

namespace Json

/-! ## Building a value -/

def insertMember (key : String) (value : Json) : List (String × Json) → List (String × Json)
  | [] => [(key, value)]
  | (k, v) :: rest =>
    if key = k then (key, value) :: rest else (k, v) :: insertMember key value rest

/-- `j[key] = value`; a null becomes an object. -/
def set (j : Json) (key : String) (value : Json) : Except StorageError Json :=
  match j with
  | null => .ok (object [(key, value)])
  | object members => .ok (object (insertMember key value members))
  | _ => .error .typeError

/-- `push_back`; a null becomes an array. -/
def pushBack (j element : Json) : Except StorageError Json :=
  match j with
  | null => .ok (array [element])
  | array elements => .ok (array (elements ++ [element]))
  | _ => .error .typeError

/-! ## Reading a value -/

/-- `j[key]` on a constant, which has to be an object with the key. -/
def get (j : Json) (key : String) : Except StorageError Json :=
  match j with
  | object members =>
    match members.lookup key with
    | some value => .ok value
    | none => .error .typeError
  | _ => .error .typeError

def getString : Json → Except StorageError Bytes
  | string value => .ok value
  | _ => .error .typeError

def getInteger : Json → Except StorageError Int
  | integer value => .ok value
  | _ => .error .typeError

def getBoolean : Json → Except StorageError Bool
  | boolean value => .ok value
  | _ => .error .typeError

/-- `j == text` -/
def eqString (text : Bytes) : Json → Bool
  | string value => value = text
  | _ => false

/-- What a `for` over the value visits. -/
def elements : Json → List Json
  | null => []
  | array elements => elements
  | object members => members.map Prod.snd
  | j => [j]

/-! ## Texts that can be printed -/

mutual

/-- Every string in the value is UTF-8. -/
def validUtf8 : Json → Bool
  | string value => (decode? value).isSome
  | array elements => validElements elements
  | object members => validMembers members
  | null | boolean _ | integer _ => true

def validElements : List Json → Bool
  | [] => true
  | element :: rest => validUtf8 element && validElements rest

def validMembers : List (String × Json) → Bool
  | [] => true
  | (_, value) :: rest => validUtf8 value && validMembers rest

end

theorem validElements_eq_all (elements : List Json) :
    validElements elements = elements.all validUtf8 := by
  induction elements with
  | nil => rfl
  | cons element rest ih => rw [validElements, ih, List.all_cons]

end Json

/-- Printing (`dump(4)`) and parsing (`>>`). Printing raises `type_error` exactly on a string
that is not UTF-8, a printed value parses to itself, and an empty text raises `parse_error`. -/
structure JsonLibrary where
  JsonText : Type
  empty : JsonText
  dump : Json → Option JsonText
  parse : JsonText → Option Json
  dump_isSome : ∀ j, (dump j).isSome = j.validUtf8
  parse_dump : ∀ j text, dump j = some text → parse text = some j
  parse_empty : parse empty = none

/-- Texts up to what they parse to. -/
def JsonLibrary.parsed : JsonLibrary where
  JsonText := Option Json
  empty := none
  dump := fun j => if j.validUtf8 then some (some j) else none
  parse := fun text => text
  dump_isSome := by
    intro j
    cases j.validUtf8 <;> rfl
  parse_dump := by
    intro j text h
    split at h
    · exact (Option.some.inj h).symm
    · cases h
  parse_empty := rfl

end P2PMessenger.Storage
