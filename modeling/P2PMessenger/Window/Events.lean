import P2PMessenger.Node.State
import P2PMessenger.Text.Utf8

/-!
# Events between the node and the window

`P2PWxEvents.h` and the queueing methods of the node. A `wxString` is a list of characters.
`wxString::FromUTF8` gives the empty string for bytes that are not UTF-8; without a length it
reads a C string.
-/

namespace P2PMessenger

open Text

abbrev WxString := List Char

/-- A literal `wxT("…")`. -/
def wxT (s : String) : WxString := s.toList

namespace WxString

/-- `FromUTF8` with a length. -/
def fromUTF8Sized (b : Bytes) : WxString := (decode? b).getD []

def fromUTF8 (b : Bytes) : WxString := fromUTF8Sized (cString b)

/-- `std::string(s.utf8_str())`, which is read as a C string. -/
def utf8_str (s : WxString) : Bytes := cString (encode s)

def trimLeft (s : WxString) : WxString := s.dropWhile isSpaceChar

end WxString

/-- A message event: `P2PMessageThreadEvent` carries its texts as bytes, the older form one
string. -/
inductive MessageEvent where
  | data (fromPeerId text : Bytes) (string : WxString)
  | legacy (string : WxString)
  deriving DecidableEq

inductive ThreadEvent where
  | messageReceived (event : MessageEvent)
  | peerFound (string : WxString)
  | networkStatus (string : WxString)
  | error (string : WxString)
  deriving DecidableEq

namespace P2PNode

def queueMessageEventToUi (fromPeerId text : Bytes) : ThreadEvent :=
  .messageReceived (.data fromPeerId text (WxString.fromUTF8 fromPeerId))

def queuePeerFoundEventToUi (peerId : Bytes) : ThreadEvent :=
  .peerFound (WxString.fromUTF8Sized peerId)

def queueNetworkStatusEventToUi (status : Bytes) : ThreadEvent :=
  .networkStatus (WxString.fromUTF8Sized status)

def queueErrorEventToUi (code message : Bytes) : ThreadEvent :=
  .error (WxString.fromUTF8Sized code ++ wxT "|" ++ WxString.fromUTF8Sized message)

end P2PNode

/-- The event that a notification of the node queues. -/
def UiEvent.queued : UiEvent → ThreadEvent
  | .messageReceived fromPeerId text => P2PNode.queueMessageEventToUi fromPeerId text
  | .peerFound peerId => P2PNode.queuePeerFoundEventToUi peerId
  | .networkStatus status => P2PNode.queueNetworkStatusEventToUi status
  | .error code message => P2PNode.queueErrorEventToUi code message

/-- The sender and the text of a message event. The older form is split at its first pipe, or
at its first colon if it has no pipe. -/
def parseMessageReceivedEvent : MessageEvent → WxString × WxString
  | .data fromPeerId text _ => (WxString.fromUTF8 fromPeerId, WxString.fromUTF8 text)
  | .legacy string =>
    let payload := WxString.utf8_str string
    match (cutFirst pipe payload).or (cutFirst 58 payload) with
    | none => (string, [])
    | some (fromPeer, text) =>
      if fromPeer ≠ [] then (WxString.fromUTF8 fromPeer, WxString.fromUTF8 text) else (string, [])

/-- The code and the message of an error event. -/
def parseP2PErrorEvent (payload : WxString) : WxString × WxString :=
  match cutFirst '|' payload with
  | none => (wxT "UNKNOWN", payload)
  | some (code, message) => (code, message)

end P2PMessenger
