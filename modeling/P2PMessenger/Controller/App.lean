import P2PMessenger.Node.Step

/-!
# The controller

`AppController.cpp`, method by method: the facade between the window and the node. The id,
the port and the flag are members of the controller; the node keeps a copy of the first two.
`op` names the lookup that a call starts.
-/

namespace P2PMessenger

open Text Crypto

structure AppController where
  node : P2PNode := {}
  contacts : List Bytes := []
  peerId : Bytes := []
  port : Nat := 4222
  running : Bool := false

/-- The id that `configure` keeps. -/
def configuredId (peerId : Bytes) : Bytes := if peerId = [] then bytes "user1" else peerId

theorem configuredId_ne_nil (peerId : Bytes) : configuredId peerId ≠ [] := by
  unfold configuredId
  split
  · decide +kernel
  · assumption

/-- A default id needs no trimming, so only the given text matters. -/
theorem trim_configuredId {peerId : Bytes} (h : trim isSpace peerId = peerId) :
    trim isSpace (configuredId peerId) = configuredId peerId := by
  unfold configuredId
  split
  · decide +kernel
  · exact h

namespace AppController

def configure (a : AppController) (peerId : Bytes) (port : Nat) : AppController :=
  let a := { a with peerId := configuredId peerId, port := port }
  { a with node := a.node.setNodeConfig port a.peerId }

/-- The profile that `start` publishes. -/
def ownProfile (a : AppController) : UserProfile :=
  { userId := a.peerId, displayName := a.peerId,
    tcpEndpoint := bytes "127.0.0.1:" ++ decimal a.port }

def setBootstrapHost (a : AppController) (host : Bytes) : AppController :=
  { a with node := a.node.setBootstrapHost host }

def bootstrap (a : AppController) (host port : Bytes) : AppController :=
  { a with node := a.node.bootstrap host port }

/-- The condition on the bootstrap port under which `start` dials. -/
def Dials (bootstrapPort : Bytes) : Prop := bootstrapPort ≠ bytes "0" ∧ bootstrapPort ≠ []

instance (bootstrapPort : Bytes) : Decidable (Dials bootstrapPort) := by
  unfold Dials
  infer_instance

def start (a : AppController) (bootstrapHost bootstrapPort : Bytes) (io : StartInput) :
    AppController :=
  if a.running then a
  else
    let a := { a with node := a.node.startNode io }
    let profile := a.ownProfile
    let a := { a with node := a.node.publishProfile profile }
    let a :=
      if Dials bootstrapPort then
        -- the first publish may have found no peer in the DHT
        let a := a.bootstrap bootstrapHost bootstrapPort
        { a with node := a.node.publishProfile profile }
      else a
    { a with running := true }

def stop (a : AppController) : AppController :=
  if !a.running then a else { a with node := a.node.stopNode, running := false }

def changePeerId (a : AppController) (newPeerId bootstrapHost bootstrapPort : Bytes)
    (io : StartInput) : AppController :=
  (a.stop.configure newPeerId a.stop.port).start bootstrapHost bootstrapPort io

def sendMessage (a : AppController) (op : Nat) (toPeerId text : Bytes) : AppController :=
  let recipient := trim isSpace toPeerId
  if recipient = [] then a else { a with node := a.node.sendMessage op recipient text }

def recordContact (a : AppController) (peerId : Bytes) : AppController :=
  if peerId ∈ a.contacts then a else { a with contacts := a.contacts ++ [peerId] }

def addContact (a : AppController) (op : Nat) (peerId : Bytes) : AppController :=
  if peerId = [] then a
  else
    let a := a.recordContact peerId
    { a with node := a.node.findPeer op peerId }

end AppController

end P2PMessenger
