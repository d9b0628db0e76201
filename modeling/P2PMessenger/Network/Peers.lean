import P2PMessenger.Node.Effect
import P2PMessenger.Run.Network
import Mathlib.Data.Sym.Sym2
import Mathlib.Data.Fintype.Defs

/-!
# Honest peers and an attacker

Honest peers are launched with their own ids and keys; from then on sends, inbox values
and lookup answers arrive at them in any order. The attacker is the environment: inbox
values are arbitrary byte strings. What it cannot do is stated by two properties of a run.
A lookup of an honest peer returns that peer's key, and a box opens under the key of an
honest peer only if an honest peer sealed it before for the same two keys.
-/

namespace P2PMessenger

open Text Crypto Run

/-- How a peer is configured and started. -/
structure Launch where
  port : Nat := 4222
  id : Bytes
  io : StartInput

namespace Launch

def node (l : Launch) : P2PNode := (({} : P2PNode).setNodeConfig l.port l.id).startNode l.io

def userId (l : Launch) : Bytes := l.node.myId

def publicKey (l : Launch) : Bytes := l.node.myKeys.publicKey

end Launch

/-- The lookup that an event answers, and the values. -/
def Event.answer : Event → Option (Nat × List Bytes)
  | .lookup op values _ => some (op, values)
  | _ => none

namespace Crypto

/-- A message with the box it was sealed into or read from and the public key of the other
side. -/
structure Sealed where
  text : Bytes
  nonce : Bytes
  ciphertext : Bytes
  publicKey : Bytes
  deriving DecidableEq, Repr

namespace BoxCall

def sealing : BoxCall → Option Sealed
  | easy text nonce publicKey _ (some ciphertext) => some ⟨text, nonce, ciphertext, publicKey⟩
  | _ => none

def opening : BoxCall → Option Sealed
  | openEasy ciphertext nonce publicKey _ (some text) => some ⟨text, nonce, ciphertext, publicKey⟩
  | _ => none

end BoxCall

end Crypto

section Peers

variable {ι : Type} [DecidableEq ι] (S : Sodium) (peers : ι → Launch)

/-- The network of the launched peers after a run. -/
def netRun (es : List (ι × Event)) : ι → P2PNode :=
  run (netStep (P2PNode.step S)) (fun i => (peers i).node) es

theorem netRun_apply (es : List (ι × Event)) (i : ι) :
    netRun S peers es i = run (P2PNode.step S) (peers i).node (eventsAt i es) :=
  run_netStep_apply _ es i

/-- A condition on the state of the network before a step and the step, along a run. -/
def AlongNet (P : (ι → P2PNode) → ι × Event → Prop) (es : List (ι × Event)) : Prop :=
  Along (netStep (P2PNode.step S)) P (fun i => (peers i).node) es

theorem netRun_snoc (es : List (ι × Event)) (e : ι × Event) :
    netRun S peers (es ++ [e]) = netStep (P2PNode.step S) (netRun S peers es) e :=
  run_snoc _ es e

theorem AlongNet.at {P : (ι → P2PNode) → ι × Event → Prop} {pre post : List (ι × Event)}
    {e : ι × Event} (h : AlongNet S peers P (pre ++ e :: post)) : P (netRun S peers pre) e :=
  Along.at h

/-- A condition on single nodes holds along the run of each. -/
theorem AlongNet.eventsAt {P : ι → P2PNode → Event → Prop} {es : List (ι × Event)}
    (h : AlongNet S peers (fun net e => P e.1 (net e.1) e.2) es) (i : ι) :
    Along (P2PNode.step S) (P i) (peers i).node (eventsAt i es) :=
  Along.eventsAt h i

/-- A lookup of an honest peer returns the key that peer published, if it returns a key. -/
def HonestAnswer (net : ι → P2PNode) (e : ι × Event) : Prop :=
  ∀ answer ∈ e.2.answer, ∀ g ∈ (net e.1).pending answer.1, ∀ key ∈ profileKey answer.2,
    ∀ j, g.callback.userId = (peers j).userId → key = (peers j).publicKey

/-- What opened under the key of an honest peer was sealed by one of the two sides. -/
def IdealBox (net : ι → P2PNode) : Prop :=
  ∀ i, ∀ opened ∈ (net i).crypto.boxCalls.filterMap BoxCall.opening,
    (∃ j, opened.publicKey = (peers j).publicKey) →
      ∃ k, ∃ sealed ∈ (net k).crypto.boxCalls.filterMap BoxCall.sealing,
        sealed.text = opened.text ∧ sealed.nonce = opened.nonce ∧
          sealed.ciphertext = opened.ciphertext ∧
          s(sealed.publicKey, (peers k).publicKey) = s(opened.publicKey, (peers i).publicKey)

/-- The assumptions on a run: different peers have different keys and keep them, the
directory is honest, and the box is ideal after every step. -/
structure HonestRun (es : List (ι × Event)) : Prop where
  keys : Function.Injective fun i => (peers i).publicKey
  keeps : AlongNet S peers (fun _ e => e.2.keeps = true) es
  directory : AlongNet S peers (HonestAnswer peers) es
  ideal : AlongNet S peers (fun net e => IdealBox peers (netStep (P2PNode.step S) net e)) es

instance [Fintype ι] (net : ι → P2PNode) (e : ι × Event) : Decidable (HonestAnswer peers net e) := by
  unfold HonestAnswer
  infer_instance

instance [Fintype ι] (net : ι → P2PNode) : Decidable (IdealBox peers net) := by
  unfold IdealBox
  infer_instance

instance {P : (ι → P2PNode) → ι × Event → Prop} [∀ net e, Decidable (P net e)]
    (es : List (ι × Event)) : Decidable (AlongNet S peers P es) := by
  unfold AlongNet
  infer_instance

end Peers

/-! ## Alice and Bob -/

inductive Peer where
  | alice
  | bob
  deriving DecidableEq

namespace Peer

instance : Fintype Peer := ⟨{alice, bob}, fun p => by cases p <;> simp⟩

def launch : Peer → Launch
  | alice => { id := bytes "alice", io := { generated := .constant 7 } }
  | bob => { id := bytes "bob", io := { generated := .constant 40 } }

def profile (p : Peer) : Bytes :=
  profilePayload { displayName := p.launch.userId } p.launch.publicKey

theorem noon_inInt64 : InInt64 43200 := by decide

def noon : CallbackInput := { now := 43200, draws := .constant 5 9, now_range := noon_inInt64 }

/-- What Alice's node does when she sends a text to Bob. -/
def aliceSends (text : Bytes) (io : CallbackInput) : List (Peer × Event) :=
  [(alice, .sendMessage 0 bob.launch.userId text), (alice, .lookup 0 [bob.profile] io)]

/-- The packet that the answer to Alice's lookup makes of her text. -/
def aliceSealed (text : Bytes) (io : CallbackInput) : EncryptedPacket :=
  CryptoService.sealedPacket alice.launch.userId bob.launch.userId io.draws io.now
    (Sodium.additiveTag io.draws.nonce bob.launch.publicKey
      alice.launch.io.generated.keys.privateKey ++ text)

end Peer

end P2PMessenger
