import P2PMessenger.Node.Effect

/-!
# Argument lengths of the box calls

`decrypt` checks the length of the sender's key, the nonce and the ciphertext before it
calls libsodium. `encrypt` checks nothing and takes whatever decodes behind the last pipe
of the receiver's profile, so a run stays inside the domain of the box functions exactly
if no profile hands it a key of another length.
-/

namespace P2PMessenger

open Text Crypto Run

namespace P2PNode

variable (S : Sodium)

/-- The pair that a start loads or generates has the lengths libsodium asks for. -/
def StartsWithKeys (_ : P2PNode) : Event → Prop
  | .startNode io =>
    (initKeys io).1.publicKey.length = crypto_box_PUBLICKEYBYTES ∧
      (initKeys io).1.privateKey.length = crypto_box_SECRETKEYBYTES
  | _ => True

/-- If the step encrypts, the receiver's profile held a key of the right length. -/
def EncryptsWithFullKey (n : P2PNode) : Event → Prop
  | .lookup op values _ =>
    match n.lookupAction op values with
    | .encrypt _ _ key => key.length = crypto_box_PUBLICKEYBYTES
    | _ => True
  | _ => True

/-- While the runner is up, the node has a secret key of the right length. -/
def HasSecretKey (n : P2PNode) : Prop :=
  n.dht.running = true → n.myKeys.privateKey.length = crypto_box_SECRETKEYBYTES

theorem openCalls_defined {c : CryptoService} {packet : EncryptedPacket}
    {myPrivateKey senderPublicKey myUserId : Bytes} {nowSec : Int}
    (hReaches : c.Reaches packet senderPublicKey myUserId nowSec)
    (hSecret : myPrivateKey.length = crypto_box_SECRETKEYBYTES) :
    ∀ call ∈ CryptoService.openCalls S packet myPrivateKey senderPublicKey, call.Defined := by
  obtain ⟨hPublic, hChecks, -⟩ := hReaches
  obtain ⟨nonce, hNonce, hNonceLength⟩ := (passesChecks_iff.mp hChecks).nonce
  intro call hCall
  unfold CryptoService.openCalls at hCall
  rw [hNonce] at hCall
  split at hCall
  · rename_i nonce' ciphertext hEq hCipher
    obtain rfl := Option.some.inj hEq
    split at hCall
    · cases hCall
    · rename_i hLong
      rw [List.mem_singleton.mp hCall]
      exact ⟨hPublic, hSecret, hNonceLength, Nat.not_lt.mp hLong⟩
  · cases hCall

/-- The calls of one step are defined exactly if it does not encrypt under a short or long
key. -/
theorem newCalls_defined_iff {n : P2PNode} (hKeys : n.HasSecretKey) (e : Event) :
    (∀ call ∈ n.newCalls S e, call.Defined) ↔ n.EncryptsWithFullKey e := by
  cases e with
  | lookup op values io =>
    simp only [newCalls, EncryptsWithFullKey]
    cases hAction : n.lookupAction op values with
    | ignore => simp
    | giveUp => simp
    | encrypt receiverId packet key =>
      have hSecret := hKeys (of_pending (pending_of_encrypt hAction).1).1
      simp [BoxCall.Defined, hSecret, io.draws.nonce_length]
    | decrypt senderId packet key =>
      have hSecret := hKeys (of_pending (pending_of_decrypt hAction).1).1
      simp only [iff_true]
      split
      · rename_i hReaches
        exact openCalls_defined S hReaches hSecret
      · simp
  | _ => simp [newCalls, EncryptsWithFullKey]

theorem hasSecretKey_step {n : P2PNode} {e : Event} (h : n.HasSecretKey)
    (hStart : n.StartsWithKeys e) : (n.step S e).HasSecretKey := by
  obtain ⟨rest, hStep⟩ := step_effect S n e
  rw [hStep]
  show (n.effect S e).HasSecretKey
  cases e with
  | startNode io =>
    simp only [effect]
    split
    · exact h
    · exact fun _ => hStart.2
  | stopNode =>
    simp only [effect]
    split
    · exact fun hRun => by cases hRun
    · exact h
  | sendMessage op toPeerId text =>
    simp only [effect]
    split <;> exact h
  | inbox values expired =>
    simp only [effect]
    split <;> exact h
  | lookup op values io =>
    have hSame : SameSession n (n.afterLookup S op values io) :=
      sameSession_afterLookup S n op values io
    intro hRun
    exact hSame.myKeys ▸ h (hSame.dhtRunning ▸ hRun)
  | _ => exact h

theorem boxCalls_defined_step {n : P2PNode} {e : Event} (hKeys : n.HasSecretKey) :
    (∀ call ∈ (n.step S e).crypto.boxCalls, call.Defined) ↔
      (∀ call ∈ n.crypto.boxCalls, call.Defined) ∧ n.EncryptsWithFullKey e := by
  rw [← newCalls_defined_iff S hKeys e, step_boxCalls]
  simp only [List.mem_append, or_imp, forall_and]

/-- From a new node on, every box call is made on the lengths that libsodium asks for if and
only if no step encrypts under a profile key of another length. -/
theorem boxCalls_defined_iff {es : List Event} (hStarts : Along (step S) StartsWithKeys {} es) :
    (∀ call ∈ (run (step S) {} es).crypto.boxCalls, call.Defined) ↔
      Along (step S) EncryptsWithFullKey {} es := by
  have hIff := run_iff_along (Q := fun n : P2PNode => ∀ call ∈ n.crypto.boxCalls, call.Defined)
    (fun _ _ h hStart => hasSecretKey_step S h hStart)
    (fun _ _ h _ => boxCalls_defined_step S h) (s := {}) (fun hRun => by cases hRun) hStarts
  simpa using hIff

/-- Alice starts and sends one message; `profile` is what the lookup of Bob returns. -/
def sendingRun (profile : Bytes) : List Event :=
  [.setNodeConfig 4222 (bytes "alice"), .startNode { generated := .constant 7 },
    .sendMessage 0 (bytes "bob") (bytes "hi"),
    .lookup 0 [profile] { now := 1000, draws := .constant 5 9 }]

theorem startsWithKeys_sendingRun (profile : Bytes) :
    Along (step .additive) StartsWithKeys {} (sendingRun profile) :=
  ⟨trivial, ⟨rfl, rfl⟩, trivial, trivial, trivial⟩

theorem boxCalls_defined_of_full_profile :
    Along (step .additive) EncryptsWithFullKey {}
      (sendingRun (profilePayload {} (List.replicate 32 3))) :=
  (boxCalls_defined_iff .additive (startsWithKeys_sendingRun _)).mp (by decide +kernel)

/-- The text behind the last pipe is empty: libsodium is called with an empty key. -/
theorem boxCalls_undefined_of_empty_key :
    Along (step .additive) StartsWithKeys {} (sendingRun (bytes "Bob|10.0.0.2|")) ∧
      ¬ ∀ call ∈ (run (step .additive) {} (sendingRun (bytes "Bob|10.0.0.2|"))).crypto.boxCalls,
        call.Defined :=
  ⟨startsWithKeys_sendingRun _, by decide +kernel⟩

end P2PNode

end P2PMessenger
