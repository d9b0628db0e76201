import P2PMessenger.Node.Outcome

/-!
# What the node tells the window

The queue of the window only grows, by the events that `newUi` lists for each step. The
message events among them are the reports, in the same order.
-/

namespace P2PMessenger

open Text Crypto Run

namespace P2PNode

variable (S : Sodium)

/-- The events that the callback of `findPeer` queues. -/
def peerNotices (userId : Bytes) (values : List Bytes) : List UiEvent :=
  if values = [] then
    [.networkStatus (bytes "Peer not found on DHT: " ++ userId),
      .error P2PErrorCode.peerNotFound (bytes "Peer not found on DHT: " ++ userId)]
  else values.map (fun _ => .peerFound userId) ++
    [.networkStatus (bytes "Peer found: " ++ userId)]

/-- The events that a step queues for the window. -/
def newUi (n : P2PNode) : Event → List UiEvent
  | .startNode _ =>
    if n.running then []
    else [
      .networkStatus (bytes "Running on port " ++ decimal n.port ++ bytes " as " ++ n.myId),
      .networkStatus (bytes "Listening for secure messages on " ++ inboxName n.myId)]
  | .stopNode => if n.running then [.networkStatus (bytes "Node stopped")] else []
  | .bootstrap ip port => [.networkStatus (bytes "Bootstrapping to " ++ ip ++ bytes ":" ++ port)]
  | .sendMessage _ _ _ =>
    if n.myId = [] then
      [.error P2PErrorCode.networkUnavailable
        (bytes "Cannot send: local peer ID is not configured (set P2P_PEER_ID)")]
    else []
  | .publishProfile profile => [.networkStatus (bytes "Publishing profile for " ++ profile.userId)]
  | .profilePut _ success =>
    if n.dht.running then
      [.networkStatus (if success then bytes "Profile published to DHT"
        else bytes "Profile publish pending — retrying after bootstrap")]
    else []
  | .refreshProfile =>
    if n.running ∧ n.currentProfile.userId ≠ [] then
      [.networkStatus (bytes "Publishing profile for " ++ n.currentProfile.userId)]
    else []
  | .findPeer _ userId => [.networkStatus (bytes "Searching DHT for " ++ userId)]
  | .lookup op values io =>
    match n.pending op with
    | some ⟨_, .findPeer userId, _⟩ => peerNotices userId values
    | _ => ((n.completion S (.lookup op values io)).bind fun c => c.2.notice).toList
  | _ => []

/-! ## The callbacks -/

@[simp] theorem ui_cachePeerPublicKey (n : P2PNode) (userId publicKey : Bytes) :
    (n.cachePeerPublicKey userId publicKey).ui = n.ui := by
  obtain ⟨cache, h⟩ := n.cachePeerPublicKey_eq userId publicKey
  rw [h]
  rfl

theorem ui_foundPeerValue (n : P2PNode) (userId payload : Bytes) :
    (n.foundPeerValue userId payload).ui = n.ui ++ [.peerFound userId] := by
  unfold foundPeerValue notifyPeerFound
  split
  · rfl
  · split
    · rfl
    · simp

theorem ui_foldl_foundPeerValue (n : P2PNode) (userId : Bytes) (values : List Bytes) :
    (values.foldl (fun n payload => n.foundPeerValue userId payload) n).ui =
      n.ui ++ values.map fun _ => .peerFound userId := by
  induction values generalizing n with
  | nil => exact (List.append_nil n.ui).symm
  | cons payload rest ih =>
    rw [List.foldl_cons, ih, ui_foundPeerValue, List.append_assoc]
    rfl

theorem ui_onPeerFound (n : P2PNode) (userId : Bytes) (values : List Bytes) :
    (n.onPeerFound userId values).ui = n.ui ++ peerNotices userId values := by
  unfold onPeerFound peerNotices
  split
  · simp [notifyError, notifyNetworkStatus]
  · simp [notifyNetworkStatus, ui_foldl_foundPeerValue]

theorem ui_onProfileFound (n : P2PNode) (receiverId : Bytes) (packet : EncryptedPacket)
    (values : List Bytes) (io : CallbackInput) :
    (n.onProfileFound S receiverId packet values io).ui =
      n.ui ++ (n.sendOutcome S receiverId packet values io).notice.toList := by
  unfold onProfileFound sendOutcome profileAnswer
  cases values with
  | nil => rfl
  | cons payload rest =>
    dsimp only
    cases cutLast pipe payload with
    | none => rfl
    | some parts =>
      dsimp only
      cases fromBase64 parts.2 with
      | none => rfl
      | some publicKey =>
        obtain ⟨cache, hCache⟩ := cachePeerPublicKey_eq n receiverId publicKey
        simp only [hCache, sendEncrypted, showing, CryptoService.encrypt_eq]
        cases S.boxEasy packet.ciphertext io.draws.nonce publicKey n.myKeys.privateKey with
        | none => rfl
        | some ciphertext => exact (List.append_nil n.ui).symm

theorem ui_onSenderProfileFound (n : P2PNode) (senderId : Bytes) (packet : EncryptedPacket)
    (values : List Bytes) (io : CallbackInput) :
    (n.onSenderProfileFound S senderId packet values io).ui =
      n.ui ++ (n.deliveryOutcome S senderId packet values io).notice.toList := by
  unfold onSenderProfileFound deliveryOutcome profileAnswer
  cases values with
  | nil => rfl
  | cons payload rest =>
    dsimp only
    cases cutLast pipe payload with
    | none => exact (List.append_nil n.ui).symm
    | some parts =>
      dsimp only
      cases fromBase64 parts.2 with
      | none =>
        have hShown : isBenignCryptoError (bytes "Invalid base64 string") = false := by
          decide +kernel
        rw [hShown]
        rfl
      | some publicKey =>
        obtain ⟨cache, hCache⟩ := cachePeerPublicKey_eq n senderId publicKey
        simp only [hCache, decryptWithSenderKey, showing, decryption, inbound]
        generalize n.crypto.decrypt S _ n.myKeys.privateKey publicKey n.myId io.now = result
        obtain ⟨result, crypto⟩ := result
        cases result with
        | ok plainText => rfl
        | error error =>
          dsimp only
          cases isBenignCryptoError error with
          | true => exact (List.append_nil n.ui).symm
          | false => rfl

theorem ui_onLookup (n : P2PNode) (op : Nat) (values : List Bytes) (io : CallbackInput) :
    (n.onLookup S op values io).ui = n.ui ++ n.newUi S (.lookup op values io) := by
  cases hPending : n.pending op with
  | none => simp [onLookup, newUi, completion, hPending]
  | some g =>
    obtain ⟨op', callback, flag⟩ := g
    cases callback with
    | findPeer userId =>
      simp only [onLookup, newUi, hPending]
      exact ui_onPeerFound n userId values
    | onProfileFound receiverId packet =>
      cases flag with
      | true => simp [onLookup, newUi, completion, hPending]
      | false =>
        simp only [onLookup, newUi, completion, hPending, Bool.false_eq_true, if_false]
        exact ui_onProfileFound S (n.raiseFlag op) receiverId packet values io
    | onSenderProfileFound senderId packet =>
      cases flag with
      | true => simp [onLookup, newUi, completion, hPending]
      | false =>
        simp only [onLookup, newUi, completion, hPending, Bool.false_eq_true, if_false]
        exact ui_onSenderProfileFound S (n.raiseFlag op) senderId packet values io

/-- The queue of the window only grows, and by these events. -/
theorem step_ui (n : P2PNode) (e : Event) : (n.step S e).ui = n.ui ++ n.newUi S e := by
  cases e with
  | startNode io =>
    simp only [step, startNode, newUi]
    split
    · exact (List.append_nil n.ui).symm
    · simp [runDht, cachePublicKey, initNodeKeys, notifyNetworkStatus]
  | stopNode =>
    simp only [step, stopNode, newUi]
    cases n.running with
    | false => exact (List.append_nil n.ui).symm
    | true => rfl
  | setBootstrapHost host =>
    simp only [step, setBootstrapHost, newUi, List.append_nil]
    split <;> rfl
  | bootstrap ip port =>
    simp only [step, bootstrap, setBootstrapHost, newUi]
    split <;> rfl
  | sendMessage op toPeerId text =>
    simp only [step, sendMessage, newUi]
    split
    · rfl
    · exact (List.append_nil n.ui).symm
  | profilePut profile success =>
    simp only [step, onProfilePut, newUi]
    split
    · cases success with
      | true => simp [notifyNetworkStatus]
      | false => rfl
    · exact (List.append_nil n.ui).symm
  | refreshProfile =>
    simp only [step, refreshProfile, newUi]
    by_cases hRunning : n.running = true
    · by_cases hId : n.currentProfile.userId = []
      · simp [hRunning, hId]
      · simp [hRunning, hId, publishProfile, notifyNetworkStatus, dhtPut]
    · simp [hRunning]
  | inbox values expired =>
    simp only [step, onMessageReceived_eq, newUi, List.append_nil]
    split
    · split <;> rfl
    · rfl
  | lookup op values io => exact ui_onLookup S n op values io
  | setNodeConfig port id => exact (List.append_nil n.ui).symm
  | publishProfile profile => rfl
  | findPeer op userId => rfl

/-! ## Messages among the events -/

/-- The sender and the text of a message event. -/
def messageOf : UiEvent → Option (Bytes × Bytes)
  | .messageReceived fromPeerId text => some (fromPeerId, text)
  | _ => none

theorem messages_newUi (n : P2PNode) (e : Event) :
    (n.newUi S e).filterMap messageOf =
      (n.newReports S e).map fun r => (r.fromPeerId, r.text) := by
  rw [newReports_eq]
  cases e with
  | lookup op values io =>
    have hNotice : ∀ c : Option (Get × Outcome),
        (c.bind fun c => c.2.notice).toList.filterMap messageOf =
          (c.bind fun c => c.2.report).toList.map fun r => (r.fromPeerId, r.text) := by
      intro c
      cases c with
      | none => rfl
      | some c =>
        obtain ⟨g, o⟩ := c
        cases o <;> rfl
    simp only [newUi]
    split
    · rename_i op' userId flag hPending
      have hNone : n.completion S (.lookup op values io) = none := by
        simp [completion, hPending]
      rw [hNone]
      unfold peerNotices
      split
      · rfl
      · simp [messageOf]
    · exact hNotice _
  | startNode io =>
    simp only [newUi, completion]
    split <;> rfl
  | stopNode =>
    simp only [newUi, completion]
    split <;> rfl
  | sendMessage op toPeerId text =>
    simp only [newUi, completion]
    split <;> rfl
  | profilePut profile success =>
    simp only [newUi, completion]
    split <;> rfl
  | refreshProfile =>
    simp only [newUi, completion]
    split <;> rfl
  | _ => rfl

/-- The message events of a new node are its reports, in the same order. -/
theorem messages_run (es : List Event) :
    (run (step S) {} es).ui.filterMap messageOf =
      (run (step S) {} es).reports.map fun r => (r.fromPeerId, r.text) := by
  apply run_invariant (I := fun n : P2PNode =>
    n.ui.filterMap messageOf = n.reports.map fun r => (r.fromPeerId, r.text))
  · intro n e h
    rw [step_ui, step_reports, List.filterMap_append, List.map_append, h, messages_newUi]
  · rfl

end P2PNode

end P2PMessenger
