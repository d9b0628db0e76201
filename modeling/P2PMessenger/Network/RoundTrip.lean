import P2PMessenger.Network.Peers

/-!
# From `sendPacket` to the report

Both ends of the wire format together. The sender's node builds a value from a profile of
the receiver, the receiver's listener reads the value and decrypts it with a profile of the
sender. Every field that is sent avoids the separators behind it and passes the validation;
what can fail is the header, which is read up to the first `0x1F`.
-/

namespace P2PMessenger

open Text Crypto Run

/-- What `a` seals for `b` opens for `b` under the public key of `a`. -/
def Crypto.Sodium.RoundTrips (S : Sodium) (a b : KeyPair) : Prop :=
  ∀ m n : Bytes, n.length = crypto_box_NONCEBYTES →
    ∃ c, S.boxEasy m n b.publicKey a.privateKey = some c ∧
      S.boxOpenEasy c n a.publicKey b.privateKey = some m

/-- The tag of the additive box is even in the two sides. -/
theorem additive_roundTrips (a b : UInt8) :
    Sodium.additive.RoundTrips (GeneratedKeys.constant a).keys (GeneratedKeys.constant b).keys := by
  intro m n _
  refine ⟨_, rfl, ?_⟩
  have hTag : Sodium.additiveTag n (List.replicate 32 (a + 1)) (List.replicate 32 b) =
      Sodium.additiveTag n (List.replicate 32 (b + 1)) (List.replicate 32 a) := by
    apply List.map_congr_left
    intro i hRange
    have hi : i < 32 := (List.mem_range.mp hRange).trans (by decide)
    simp only [List.getD_eq_getElem?_getD, List.getElem?_replicate_of_lt hi, Option.getD_some]
    grind
  have hLength : (Sodium.additiveTag n (List.replicate 32 (b + 1))
      (List.replicate 32 a)).length = crypto_box_MACBYTES := by
    simp [Sodium.additiveTag]
  simp only [Sodium.additive, GeneratedKeys.constant, hTag]
  rw [List.take_left' hLength, List.drop_left' hLength, if_pos rfl]

namespace P2PNode

variable (S : Sodium)

/-! ## The packet on the wire -/

section SealedPacket

variable (senderId receiverId : Bytes) (draws : Draws) (nowSec : Int) {ciphertext : Bytes}

theorem pipe_not_mem_generateMessageId (buf : Bytes) : pipe ∉ generateMessageId buf := by
  intro hmem
  rcases mem_generateMessageId hmem with hHex | hDash
  · cases hHex
  · cases hDash

/-- The secure body of a sealed packet is read back field by field. -/
theorem parseSecureBody_sealedPacket (hNow : InInt64 nowSec)
    (hLong : crypto_box_MACBYTES ≤ ciphertext.length) (start : EncryptedPacket) :
    parseSecureBody
        (secureBody (CryptoService.sealedPacket senderId receiverId draws nowSec ciphertext)) start =
      some { start with
        messageId := generateMessageId draws.messageId
        nonce := toBase64 draws.nonce
        timestamp := nowSec
        ciphertext := toBase64 ciphertext } := by
  have hne : ciphertext ≠ [] := by
    rintro rfl
    cases hLong
  exact parseSecureBody_secureBody (pipe_not_mem_generateMessageId _) (pipe_not_mem_toBase64 _)
    (pipe_not_mem_toBase64 _) (Base64.encode_ne_nil hne) hNow start

/-- A sealed packet passes every check but the replay check. -/
theorem passesChecks_of_sealed {packet : EncryptedPacket} {myUserId : Bytes} {clock : Int}
    (hId : packet.messageId = generateMessageId draws.messageId)
    (hSender : packet.senderId ≠ []) (hReceiver : packet.receiverId = myUserId)
    (hMe : myUserId ≠ []) (hNonce : packet.nonce = toBase64 draws.nonce)
    (hCipher : packet.ciphertext = toBase64 ciphertext)
    (hLong : crypto_box_MACBYTES ≤ ciphertext.length) (hPositive : 0 < packet.timestamp)
    (hWindow : |clock - packet.timestamp| ≤ 300) : passesChecks packet myUserId clock = true := by
  have hne : ciphertext ≠ [] := by
    rintro rfl
    cases hLong
  refine passesChecks_iff.mpr ⟨?_, hSender, hReceiver ▸ hMe, hReceiver, ⟨draws.nonce, ?_,
    draws.nonce_length⟩, hCipher ▸ Base64.encode_ne_nil hne, hPositive, hWindow⟩
  · rw [hId]
    exact isValidMessageId_generateMessageId draws.messageId_length
  · rw [hNonce, fromBase64_toBase64]

end SealedPacket

/-! ## Both ends -/

/-- The newest lookup is the one its token names. -/
theorem pending_dhtGet {n : P2PNode} (hRunning : n.dht.running = true) (op : Nat)
    (callback : Callback) : (n.dhtGet op callback).pending op = some ⟨op, callback, false⟩ := by
  simp [pending, dhtGet, hRunning]

/-- The value that `sendPacket` puts once the receiver's profile is found. -/
theorem sendPacket_puts {n : P2PNode} (hRunning : n.dht.running = true) (op : Nat)
    (receiverId : Bytes) (packet : EncryptedPacket) {profile key : Bytes} {more : List Bytes}
    (hKey : profileKey (profile :: more) = some key) (io : CallbackInput) {ciphertext : Bytes}
    (hSeal : S.boxEasy packet.ciphertext io.draws.nonce key n.myKeys.privateKey =
      some ciphertext) :
    ((n.sendPacket op receiverId packet).step S (.lookup op (profile :: more) io)).puts =
      n.puts ++ [n.messagePut (CryptoService.sealedPacket n.myId receiverId io.draws io.now
        ciphertext)] := by
  have hAction : (n.sendPacket op receiverId packet).lookupAction op (profile :: more) =
      .encrypt receiverId packet key := by
    simp only [lookupAction, sendPacket, pending_dhtGet hRunning, hKey]
  have hKeys : (n.sendPacket op receiverId packet).myKeys = n.myKeys := rfl
  rw [step_puts]
  simp only [newPuts, hAction, hKeys, hSeal]
  rfl

/-- A value whose lookup the listener starts is all that a batch with it adds. -/
theorem step_inbox_of_valueLookup {n : P2PNode} (hListening : n.dht.listenName.isSome) (op : Nat)
    {payload senderId : Bytes} {packet : EncryptedPacket}
    (hLookup : n.valueLookup payload = some (senderId, packet)) :
    n.step S (.inbox [(op, payload)] false) =
      n.deliverSecureInboxMessage op senderId packet := by
  simp [step, hListening, onMessageReceived, receiveValue_eq, hLookup]

/-- What is reported from one inbox value was in the name of its header. -/
theorem header_of_report {n : P2PNode} {op : Nat} (hFresh : ∀ g ∈ n.dht.gets, g.op ≠ op)
    {payload : Bytes} {values : List Bytes} {io : CallbackInput} {r : Report}
    (hReport : r ∈ (n.step S (.inbox [(op, payload)] false)).newReports S
      (.lookup op values io)) :
    ∃ body, parseDhtMessagePayload payload = some (r.fromPeerId, body) := by
  obtain ⟨op', values', io', senderId, packet, key, hEvent, hAction, -, -, hr⟩ :=
    mem_newReports S hReport
  obtain ⟨rfl, rfl, rfl⟩ := Event.lookup.inj hEvent
  obtain ⟨-, hGet, -⟩ := of_pending (pending_of_decrypt hAction).1
  rcases mem_step_gets S hGet with ⟨flag, hOld⟩ | ⟨_, _, hNot, -⟩ | ⟨_, hNot, -⟩ |
    ⟨values'', hValues, hNew⟩
  · exact absurd rfl (hFresh _ hOld)
  · cases hNot
  · cases hNot
  · obtain ⟨rfl, -⟩ := Event.inbox.inj hValues
    obtain ⟨payload', sender, packet', body, hPayload, hEq, hParse, -⟩ := mem_valueGets hNew
    obtain ⟨rfl, rfl⟩ := Callback.onSenderProfileFound.inj (Get.mk.inj hEq).2.1
    obtain rfl : payload' = payload := by simpa using hPayload
    rw [hr]
    exact ⟨body, hParse⟩

/-- A sealed packet under a usable header is reported. -/
theorem report_of_sealed {n : P2PNode} (hUp : n.dht.running = true)
    (hListening : n.dht.listenName.isSome) (hMe : n.myId ≠ []) {senderId : Bytes}
    (hTrim : trim isSpace senderId = senderId) (hne : senderId ≠ [])
    (hSep : kDhtFieldSep ∉ senderId) (hDiffer : senderId ≠ n.myId) {draws : Draws} {nowSec : Int}
    (hNow : InInt64 nowSec) (receiverId : Bytes) {ciphertext : Bytes}
    (hLong : crypto_box_MACBYTES ≤ ciphertext.length)
    (hDelivered : buildInboxDedupeKey senderId (generateMessageId draws.messageId) ∉
      n.deliveredInboxKeys)
    (hSeen : generateMessageId draws.messageId ∉ n.crypto.seenMessageIds senderId)
    {values : List Bytes} {key : Bytes} (hKey : profileKey values = some key)
    (hKeyLength : key.length = crypto_box_PUBLICKEYBYTES) {io : CallbackInput} {text : Bytes}
    (hOpen : S.boxOpenEasy ciphertext draws.nonce key n.myKeys.privateKey = some text)
    (hPositive : 0 < nowSec) (hWindow : |io.now - nowSec| ≤ 300) (op : Nat) :
    ∃ packet,
      (n.step S (.inbox [(op, fullPayload senderId (CryptoService.sealedPacket senderId receiverId
        draws nowSec ciphertext))] false)).newReports S (.lookup op values io) =
        [⟨senderId, text, packet, io.now⟩] := by
  let packet : EncryptedPacket :=
    { senderId := senderId, receiverId := n.myId, messageId := generateMessageId draws.messageId,
      nonce := toBase64 draws.nonce, timestamp := nowSec, ciphertext := toBase64 ciphertext }
  have hParse := parseDhtMessagePayload_fullPayload hTrim hne hSep
    (CryptoService.sealedPacket senderId receiverId draws nowSec ciphertext)
  have hBody := parseSecureBody_sealedPacket senderId receiverId draws nowSec hNow hLong
    { version := 1, senderId := senderId, receiverId := n.myId }
  have hLookup : n.valueLookup (fullPayload senderId (CryptoService.sealedPacket senderId
      receiverId draws nowSec ciphertext)) = some (senderId, packet) := by
    simp only [valueLookup, hParse, if_neg hDiffer, hBody, wasInboxMessageDelivered, hDelivered,
      decide_false, Bool.false_eq_true, if_false]
    rfl
  refine ⟨packet, ?_⟩
  rw [step_inbox_of_valueLookup S hListening op hLookup]
  have hAction : (n.deliverSecureInboxMessage op senderId packet).lookupAction op values =
      .decrypt senderId packet key := by
    simp only [lookupAction, deliverSecureInboxMessage, pending_dhtGet hUp, hKey]
  -- the packet passes the validation and its box opens
  have hReaches : n.crypto.Reaches packet key n.myId io.now :=
    ⟨hKeyLength, passesChecks_of_sealed draws rfl hne rfl hMe rfl rfl hLong hPositive hWindow,
      hSeen⟩
  have hText : CryptoService.openedText S packet n.myKeys.privateKey key = some text :=
    (CryptoService.openedText_eq_some_iff S).mpr ⟨draws.nonce, ciphertext, rfl, rfl, hLong, hOpen⟩
  have hOk : ((n.deliverSecureInboxMessage op senderId packet).decryption S senderId packet key
      io).1 = .ok text :=
    (CryptoService.decrypt_ok_iff S _ _ _ _ _ _).mpr ⟨hReaches, hText⟩
  simp only [newReports, hAction, hOk]
  rfl

theorem two_step_reports (n : P2PNode) (batch : List (Nat × Bytes)) (op : Nat)
    (values : List Bytes) (io : CallbackInput) :
    (run (step S) n [.inbox batch false, .lookup op values io]).reports =
      n.reports ++ (n.step S (.inbox batch false)).newReports S (.lookup op values io) := by
  rw [run_cons, run_cons, run_nil, step_reports, step_reports]
  simp [newReports]

/-- The value of a sent message, put into a listener's inbox and looked up while it is fresh
and new, ends in a report of the sent text in the sender's name exactly if that name is
non-empty and free of the header separator. -/
theorem reported_iff_usable_id {sender receiver : P2PNode} {id : Bytes}
    (hStored : sender.myId = trim isSpace id) (hMe : receiver.myId ≠ [])
    (hDiffer : sender.myId ≠ receiver.myId) (hSenderUp : sender.dht.running = true)
    (hReceiverUp : receiver.dht.running = true) (hListening : receiver.dht.listenName.isSome)
    (hKey : sender.myKeys.publicKey.length = crypto_box_PUBLICKEYBYTES)
    (hBox : S.RoundTrips sender.myKeys receiver.myKeys)
    (receiverId plaintext : Bytes) (senderProfile receiverProfile : UserProfile)
    (more more' : List Bytes) (opSend : Nat) {opReceive : Nat}
    (hFresh : ∀ g ∈ receiver.dht.gets, g.op ≠ opReceive) {sent received : CallbackInput}
    (hPositive : 0 < sent.now) (hWindow : |received.now - sent.now| ≤ 300)
    (hSeen : generateMessageId sent.draws.messageId ∉
      receiver.crypto.seenMessageIds sender.myId)
    (hDelivered : buildInboxDedupeKey sender.myId (generateMessageId sent.draws.messageId) ∉
      receiver.deliveredInboxKeys) :
    ∃ put : Put,
      ((sender.sendPacket opSend receiverId
          { senderId := sender.myId, receiverId := receiverId, ciphertext := plaintext }).step S
        (.lookup opSend (profilePayload receiverProfile receiver.myKeys.publicKey :: more)
          sent)).puts = sender.puts ++ [put] ∧
      ((∃ packet, (run (step S) receiver [.inbox [(opReceive, put.payload)] false,
          .lookup opReceive (profilePayload senderProfile sender.myKeys.publicKey :: more')
            received]).reports =
          receiver.reports ++ [⟨sender.myId, plaintext, packet, received.now⟩]) ↔
        sender.myId ≠ [] ∧ kDhtFieldSep ∉ sender.myId) := by
  obtain ⟨ciphertext, hSeal, hOpen⟩ := hBox plaintext sent.draws.nonce sent.draws.nonce_length
  have hLong : crypto_box_MACBYTES ≤ ciphertext.length := by
    rw [S.boxEasy_length hSeal]
    exact Nat.le_add_right _ _
  have hPuts := sendPacket_puts S hSenderUp opSend receiverId
    { senderId := sender.myId, receiverId := receiverId, ciphertext := plaintext }
    (profileKey_profilePayload receiverProfile receiver.myKeys.publicKey more) sent hSeal
  refine ⟨_, hPuts, ?_⟩
  rw [two_step_reports]
  constructor
  · rintro ⟨packet, hReports⟩
    have hReport : (⟨sender.myId, plaintext, packet, received.now⟩ : Report) ∈ _ :=
      List.append_cancel_left hReports ▸ List.mem_singleton_self _
    obtain ⟨body, hParse⟩ := header_of_report S hFresh hReport
    exact ⟨senderId_ne_nil hParse, sep_not_mem_senderId hParse⟩
  · rintro ⟨hne, hSep⟩
    have hTrim : trim isSpace sender.myId = sender.myId := by rw [hStored, trim_trim]
    obtain ⟨packet, hReport⟩ := report_of_sealed S hReceiverUp hListening hMe hTrim hne hSep hDiffer
      sent.now_range receiverId hLong hDelivered hSeen
      (profileKey_profilePayload senderProfile sender.myKeys.publicKey more') hKey hOpen hPositive
      hWindow opReceive
    exact ⟨packet, congrArg _ hReport⟩

end P2PNode

namespace Peer

theorem roundTrips_alice_bob :
    Sodium.additive.RoundTrips alice.launch.node.myKeys bob.launch.node.myKeys := by
  have hAlice : alice.launch.node.myKeys = (GeneratedKeys.constant 7).keys := by decide +kernel
  have hBob : bob.launch.node.myKeys = (GeneratedKeys.constant 40).keys := by decide +kernel
  rw [hAlice, hBob]
  exact additive_roundTrips 7 40

/-- What Alice's node puts for Bob is reported at Bob's node. -/
theorem alice_reported_to_bob :
    ∃ put : Put, ∃ packet,
      (run (P2PNode.step .additive) bob.launch.node [.inbox [(0, put.payload)] false,
        .lookup 0 [profilePayload {} alice.launch.node.myKeys.publicKey] noon]).reports =
      bob.launch.node.reports ++ [⟨alice.launch.node.myId, bytes "hi", packet, noon.now⟩] := by
  have hStored : alice.launch.node.myId = trim isSpace alice.launch.id := by decide +kernel
  have hMe : bob.launch.node.myId ≠ [] := by decide +kernel
  have hDiffer : alice.launch.node.myId ≠ bob.launch.node.myId := by decide +kernel
  have hUp : alice.launch.node.dht.running = true ∧ bob.launch.node.dht.running = true ∧
      bob.launch.node.dht.listenName.isSome := by decide +kernel
  have hKey : alice.launch.node.myKeys.publicKey.length = crypto_box_PUBLICKEYBYTES := by
    decide +kernel
  have hFresh : ∀ g ∈ bob.launch.node.dht.gets, g.op ≠ 0 := by decide +kernel
  have hTime : 0 < noon.now ∧ |noon.now - noon.now| ≤ 300 := by decide +kernel
  have hSeen : generateMessageId noon.draws.messageId ∉
      bob.launch.node.crypto.seenMessageIds alice.launch.node.myId := by decide +kernel
  have hDelivered : buildInboxDedupeKey alice.launch.node.myId
      (generateMessageId noon.draws.messageId) ∉ bob.launch.node.deliveredInboxKeys := by
    decide +kernel
  have hUsable : alice.launch.node.myId ≠ [] ∧ kDhtFieldSep ∉ alice.launch.node.myId := by
    decide +kernel
  obtain ⟨put, -, hIff⟩ := P2PNode.reported_iff_usable_id .additive hStored hMe hDiffer hUp.1
    hUp.2.1 hUp.2.2 hKey roundTrips_alice_bob bob.launch.userId (bytes "hi") {} {} [] [] 0 hFresh
    hTime.1 hTime.2 hSeen hDelivered
  exact ⟨put, hIff.mpr hUsable⟩

/-- The first second of the epoch. -/
def epoch : CallbackInput := { now := 0, draws := .constant 5 9 }

/-- A message sent when the clock reads zero is not reported, whatever the sender's id. -/
theorem epoch_not_reported :
    Sodium.additive.RoundTrips alice.launch.node.myKeys bob.launch.node.myKeys ∧
      ((alice.launch.node.sendPacket 0 bob.launch.userId
          { senderId := alice.launch.node.myId, receiverId := bob.launch.userId,
            ciphertext := bytes "hi" }).step .additive
        (.lookup 0 [bob.profile] epoch)).puts.map Put.payload =
          [fullPayload alice.launch.userId (aliceSealed (bytes "hi") epoch)] ∧
      (run (P2PNode.step .additive) bob.launch.node
        [.inbox [(0, fullPayload alice.launch.userId (aliceSealed (bytes "hi") epoch))] false,
          .lookup 0 [alice.profile] epoch]).reports = [] ∧
      alice.launch.userId ≠ [] ∧ kDhtFieldSep ∉ alice.launch.userId :=
  ⟨roundTrips_alice_bob, by decide +kernel, by decide +kernel, by decide +kernel,
    by decide +kernel⟩

end Peer

end P2PMessenger
