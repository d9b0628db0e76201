import P2PMessenger.Program.Correspondence
import P2PMessenger.Network.Delivery

/-!
# When nothing is lost

The incoming side of a conversation is among the outgoing side in the window of the other
peer. The two sides are equal once a value has been put for every message, the reader has
looked up the sender of every value in time, and its window has handled what its node
queued.
-/

namespace P2PMessenger

open Text Crypto Run

section Programs

variable {ι κ : Type} [DecidableEq ι] {sameItem : WxString → WxString → Bool} {S : Sodium}
  {peers : ι → Launch} {dial : ι → Bytes × Bytes} {hash : Bytes → κ} {ids : Set Bytes}

variable (sameItem S peers dial) in
/-- The reader's lookup for a packet of the writer was answered with a key, inside the time
window of the packet. -/
def AnsweredInTime (es : List (ι × WxString × Input)) (writer reader : ι)
    (packet : EncryptedPacket) : Prop :=
  ∃ pre now op values io post key, es = pre ++ (reader, now, .lookup op values io) :: post ∧
    (nodes (programsAfter sameItem S peers dial pre) reader).lookupAction op values =
      .decrypt (peers writer).userId packet key ∧
    key.length = crypto_box_PUBLICKEYBYTES ∧ 0 < packet.timestamp ∧
    |io.now - packet.timestamp| ≤ 300

theorem mem_reported_of_answeredInTime {es : List (ι × WxString × Input)}
    (h : ClosedPrograms sameItem S peers dial hash ids es) {writer reader : ι}
    (hDraws : (((nodes (programsAfter sameItem S peers dial es) writer).sentTo
      (peers reader).userId).map EncryptedPacket.messageId).Nodup) {packet : EncryptedPacket}
    (hAnswered : AnsweredInTime sameItem S peers dial es writer reader packet) :
    packet ∈ ((nodes (programsAfter sameItem S peers dial es) reader).reportsFrom
      (peers writer).userId).map Report.packet := by
  obtain ⟨pre, now, op, values, io, post, key, rfl, hAction, hLength, hPositive, hWindow⟩ :=
    hAnswered
  have hEvents : added (netStep (Messenger.step sameItem S)) (nodeEventsOf sameItem S)
        (launchAll peers dial) (pre ++ (reader, now, .lookup op values io) :: post) =
      added (netStep (Messenger.step sameItem S)) (nodeEventsOf sameItem S)
        (launchAll peers dial) pre ++ (reader, .lookup op values io) ::
          added (netStep (Messenger.step sameItem S)) (nodeEventsOf sameItem S)
            (netStep (Messenger.step sameItem S) (programsAfter sameItem S peers dial pre)
              (reader, now, .lookup op values io)) post := by
    rw [added_append]
    rfl
  have hRun := closedRun_nodes h
  rw [nodes_programsAfter] at hAction hDraws ⊢
  rw [hEvents] at hRun hDraws ⊢
  exact mem_reported_of_answered S hRun hAction hLength hPositive hWindow hDraws

/-- A window that has handled all events shows all reports. -/
theorem incoming_eq {es : List (ι × WxString × Input)}
    (h : ClosedPrograms sameItem S peers dial hash ids es) {reader : ι}
    (hHandled : (programsAfter sameItem S peers dial es reader).pendingEvent = none)
    (key : Bytes) :
    (programsAfter sameItem S peers dial es reader).window.texts .incoming key =
      Messenger.shown (programsAfter sameItem S peers dial es reader).reported key := by
  have hReadable := readable_reported h reader
  have hAll : (programsAfter sameItem S peers dial es reader).handledEvents =
      (programsAfter sameItem S peers dial es reader).system.app.node.ui :=
    List.take_of_length_le (List.getElem?_eq_none_iff.mp hHandled)
  rw [programsAfter_apply] at hReadable hAll ⊢
  rw [Messenger.texts_incoming sameItem S _ _ _ _ hReadable key, hAll,
    Messenger.launched_messages]

/-- In every run of programs over one DHT in which nobody is renamed: if a value has been put for every message that the
window of a writer shows as sent to a reader, under different message ids, the reader's lookup
for each value was answered with a key in time, and no event of its node is waiting, then the
two windows show the same conversation, text by text and with multiplicity. -/
theorem conversation_complete {es : List (ι × WxString × Input)}
    (h : ClosedPrograms sameItem S peers dial hash ids es) {writer reader : ι}
    (hPut : ((nodes (programsAfter sameItem S peers dial es) writer).sentTo
        (peers reader).userId).length =
      ((programsAfter sameItem S peers dial es writer).window.texts .outgoing
        (peers reader).userId).length)
    (hDraws : (((nodes (programsAfter sameItem S peers dial es) writer).sentTo
      (peers reader).userId).map EncryptedPacket.messageId).Nodup)
    (hAnswered : ∀ packet ∈ (nodes (programsAfter sameItem S peers dial es) writer).sentTo
      (peers reader).userId, AnsweredInTime sameItem S peers dial es writer reader packet)
    (hHandled : (programsAfter sameItem S peers dial es reader).pendingEvent = none) :
    ((programsAfter sameItem S peers dial es reader).window.texts .incoming
        (peers writer).userId : Multiset WxString) =
      ↑((programsAfter sameItem S peers dial es writer).window.texts .outgoing
        (peers reader).userId) := by
  have hReported : (nodes (programsAfter sameItem S peers dial es) writer).sentTo
        (peers reader).userId ⊆
      ((nodes (programsAfter sameItem S peers dial es) reader).reportsFrom
        (peers writer).userId).map Report.packet :=
    fun packet hPacket => mem_reported_of_answeredInTime h hDraws (hAnswered packet hPacket)
  have hNodup := hDraws.of_map _
  rw [outgoing_eq h writer, List.length_map] at hPut
  rw [nodes_programsAfter] at hPut hNodup hReported
  have hTexts := reported_texts_eq S (closedRun_nodes h) hPut hNodup hReported
  rw [incoming_eq h hHandled, outgoing_eq h writer, shown_reported]
  exact congrArg (Multiset.map WxString.fromUTF8) hTexts

end Programs

namespace Peer

theorem typedHello_answered :
    ∀ packet ∈ (nodes (programsAfter (· == ·) .additive launch dial typedHello) alice).sentTo
      bob.launch.userId,
      AnsweredInTime (· == ·) .additive launch dial typedHello alice bob packet := by
  have hSent : (nodes (programsAfter (· == ·) .additive launch dial typedHello) alice).sentTo
      bob.launch.userId = [aliceSealed (bytes "hi") noon] := by decide +kernel
  intro packet hPacket
  rw [hSent] at hPacket
  obtain rfl := List.mem_singleton.mp hPacket
  exact ⟨typedHello.take 12, wxT "12:00:00", 0, [alice.published], noon, typedHello.drop 13,
    alice.launch.publicKey, rfl, by decide +kernel, by decide +kernel, by decide +kernel,
    by decide +kernel⟩

theorem typedHello_conversation_complete :
    ((programsAfter (· == ·) .additive launch dial typedHello bob).window.texts .incoming
        alice.launch.userId : Multiset WxString) =
      ↑((programsAfter (· == ·) .additive launch dial typedHello alice).window.texts .outgoing
        bob.launch.userId) :=
  conversation_complete typedHello_closed (by decide +kernel) (by decide +kernel)
    typedHello_answered (by decide +kernel)

end Peer

end P2PMessenger
