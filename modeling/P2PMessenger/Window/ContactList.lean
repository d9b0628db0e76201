import P2PMessenger.Window.Painting

/-!
# Which conversations the contact list opens

A message is filed under the bytes of an id, but the id enters the contact list only if
`FindString` finds no entry for it, and that search ignores case. So a conversation can be
opened from the list exactly if its id is there in its own spelling when the first message
is filed.
-/

namespace P2PMessenger

open Text Run

/-- A comparison as that of `wxListBox::FindString` with one argument. -/
def ignoringCase (s t : WxString) : Bool := s.map Char.toLower == t.map Char.toLower

theorem ignoringCase_self (s : WxString) : ignoringCase s s = true := beq_self_eq_true _

namespace MainWindow

variable (sameItem : WxString → WxString → Bool)

/-! ## What is added to the list -/

/-- The message of an event is filed under the id that the event hands to the list. -/
theorem message_newContact {w : MainWindow} {e : WxString × WindowEvent} {m : Bytes × ChatEntry}
    (h : m ∈ w.message e) :
    m.2.peer = w.newContact e ∧ m.1 = WxString.utf8_str (w.newContact e) := by
  obtain ⟨now, e⟩ := e
  cases e with
  | send =>
    simp only [message] at h
    split at h
    · cases h
    · rename_i hSends
      simp only [not_or] at hSends
      obtain rfl := List.mem_singleton.mp h
      simp [newContact, hSends]
  | thread event localPeerId localPort =>
    cases event with
    | messageReceived event =>
      simp only [message] at h
      split at h
      · cases h
      · obtain rfl := List.mem_singleton.mp h
        exact ⟨rfl, rfl⟩
    | _ => cases h
  | _ => cases h

/-! ## The list and the conversations -/

/-- Every stored conversation has one entry in its own spelling, and selecting some entry opens
it. -/
def Openable (w : MainWindow) : Prop :=
  ∀ key, w.history key ≠ [] →
    (w.contactsList.map encode).count key = 1 ∧
      ∃ selection, ∀ now, (w.onContactSelected selection now).activeContactId = key

/-- What holds of the list and the conversations in any case. -/
structure Booked (w : MainWindow) : Prop where
  nodup : w.contactsList.Nodup
  keys : ∀ key, w.history key ≠ [] → key ≠ [] ∧ 0 ∉ key

/-- A key is in the list at most once, and its entry opens it. -/
theorem Booked.openable_iff {w : MainWindow} (h : w.Booked) :
    w.Openable ↔ ∀ key, w.history key ≠ [] → key ∈ w.contactsList.map encode := by
  have hNodup : (w.contactsList.map encode).Nodup := h.nodup.map encode_injective
  constructor
  · intro hOpenable key hKey
    apply List.count_pos_iff.mp
    rw [(hOpenable key hKey).1]
    exact Nat.one_pos
  · intro hListed key hKey
    obtain ⟨hne, hZero⟩ := h.keys key hKey
    have hMem := hListed key hKey
    refine ⟨List.count_eq_one_of_mem hNodup hMem, ?_⟩
    obtain ⟨contactId, hEntry, hEncode⟩ := List.mem_map.mp hMem
    obtain ⟨selection, hSelection⟩ := List.mem_iff_getElem?.mp hEntry
    refine ⟨selection, ?_⟩
    intro now
    have hId : WxString.utf8_str contactId = key := by
      rw [WxString.utf8_str, hEncode]
      exact cString_eq_self.mpr hZero
    have hOpened := switchActiveContact_eq { w with peerIdInput := contactId }
      (WxString.utf8_str contactId) now
    obtain ⟨log, hLog⟩ := hOpened
    simp only [onContactSelected, hSelection]
    rw [hLog, hId]
    exact if_neg hne

/-- The keys with a conversation are the old ones and the key of a new message. -/
theorem step_history_ne_nil (w : MainWindow) (e : WxString × WindowEvent) (key : Bytes) :
    (w.step sameItem e).history key ≠ [] ↔
      w.history key ≠ [] ∨ ∃ m ∈ w.message e, m.1 = key := by
  rw [step_conversation, ne_eq, List.append_eq_nil_iff, not_and_or]
  apply or_congr Iff.rfl
  rw [List.filterMap_eq_nil_iff]
  constructor
  · intro hSome
    by_contra hNone
    apply hSome
    intro m hMem
    exact if_neg fun hKey => hNone ⟨m, hMem, hKey⟩
  · rintro ⟨m, hMem, rfl⟩ hNone
    have hEntry := hNone m hMem
    simp [entryOf] at hEntry

theorem contactsList_subset_step (w : MainWindow) (e : WxString × WindowEvent) :
    w.contactsList ⊆ (w.step sameItem e).contactsList := by
  rw [step_contactsList, contactsList_addContactToList]
  split
  · exact List.Subset.refl _
  · exact List.subset_append_left _ _

variable {sameItem}

theorem Booked.step {w : MainWindow} (h : w.Booked) (hSame : ∀ s, sameItem s s = true)
    (e : WxString × WindowEvent) : (w.step sameItem e).Booked := by
  constructor
  · rw [step_contactsList, contactsList_addContactToList]
    split
    · exact h.nodup
    · rename_i hNew
      rw [not_or] at hNew
      -- an id that is in the list is found there
      have hAbsent : w.newContact e ∉ w.contactsList := by
        intro hMem
        exact hNew.2 (List.any_eq_true.mpr ⟨_, hMem, hSame _⟩)
      rw [← List.concat_eq_append]
      exact h.nodup.concat hAbsent
  · intro key hKey
    rcases (step_history_ne_nil sameItem w e key).mp hKey with hOld | ⟨m, hMem, rfl⟩
    · exact h.keys key hOld
    · refine ⟨message_key_ne_nil hMem, ?_⟩
      rw [(message_newContact hMem).2]
      exact WxString.zero_not_mem_utf8_str _

variable (sameItem)

/-- A message is filed under an id that is in the list in that spelling, or that enters the
list now: no entry is found for it, and it has no zero character. -/
def FilesListed (w : MainWindow) (e : WxString × WindowEvent) : Prop :=
  ∀ m ∈ w.message e, m.1 ∈ w.contactsList.map encode ∨
    (encode m.2.peer = m.1 ∧ w.contactsList.any (sameItem m.2.peer) = false)

instance (w : MainWindow) (e : WxString × WindowEvent) :
    Decidable (w.FilesListed sameItem e) := by
  unfold FilesListed
  infer_instance

variable {sameItem}

theorem Booked.openable_step_iff {w : MainWindow} (h : w.Booked) (hOpenable : w.Openable)
    (hSame : ∀ s, sameItem s s = true) (e : WxString × WindowEvent) :
    (w.step sameItem e).Openable ↔ w.FilesListed sameItem e := by
  have hOld := h.openable_iff.mp hOpenable
  rw [(h.step hSame e).openable_iff]
  constructor
  · intro hListed m hMem
    have hKey : m.1 ∈ (w.step sameItem e).contactsList.map encode := by
      apply hListed
      rw [step_history_ne_nil]
      exact Or.inr ⟨m, hMem, rfl⟩
    rw [step_contactsList, contactsList_addContactToList] at hKey
    rw [(message_newContact hMem).1]
    split at hKey
    · exact Or.inl hKey
    · rename_i hNew
      rw [not_or] at hNew
      rw [List.map_append, List.mem_append, List.map_singleton, List.mem_singleton] at hKey
      rcases hKey with hEntry | hAdded
      · exact Or.inl hEntry
      · exact Or.inr ⟨hAdded.symm, by simpa using hNew.2⟩
  · intro hFiles key hKey
    have hKept : w.contactsList.map encode ⊆ (w.step sameItem e).contactsList.map encode :=
      List.map_subset encode (contactsList_subset_step sameItem w e)
    rcases (step_history_ne_nil sameItem w e key).mp hKey with hBefore | ⟨m, hMem, rfl⟩
    · exact hKept (hOld key hBefore)
    · obtain ⟨hPeer, -⟩ := message_newContact hMem
      rcases hFiles m hMem with hEntry | ⟨hEncode, hNew⟩
      · exact hKept hEntry
      · rw [hPeer] at hEncode hNew
        have hne : w.newContact e ≠ [] := by
          intro hNil
          rw [hNil] at hEncode
          exact message_key_ne_nil hMem hEncode.symm
        rw [step_contactsList, contactsList_addContactToList, hNew, if_neg (by simp [hne]),
          List.map_append, ← hEncode]
        exact List.mem_append_right _ (List.mem_singleton.mpr rfl)

/-- Every conversation can be opened in all states of a run, if and only if each message of it
is filed under an id that is or now comes into the list in that spelling. -/
theorem openable_iff_along (hSame : ∀ s, sameItem s s = true)
    (es : List (WxString × WindowEvent)) :
    (∀ pre, pre <+: es → (run (step sameItem) {} pre).Openable) ↔
      Along (step sameItem) (FilesListed sameItem) {} es := by
  have hStart : ({} : MainWindow).Booked := by
    refine ⟨List.nodup_nil, ?_⟩
    intro key hKey
    exact absurd rfl hKey
  have hOpenable : ({} : MainWindow).Openable := by
    intro key hKey
    exact absurd rfl hKey
  exact forall_prefix_iff_along (I := Booked) (Q := Openable)
    (fun _ e h => h.step hSame e) (fun _ e h hQ => h.openable_step_iff hQ hSame e) hStart
    hOpenable es

/-- A message from Bob, and one to Alice. -/
def bobAndAlice : List (WxString × WindowEvent) :=
  [(wxT "12:00:00", .thread (.messageReceived (messageEvent (bytes "bob") (bytes "hi")))
      (bytes "me") 4222),
    (wxT "12:00:01", .type [] (wxT "Alice") (wxT "hello")),
    (wxT "12:00:02", .send)]

theorem bob_and_alice_openable : (run (step ignoringCase) {} bobAndAlice).Openable :=
  (openable_iff_along ignoringCase_self bobAndAlice).mpr (by decide +kernel) bobAndAlice
    (List.prefix_refl _)

/-- After a message to "Bob" the one from "bob" has no entry. -/
theorem bob_not_openable :
    ¬ (run (step ignoringCase) {}
      [(wxT "12:00:00", .type [] (wxT "Bob") (wxT "hello")),
        (wxT "12:00:01", .send),
        (wxT "12:00:02", .thread (.messageReceived (messageEvent (bytes "bob") (bytes "hi")))
          (bytes "me") 4222)]).Openable := by
  intro hOpenable
  have hCount := (hOpenable (bytes "bob") (by decide +kernel)).1
  revert hCount
  decide +kernel

end MainWindow

end P2PMessenger
