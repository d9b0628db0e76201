import P2PMessenger.Window.ContactList
import P2PMessenger.Controller.App

/-!
# The id of an added contact

`OnAddContactClicked` trims the typed text on the right, `SendCurrentMessage` trims the
selected entry on both sides and `AppController::sendMessage` trims its bytes. The four
places use one id exactly if the typed text starts with no white space, has no zero
character and comes into the list as it is.
-/

namespace P2PMessenger

open Text Run

/-! ## What the controller does with an id -/

namespace AppController

theorem mem_contacts_addContact {a : AppController} {op : Nat} {id : Bytes} (h : id ≠ []) :
    id ∈ (a.addContact op id).contacts := by
  unfold addContact recordContact
  rw [if_neg h]
  dsimp only
  split
  · assumption
  · exact List.mem_append_right _ (List.mem_singleton.mpr rfl)

theorem gets_addContact {a : AppController} {op : Nat} {id : Bytes} (h : id ≠ []) :
    (a.addContact op id).node.dht.gets = ⟨op, .findPeer id, false⟩ :: a.node.dht.gets := by
  unfold addContact recordContact
  rw [if_neg h]
  dsimp only
  split <;> rfl

theorem sendMessage_of_trimmed {a : AppController} {id : Bytes} (hTrim : trim isSpace id = id)
    (h : id ≠ []) (op : Nat) (text : Bytes) :
    a.sendMessage op id text = { a with node := a.node.sendMessage op id text } := by
  simp only [sendMessage, hTrim, h, if_false]

end AppController

namespace MainWindow

variable (sameItem : WxString → WxString → Bool)

/-- The entry that a click on Add Contact hands to the list. -/
def typedContact (w : MainWindow) : WxString := trimRight w.addContactInput

/-! ## One id in four places -/

/-- Selecting the entry opens the thread of `id`, and a message sent then is addressed to `id`
and recorded there, without a new entry. -/
def SendsTo (v : MainWindow) (id : Bytes) (selection : Nat) (text now now' : WxString) : Prop :=
  let s := v.onContactSelected selection now
  let t := ({ s with messageInput := text } : MainWindow).sendCurrentMessage sameItem now'
  s.activeContactId = id ∧ t.activeContactId = id ∧
    t.calls = v.calls ++ [.sendMessage id (WxString.utf8_str text)] ∧
    t.contactsList = v.contactsList ∧
    (∃ entry, t.history id = v.history id ++ [entry]) ∧
    ∀ key, key ≠ id → t.history key = v.history key

/-- A click on Add Contact and every later send to the new entry use the id `id`. -/
structure OneId (w : MainWindow) (now : WxString) (id : Bytes) : Prop where
  call : (w.onAddContactClicked sameItem now).calls = w.calls ++ [.addContact id]
  contacts : ∀ (a : AppController) op, id ∈ (a.addContact op id).contacts
  lookup : ∀ (a : AppController) op,
    (a.addContact op id).node.dht.gets = ⟨op, .findPeer id, false⟩ :: a.node.dht.gets
  listed : w.typedContact ∈ (w.onAddContactClicked sameItem now).contactsList ∧
    encode w.typedContact = id
  sends : ∀ es selection text now₁ now₂, text ≠ [] →
    let v := run (step sameItem) (w.onAddContactClicked sameItem now) es
    v.contactsList[selection]? = some w.typedContact →
      v.SendsTo sameItem id selection text now₁ now₂
  addressed : ∀ (a : AppController) op text,
    a.sendMessage op id text = { a with node := a.node.sendMessage op id text }

/-- The typed text starts with no white space and has no zero character, and it is in the list
or no entry is found for it. -/
def Canonical (w : MainWindow) : Prop :=
  WxString.trimLeft w.typedContact = w.typedContact ∧ '\x00' ∉ w.typedContact ∧
    (w.typedContact ∈ w.contactsList ∨
      w.contactsList.any (sameItem w.typedContact) = false)

instance (w : MainWindow) : Decidable (w.Canonical sameItem) := by
  unfold Canonical
  infer_instance

theorem onAddContactClicked_of_typed {w : MainWindow} (h : w.typedContact ≠ []) (now : WxString) :
    (w.onAddContactClicked sameItem now).calls =
        w.calls ++ [.addContact (WxString.utf8_str w.typedContact)] ∧
      (w.onAddContactClicked sameItem now).contactsList =
        (w.addContactToList sameItem w.typedContact).contactsList := by
  have hCalls : w.newCalls (now, .addContact) =
      [.addContact (WxString.utf8_str w.typedContact)] := if_neg h
  refine ⟨?_, step_contactsList sameItem w (now, .addContact)⟩
  rw [← hCalls]
  exact step_calls sameItem w (now, .addContact)

theorem activeContactId_switchActiveContact (w : MainWindow) {contactId : Bytes}
    (h : contactId ≠ []) (now : WxString) :
    (w.switchActiveContact contactId now).activeContactId = contactId := by
  obtain ⟨log, hLog⟩ := w.switchActiveContact_eq contactId now
  rw [hLog]
  exact if_neg h

@[simp] theorem activeContactId_recordMessage (w : MainWindow) (contactId : Bytes)
    (kind : ChatMessageKind) (peer text now : WxString) :
    (w.recordMessage contactId kind peer text now).activeContactId = w.activeContactId := by
  obtain ⟨log, hLog⟩ := w.recordMessage_eq contactId kind peer text now
  rw [hLog]

theorem onContactSelected_eq {v : MainWindow} {selection : Nat} {entry : WxString}
    (hEntry : v.contactsList[selection]? = some entry) (now : WxString) :
    ∃ log, v.onContactSelected selection now =
      { v with
        peerIdInput := entry
        activeContactId :=
          if WxString.utf8_str entry = [] then v.activeContactId else WxString.utf8_str entry
        chatLog := log } := by
  obtain ⟨log, hLog⟩ := switchActiveContact_eq { v with peerIdInput := entry }
    (WxString.utf8_str entry) now
  refine ⟨log, ?_⟩
  simp only [onContactSelected, hEntry]
  exact hLog

/-- What sending does to the books and the open conversation. -/
theorem sendCurrentMessage_effect {w : MainWindow}
    (hSends : ¬ (w.recipient = [] ∨ w.messageInput = [])) (now : WxString) :
    (w.sendCurrentMessage sameItem now).calls =
        w.calls ++
          [.sendMessage (WxString.utf8_str w.recipient) (WxString.utf8_str w.messageInput)] ∧
      (w.sendCurrentMessage sameItem now).contactsList =
        (w.addContactToList sameItem w.recipient).contactsList ∧
      (WxString.utf8_str w.recipient ≠ [] →
        (w.sendCurrentMessage sameItem now).activeContactId = WxString.utf8_str w.recipient) ∧
      ∀ key, (w.sendCurrentMessage sameItem now).history key = w.history key ++
        (if key = [] ∨ key ≠ WxString.utf8_str w.recipient then []
          else [⟨.outgoing, w.recipient, w.messageInput, now⟩]) := by
  obtain ⟨hRecipient, hText⟩ := not_or.mp hSends
  refine ⟨?_, ?_, ?_, ?_⟩
  · have hCalls : w.newCalls (now, .send) = [.sendMessage (WxString.utf8_str w.recipient)
        (WxString.utf8_str w.messageInput)] := if_neg hSends
    rw [← hCalls]
    exact step_calls sameItem w (now, .send)
  · have hContact : w.newContact (now, .send) = w.recipient := if_neg hSends
    rw [← hContact]
    exact step_contactsList sameItem w (now, .send)
  · intro hKey
    rw [sendCurrentMessage_of_sends sameItem hSends]
    exact (activeContactId_recordMessage _ _ _ _ _ _).trans
      (activeContactId_switchActiveContact _ hKey now)
  · intro key
    have hEntries : w.newEntries (now, .send) key =
        if key = [] ∨ key ≠ WxString.utf8_str w.recipient then []
        else [⟨.outgoing, w.recipient, w.messageInput, now⟩] := by
      show (if w.recipient = [] ∨ w.messageInput = [] ∨ key = [] ∨
          key ≠ WxString.utf8_str w.recipient then ([] : List ChatEntry)
        else [⟨.outgoing, w.recipient, w.messageInput, now⟩]) = _
      simp only [hRecipient, hText, false_or]
    rw [← hEntries]
    exact step_history sameItem w (now, .send) key

/-- What a message sent to the selected entry does, in terms of the entry trimmed on the
left. -/
theorem send_selected {v : MainWindow} {selection : Nat} {entry : WxString}
    (hEntry : v.contactsList[selection]? = some entry) (hRight : trimRight entry = entry)
    {recipient : WxString} (hLeft : WxString.trimLeft entry = recipient) (hne : recipient ≠ [])
    {text : WxString} (hText : text ≠ []) (now now' : WxString) :
    let t := ({ v.onContactSelected selection now with messageInput := text } :
      MainWindow).sendCurrentMessage sameItem now'
    t.calls = v.calls ++ [.sendMessage (WxString.utf8_str recipient) (WxString.utf8_str text)] ∧
      t.contactsList = (v.addContactToList sameItem recipient).contactsList ∧
      (WxString.utf8_str recipient ≠ [] → t.activeContactId = WxString.utf8_str recipient) ∧
      ∀ key, t.history key = v.history key ++
        (if key = [] ∨ key ≠ WxString.utf8_str recipient then []
          else [⟨.outgoing, recipient, text, now'⟩]) := by
  obtain ⟨log, hLog⟩ := onContactSelected_eq hEntry now
  -- opening the entry leaves the books as they are
  obtain ⟨o, hOpened⟩ : ∃ o : MainWindow,
      { v.onContactSelected selection now with messageInput := text } = o := ⟨_, rfl⟩
  have hRecipient : o.recipient = recipient := by
    rw [← hOpened, hLog]
    show WxString.trimLeft (trimRight entry) = recipient
    rw [hRight, hLeft]
  have hInput : o.messageInput = text := by rw [← hOpened]
  have hSends : ¬ (o.recipient = [] ∨ o.messageInput = []) := by
    rw [hRecipient, hInput]
    simp [hne, hText]
  have hBooks : o.books = v.books := by
    rw [← hOpened, hLog]
    rfl
  have hCalls : o.calls = v.calls := congrArg Books.calls hBooks
  have hList : o.contactsList = v.contactsList := congrArg Books.contactsList hBooks
  have hHistory : o.history = v.history := congrArg Books.history hBooks
  have hEffect := sendCurrentMessage_effect sameItem hSends now'
  rw [hRecipient, hInput, contactsList_addContactToList, hList, ← contactsList_addContactToList,
    hCalls, hHistory] at hEffect
  rw [hOpened]
  exact hEffect

/-! ## When the ids agree -/

variable {sameItem}

theorem typedContact_ne_nil {w : MainWindow} (h : ¬ w.addContactInput.all isSpaceChar = true) :
    WxString.trimLeft w.typedContact ≠ [] := by
  intro hNil
  have hSpaces : ∀ c ∈ w.typedContact, isSpaceChar c = true := List.dropWhile_eq_nil_iff.mp hNil
  apply h
  rw [List.all_eq_true]
  apply List.rdropWhile_eq_nil_iff.mp
  -- a last character would be kept
  by_contra hne
  have hLast := getLast?_rdropWhile (List.getLast?_eq_some_getLast hne)
  rw [hSpaces _ (List.getLast_mem hne)] at hLast
  cases hLast

theorem utf8_str_of_no_zero {cs : WxString} (h : '\x00' ∉ cs) : WxString.utf8_str cs = encode cs :=
  cString_eq_self.mpr (mt zero_mem_encode.mp h)

/-- The added entry is in the list, if no other one was found for it. -/
theorem mem_addContactToList_iff {w : MainWindow} {entry : WxString} (h : entry ≠ []) :
    entry ∈ (w.addContactToList sameItem entry).contactsList ↔
      entry ∈ w.contactsList ∨ w.contactsList.any (sameItem entry) = false := by
  rw [contactsList_addContactToList]
  cases hFound : w.contactsList.any (sameItem entry) with
  | true => simp
  | false => simp [h]

/-- An entry that is in the list is not added again. -/
theorem contactsList_of_mem (hSame : ∀ s, sameItem s s = true) {w : MainWindow} {entry : WxString}
    (h : entry ∈ w.contactsList) :
    (w.addContactToList sameItem entry).contactsList = w.contactsList := by
  rw [contactsList_addContactToList]
  exact if_pos (Or.inr (List.any_eq_true.mpr ⟨entry, h, hSame entry⟩))

theorem Canonical.oneId (hSame : ∀ s, sameItem s s = true) {w : MainWindow}
    (hTyped : ¬ w.addContactInput.all isSpaceChar = true) (h : w.Canonical sameItem)
    (now : WxString) : w.OneId sameItem now (encode w.typedContact) := by
  obtain ⟨hLeft, hZero, hListed⟩ := h
  have hne : w.typedContact ≠ [] := hLeft ▸ typedContact_ne_nil hTyped
  have hId : WxString.utf8_str w.typedContact = encode w.typedContact := utf8_str_of_no_zero hZero
  have hIdNe : encode w.typedContact ≠ [] := fun hNil => hne (encode_eq_nil.mp hNil)
  have hTrim : trim isSpace (encode w.typedContact) = encode w.typedContact :=
    trim_encode hLeft (trimRight_trimRight _)
  obtain ⟨hCalls, hList⟩ := onAddContactClicked_of_typed sameItem hne now
  refine ⟨?_, fun _ _ => AppController.mem_contacts_addContact hIdNe,
    fun _ _ => AppController.gets_addContact hIdNe, ⟨?_, rfl⟩, ?_,
    fun _ op text => AppController.sendMessage_of_trimmed hTrim hIdNe op text⟩
  · rw [hCalls, hId]
  · rw [hList]
    exact (mem_addContactToList_iff hne).mpr hListed
  · intro es selection text now₁ now₂ hText v hEntry
    obtain ⟨hSent, hSame', hActive, hHistory⟩ := send_selected sameItem hEntry
      (trimRight_trimRight _) hLeft hne hText now₁ now₂
    obtain ⟨log, hOpened⟩ := onContactSelected_eq hEntry now₁
    rw [hId] at hSent hActive hHistory hOpened
    have hMem : w.typedContact ∈ v.contactsList := List.mem_of_getElem? hEntry
    refine ⟨?_, hActive hIdNe, hSent, ?_, ⟨⟨.outgoing, w.typedContact, text, now₂⟩, ?_⟩, ?_⟩
    · rw [hOpened]
      exact if_neg hIdNe
    · rw [hSame', contactsList_of_mem hSame hMem]
    · rw [hHistory, if_neg (by simp [hIdNe])]
    · intro key hKey
      rw [hHistory, if_pos (Or.inr hKey), List.append_nil]

/-- For every text typed into the field that is not all white space, the four places use one
id, now and at every later send to the entry, if and only if the text is canonical. -/
theorem one_id_iff (hSame : ∀ s, sameItem s s = true) {w : MainWindow}
    (hTyped : ¬ w.addContactInput.all isSpaceChar = true) (now : WxString) :
    (∃ id, w.OneId sameItem now id) ↔ w.Canonical sameItem := by
  constructor
  · rintro ⟨id, h⟩
    have hLeftNe : WxString.trimLeft w.typedContact ≠ [] := typedContact_ne_nil hTyped
    have hne : w.typedContact ≠ [] := by
      intro hNil
      rw [hNil] at hLeftNe
      exact hLeftNe rfl
    obtain ⟨hCalls, hList⟩ := onAddContactClicked_of_typed sameItem hne now
    obtain ⟨hListed, hEncode⟩ := h.listed
    have hId : WxString.utf8_str w.typedContact = id := by
      have hCall := hCalls.symm.trans h.call
      rw [List.append_cancel_left_eq] at hCall
      exact ControllerCall.addContact.inj (List.singleton_inj.mp hCall)
    have hZero : '\x00' ∉ w.typedContact := by
      rw [← zero_mem_encode, hEncode, ← hId]
      exact WxString.zero_not_mem_utf8_str _
    refine ⟨?_, hZero, ?_⟩
    · -- send at once to the new entry
      obtain ⟨selection, hSelection⟩ := List.mem_iff_getElem?.mp hListed
      have hText : wxT "x" ≠ [] := by decide
      have hSends := (h.sends [] selection (wxT "x") now now hText hSelection).2.2.1
      have hSent := (send_selected sameItem hSelection (trimRight_trimRight _) rfl hLeftNe hText
        now now).1
      have hCall := hSent.symm.trans hSends
      rw [run_nil, List.append_cancel_left_eq] at hCall
      have hSame' := (ControllerCall.sendMessage.inj (List.singleton_inj.mp hCall)).1
      have hLeftZero : '\x00' ∉ WxString.trimLeft w.typedContact :=
        fun hMem => hZero ((List.dropWhile_suffix _).subset hMem)
      rw [utf8_str_of_no_zero hLeftZero, ← hEncode] at hSame'
      exact encode_injective hSame'
    · rw [hList] at hListed
      exact (mem_addContactToList_iff hne).mp hListed
  · intro h
    exact ⟨_, h.oneId hSame hTyped now⟩

/-- A new window with this text in the Add Contact field. -/
def typing (text : WxString) : MainWindow := { addContactInput := text }

theorem blank_behind_is_canonical :
    ∃ id, (typing (wxT "bob  ")).OneId ignoringCase (wxT "12:00:00") id :=
  (one_id_iff ignoringCase_self (by decide) (wxT "12:00:00")).mpr (by decide +kernel)

/-- With blanks in front, the list, the contacts and the lookup keep them, and the message goes
to the id without. -/
theorem blanks_before_split_id :
    ¬ ∃ id, (typing (wxT "  bob")).OneId ignoringCase (wxT "12:00:00") id := by
  rintro ⟨id, h⟩
  have hAdded : ((typing (wxT "  bob")).onAddContactClicked ignoringCase (wxT "12:00:00")).calls =
      [.addContact (bytes "  bob")] := by decide +kernel
  have hId : bytes "  bob" = id :=
    ControllerCall.addContact.inj (List.singleton_inj.mp (hAdded.symm.trans h.call))
  subst hId
  have hSends := (h.sends [] 0 (wxT "x") (wxT "12:00:01") (wxT "12:00:02") (by decide)
    (by decide +kernel)).2.2.1
  revert hSends
  decide +kernel

end MainWindow

end P2PMessenger
