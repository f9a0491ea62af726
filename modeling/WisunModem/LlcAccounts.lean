import Mathlib.Data.List.Count
import WisunModem.LlcMessages

/-!
# The accounts of the LLC

Where each request is: listed, waiting, confirmed or dropped.  In every run the list and its
size agree and ids are found.  While the MAC takes what it is given and no EAPOL message is
purged, the list holds only what lies at the MAC, the session flag stands for the one EAPOL
message in it, and each request is in one place.
-/

namespace Llc

/-- An EAPOL message. -/
def Message.isEapol (message : Message) : Bool := message.messageType = .eapol

namespace Base

variable {base : Base} {message : Message} {r : Nat} {loose : List Nat}

/-- In how many places a request is. -/
def places (base : Base) (r : Nat) : Nat :=
  base.llcMessageList.countP (·.request = r) + base.llcEapPendingList.countP (·.request = r) +
    base.confirms.countP (·.request = r) + base.dropped.count r

/-- The accounts: all that is listed lies at the MAC, the flag says whether an EAPOL message
is listed, EAPOL messages wait only then, and each request is in one place. -/
structure Accounts (base : Base) : Prop extends Sized base where
  held : ∀ message ∈ base.llcMessageList, (message.msgHandle, message.request) ∈ base.atMac
  session : base.activeEapolSession = true ↔
    ∃ message ∈ base.llcMessageList, message.messageType = .eapol
  pending : base.llcEapPendingList ≠ [] → base.activeEapolSession = true
  once : ∀ r, base.places r = if r < base.asked then 1 else 0

/-- No request is left to do. -/
def Settled (base : Base) : Prop := base.llcMessageList = [] ∧ base.llcEapPendingList = []

/-! ## Lists and ids -/

/-- A message with its ids at the end of the list. -/
def listed (base : Base) (message : Message) : Base :=
  { base with
    macHandleBase := message.msgHandle + 1
    mpxId := message.mpxId + 1
    llcMessageListSize := base.llcMessageListSize + 1
    llcMessageList := base.llcMessageList ++ [message] }

/-- Ids that no listed message has. -/
def Fresh (base : Base) (message : Message) : Prop :=
  message.msgHandle ∉ base.llcMessageList.map (·.msgHandle) ∧
    message.mpxId ∉ base.llcMessageList.map (·.mpxId)

theorem Sized.room_of_allocate {memory : Bool} (h : base.Sized)
    (hroom : base.llc_message_allocate memory = true) :
    base.llcMessageList.length < messageQueueListSizeMax := by
  unfold llc_message_allocate at hroom
  split at hroom
  · cases hroom
  · next hlt =>
      have hsize := h.size
      omega

/-- **Ids.**  With room in the list both loops end, with ids that are free. -/
theorem addToActive_some (hroom : base.llcMessageList.length < messageQueueListSizeMax)
    (message : Message) :
    ∃ handle id, base.Fresh { message with msgHandle := handle, mpxId := id } ∧
      base.addToActive message = some ({ message with msgHandle := handle, mpxId := id },
        base.listed { message with msgHandle := handle, mpxId := id }) := by
  have hroom : base.llcMessageList.length < 16 := hroom
  have hhandles : (base.llcMessageList.map (·.msgHandle)).length < 2 ^ 8 := by
    rw [List.length_map]
    omega
  have hids : (base.llcMessageList.map (·.mpxId)).length < 2 ^ 4 := by
    rw [List.length_map]
    omega
  obtain ⟨handle, hhandle⟩ := RingSearch.firstFree_ends hhandles base.macHandleBase
  obtain ⟨id, hid⟩ := RingSearch.firstFree_ends hids base.mpxId
  refine ⟨handle, id, ⟨RingSearch.firstFree_fresh hhandle, RingSearch.firstFree_fresh hid⟩, ?_⟩
  simp only [Base.addToActive, llc_message_id_allocate, hhandle, hid, Option.bind_eq_bind,
    Option.bind_some]
  rfl

theorem Sized.listed (h : base.Sized) (hfresh : base.Fresh message)
    (hroom : base.llcMessageList.length < messageQueueListSizeMax) :
    (base.listed message).Sized where
  size := by
    have hsize := h.size
    have hroom : base.llcMessageList.length < 16 := hroom
    show (base.llcMessageListSize + 1).toNat = (base.llcMessageList ++ [message]).length
    rw [UInt8.toNat_add, hsize, List.length_append]
    show (base.llcMessageList.length + 1) % 256 = _
    rw [Nat.mod_eq_of_lt (by omega)]
    rfl
  bounded := by
    show (base.llcMessageList ++ [message]).length ≤ messageQueueListSizeMax
    rw [List.length_append]
    exact hroom
  handles := by
    show ((base.llcMessageList ++ [message]).map (·.msgHandle)).Nodup
    rw [List.map_append]
    exact (List.nodup_append_comm.mp (List.nodup_cons.mpr ⟨hfresh.1, h.handles⟩))
  mpxIds := by
    show ((base.llcMessageList ++ [message]).map (·.mpxId)).Nodup
    rw [List.map_append]
    exact (List.nodup_append_comm.mp (List.nodup_cons.mpr ⟨hfresh.2, h.mpxIds⟩))

theorem Sized.free (h : base.Sized) (hmem : message ∈ base.llcMessageList) :
    (base.llc_message_free message).Sized where
  size := by
    have hsize := h.size
    have hbound : base.llcMessageList.length ≤ 16 := h.bounded
    have hpos := List.length_pos_of_mem hmem
    show (base.llcMessageListSize - 1).toNat = (base.llcMessageList.erase message).length
    rw [List.length_erase_of_mem hmem, UInt8.toNat_sub, hsize]
    show (256 - 1 + base.llcMessageList.length) % 256 = _
    omega
  bounded := Nat.le_trans List.length_erase_le h.bounded
  handles := List.Nodup.sublist (List.erase_sublist.map _) h.handles
  mpxIds := List.Nodup.sublist (List.erase_sublist.map _) h.mpxIds

/-- Sizes depend on the list and its size alone. -/
theorem Sized.congr {base' : Base} (h : base.Sized)
    (hlist : base'.llcMessageList = base.llcMessageList)
    (hsize : base'.llcMessageListSize = base.llcMessageListSize) : base'.Sized where
  size := by rw [hsize, hlist, h.size]
  bounded := hlist ▸ h.bounded
  handles := hlist ▸ h.handles
  mpxIds := hlist ▸ h.mpxIds

theorem Sized.mcps_data_req_ext (h : base.Sized) (message : Message) (status : UInt8) :
    (base.mcps_data_req_ext message status).Sized := by
  unfold Base.mcps_data_req_ext
  split
  · exact h.congr rfl rfl
  · exact h

theorem Sized.mcps_purge_req (h : base.Sized) (handle : BitVec 8) (status : UInt8) :
    (base.mcps_purge_req handle status).Sized := by
  unfold Base.mcps_purge_req
  split
  · exact h.congr rfl rfl
  · exact h

theorem Sized.eapol_send (h : base.Sized)
    (hroom : base.llcMessageList.length < messageQueueListSizeMax) (message : Message)
    (status : UInt8) :
    ∃ base', base.ws_llc_mpx_eapol_send message status = some (status, base') ∧ base'.Sized := by
  obtain ⟨handle, id, hfresh, hadd⟩ := addToActive_some hroom message
  have hsized := (h.listed hfresh hroom).mcps_data_req_ext
    { message with msgHandle := handle, mpxId := id } status
  simp only [ws_llc_mpx_eapol_send, hadd, Option.bind_eq_bind, Option.bind_some]
  refine ⟨_, rfl, ?_⟩
  split
  · exact hsized.congr rfl rfl
  · exact hsized

theorem Sized.startPending (h : base.Sized)
    (hroom : base.llcMessageList.length < messageQueueListSizeMax) (status : UInt8) :
    ∃ base', base.startPending status = some base' ∧ base'.Sized := by
  unfold Base.startPending
  cases hwait : base.llcEapPendingList with
  | nil => exact ⟨base, rfl, h⟩
  | cons first rest =>
      have hpopped : ({ base with
          llcEapPendingList := rest
          llcEapPendingListSize := base.llcEapPendingListSize - 1 } : Base).Sized :=
        h.congr rfl rfl
      obtain ⟨base', hsend, hsized⟩ := hpopped.eapol_send hroom first status
      simp only [hsend, Option.bind_eq_bind, Option.bind_some]
      exact ⟨base', rfl, hsized⟩

/-! ## What one confirm or purge does -/

/-- The session over: the message is free, and its user hears of the confirm. -/
def ended (base : Base) (message : Message) (status : UInt8) : Base :=
  { base.llc_message_free message with activeEapolSession := false }.data_confirm
    .keyManagement message.mpxUserHandle (.mac status) message.request

theorem confirm_none {handle : BitVec 8} {status restart : UInt8}
    (hfind : base.llc_message_discover_by_mac_handle handle = none) :
    base.ws_llc_mac_confirm_cb handle status true restart = some base := by
  simp [ws_llc_mac_confirm_cb, hfind]

theorem confirm_data {handle : BitVec 8} {status restart : UInt8}
    (hfind : base.llc_message_discover_by_mac_handle handle = some message)
    (htype : message.messageType = .data) :
    base.ws_llc_mac_confirm_cb handle status true restart =
      some ((base.llc_message_free message).data_confirm .lowpan message.mpxUserHandle
        (.mac status) message.request) := by
  simp [ws_llc_mac_confirm_cb, hfind, htype]

theorem confirm_eapol {handle : BitVec 8} {status restart : UInt8}
    (hfind : base.llc_message_discover_by_mac_handle handle = some message)
    (htype : message.messageType = .eapol) :
    base.ws_llc_mac_confirm_cb handle status true restart =
      (base.ended message status).startPending restart := by
  simp [ws_llc_mac_confirm_cb, hfind, htype, ended]

theorem purge_some {msduHandle : UInt8} {u : MpxUser}
    (hfind : base.llc_message_discover_mpx_user_id msduHandle u = some message) :
    base.ws_llc_mpx_data_purge_request msduHandle u 0 =
      { (base.mcps_purge_req message.msgHandle 0).llc_message_free message with
        dropped := base.dropped ++ [message.request] } := by
  simp [ws_llc_mpx_data_purge_request, hfind, Base.mcps_purge_req]

/-- A purge that finds nothing, or that the MAC refuses, changes nothing. -/
theorem purge_nothing {msduHandle : UInt8} {u : MpxUser} {status : UInt8}
    (h : base.llc_message_discover_mpx_user_id msduHandle u = none ∨ status ≠ 0) :
    base.ws_llc_mpx_data_purge_request msduHandle u status = base := by
  cases hfind : base.llc_message_discover_mpx_user_id msduHandle u with
  | none => simp [ws_llc_mpx_data_purge_request, hfind]
  | some message =>
      have hrefused : status ≠ 0 := h.resolve_left fun hnone => by
        rw [hfind] at hnone
        cases hnone
      simp [ws_llc_mpx_data_purge_request, hfind, Base.mcps_purge_req, hrefused]

/-- **Every run.**  Each event comes to its end, and list, size and ids agree again. -/
theorem Sized.step (h : base.Sized) (e : Event) :
    ∃ base', base.step e = some base' ∧ base'.Sized := by
  cases e with
  | data msduHandle memory status =>
      show ∃ base', base.ws_llc_lowpan_mpx_data_request msduHandle memory status = some base' ∧ _
      unfold ws_llc_lowpan_mpx_data_request
      cases hroom : base.llc_message_allocate memory with
      | false => exact ⟨_, rfl, h.congr rfl rfl⟩
      | true =>
          have hnext : base.next.Sized := h.congr rfl rfl
          have hlength : base.next.llcMessageList.length < messageQueueListSizeMax :=
            h.room_of_allocate hroom
          obtain ⟨handle, id, hfresh, hadd⟩ :=
            addToActive_some hlength ⟨.data, 0, 0, msduHandle, base.asked⟩
          have hsized := (hnext.listed hfresh hlength).mcps_data_req_ext
            ⟨.data, id, handle, msduHandle, base.asked⟩ status
          simp only [hadd, Option.bind_eq_bind, Option.bind_some]
          refine ⟨_, rfl, ?_⟩
          split
          · exact hsized.congr rfl rfl
          · exact hsized
  | eapol msduHandle memory status =>
      show ∃ base', base.ws_llc_mpx_eapol_request msduHandle memory status = some base' ∧ _
      unfold ws_llc_mpx_eapol_request
      cases hroom : base.llc_message_allocate memory with
      | false => exact ⟨_, rfl, h.congr rfl rfl⟩
      | true =>
          cases hactive : base.activeEapolSession with
          | true => exact ⟨_, rfl, h.congr rfl rfl⟩
          | false =>
              have hnext : base.next.Sized := h.congr rfl rfl
              obtain ⟨base', hsend, hsized⟩ := hnext.eapol_send (h.room_of_allocate hroom)
                ⟨.eapol, 0, 0, msduHandle, base.asked⟩ status
              simp only [hsend, Option.bind_eq_bind, Option.bind_some]
              refine ⟨_, rfl, ?_⟩
              split
              · exact hsized.congr rfl rfl
              · exact hsized
  | confirm handle status confData restart =>
      cases confData with
      | false => exact ⟨base, rfl, h⟩
      | true =>
          have hmac : (base.confirmedByMac handle true).Sized := h.congr rfl rfl
          show ∃ base', (base.confirmedByMac handle true).ws_llc_mac_confirm_cb handle status true
            restart = some base' ∧ _
          generalize base.confirmedByMac handle true = base at hmac ⊢
          cases hfind : base.llc_message_discover_by_mac_handle handle with
          | none => exact ⟨base, confirm_none hfind, hmac⟩
          | some message =>
              have hmem := List.mem_of_find?_eq_some hfind
              have hfree := hmac.free hmem
              cases htype : message.messageType with
              | data => exact ⟨_, confirm_data hfind htype, hfree.congr rfl rfl⟩
              | eapol =>
                  rw [confirm_eapol hfind htype]
                  have hended : (base.ended message status).Sized := hfree.congr rfl rfl
                  refine hended.startPending ?_ restart
                  have hbound := hmac.bounded
                  have hpos := List.length_pos_of_mem hmem
                  show (base.llcMessageList.erase message).length < _
                  rw [List.length_erase_of_mem hmem]
                  omega
  | purge msduHandle u status =>
      refine ⟨_, rfl, ?_⟩
      cases hfind : base.llc_message_discover_mpx_user_id msduHandle u with
      | none =>
          rw [purge_nothing (.inl hfind)]
          exact h
      | some message =>
          by_cases hstatus : status = 0
          · rw [hstatus, purge_some hfind]
            have hmem := List.mem_of_find?_eq_some hfind
            have hfree := (h.mcps_purge_req message.msgHandle 0).free hmem
            exact hfree.congr rfl rfl
          · rw [purge_nothing (.inr hstatus)]
            exact h
  | clean refused =>
      refine ⟨_, rfl, ?_, Nat.zero_le _, List.nodup_nil, List.nodup_nil⟩
      have hsize := h.size
      have hzero : base.llcMessageListSize - UInt8.ofNat base.llcMessageList.length = 0 := by
        rw [← hsize, UInt8.ofNat_toNat, UInt8.sub_self]
      exact congrArg UInt8.toNat hzero

/-! ## Each request in its place -/

theorem places_listed (r : Nat) :
    (base.listed message).places r = base.places r + [message.request].count r := by
  simp only [places, listed, List.countP_append, List.countP_singleton, List.count_singleton]
  simp only [decide_eq_true_eq, beq_iff_eq]
  omega

theorem places_data_confirm (u : MpxUser) (msduHandle : UInt8) (status : Status) (request r : Nat) :
    (base.data_confirm u msduHandle status request).places r =
      base.places r + [request].count r := by
  simp only [places, Base.data_confirm, List.countP_append, List.countP_singleton,
    List.count_singleton]
  simp only [decide_eq_true_eq, beq_iff_eq]
  omega

theorem places_free (hmem : message ∈ base.llcMessageList) (r : Nat) :
    (base.llc_message_free message).places r + [message.request].count r = base.places r := by
  have hperm := (List.perm_cons_erase hmem).countP_eq (·.request = r)
  simp only [places, llc_message_free, hperm, List.countP_cons, List.count_singleton]
  simp only [decide_eq_true_eq, beq_iff_eq]
  omega

/-- The accounts with some requests in hand, which are in no place yet. -/
structure Books (base : Base) (loose : List Nat) : Prop extends Sized base where
  held : ∀ message ∈ base.llcMessageList, (message.msgHandle, message.request) ∈ base.atMac
  once : ∀ r, base.places r + loose.count r = if r < base.asked then 1 else 0
  waiting : ∀ message ∈ base.llcEapPendingList, message.isEapol = true
  sent : ∀ entry ∈ base.atMac, entry.2 < base.asked ∧
    base.llcEapPendingList.countP (·.request = entry.2) = 0

theorem Books.next (h : base.Books []) : base.next.Books [base.asked] where
  toSized := h.toSized.congr rfl rfl
  held := h.held
  once := by
    intro r
    have honce := h.once r
    have hplaces : base.next.places r = base.places r := rfl
    have hasked : base.next.asked = base.asked + 1 := rfl
    rw [hplaces, hasked, List.count_singleton]
    simp only [List.count_nil, Nat.add_zero] at honce
    rw [honce]
    simp only [beq_iff_eq]
    split <;> split <;> split <;> omega
  waiting := h.waiting
  sent := fun entry hentry => ⟨Nat.lt_succ_of_lt (h.sent entry hentry).1, (h.sent entry hentry).2⟩

theorem Books.data_confirm {u : MpxUser} {msduHandle : UInt8} {status : Status}
    (h : base.Books [r]) : (base.data_confirm u msduHandle status r).Books [] where
  toSized := h.toSized.congr rfl rfl
  held := h.held
  once := fun r' => by
    rw [places_data_confirm, List.count_nil]
    exact h.once r'
  waiting := h.waiting
  sent := h.sent

/-- A message that the MAC takes is listed. -/
theorem Books.listed (h : base.Books [message.request]) (hfresh : base.Fresh message)
    (hroom : base.llcMessageList.length < messageQueueListSizeMax) :
    ((base.listed message).mcps_data_req_ext message 0).Books [] where
  toSized := (h.toSized.listed hfresh hroom).mcps_data_req_ext message 0
  held := by
    intro m hm
    obtain hm | hm := List.mem_append.mp hm
    · exact List.mem_append_left _ (h.held m hm)
    · obtain rfl := List.mem_singleton.mp hm
      exact List.mem_append_right _ (List.mem_singleton.mpr rfl)
  once := fun r => (congrArg (· + 0) (places_listed r)).trans (h.once r)
  waiting := h.waiting
  sent := by
    intro entry hentry
    obtain hentry | hentry := List.mem_append.mp hentry
    · exact h.sent entry hentry
    · obtain rfl := List.mem_singleton.mp hentry
      have honce := h.once message.request
      rw [List.count_singleton_self] at honce
      have hplaces : base.places message.request = 0 ∧ message.request < base.asked := by
        split at honce
        · exact ⟨by omega, by assumption⟩
        · omega
      refine ⟨hplaces.2, ?_⟩
      have hzero := hplaces.1
      unfold places at hzero
      show base.llcEapPendingList.countP (·.request = message.request) = 0
      omega

/-- A message that must wait. -/
theorem Books.pend (h : base.Books [message.request]) (htype : message.isEapol = true)
    (hunsent : ∀ entry ∈ base.atMac, entry.2 ≠ message.request) :
    { base with
      llcEapPendingList := base.llcEapPendingList ++ [message]
      llcEapPendingListSize := base.llcEapPendingListSize + 1 }.Books [] where
  toSized := h.toSized.congr rfl rfl
  held := h.held
  once := by
    intro r
    have honce := h.once r
    simp only [places, List.countP_append, List.countP_singleton, List.count_singleton,
      List.count_nil, decide_eq_true_eq, beq_iff_eq] at honce ⊢
    omega
  waiting := by
    intro m hm
    obtain hm | hm := List.mem_append.mp hm
    · exact h.waiting m hm
    · obtain rfl := List.mem_singleton.mp hm
      exact htype
  sent := by
    intro entry hentry
    refine ⟨(h.sent entry hentry).1, ?_⟩
    show (base.llcEapPendingList ++ [message]).countP _ = 0
    rw [List.countP_append, (h.sent entry hentry).2, List.countP_singleton,
      if_neg (by simpa using (hunsent entry hentry).symm)]

/-- The first message that waits is taken. -/
theorem Books.pop {rest : List Message} (h : base.Books [])
    (hwait : base.llcEapPendingList = message :: rest) :
    { base with
      llcEapPendingList := rest
      llcEapPendingListSize := base.llcEapPendingListSize - 1 }.Books [message.request] where
  toSized := h.toSized.congr rfl rfl
  held := h.held
  once := by
    intro r
    have honce := h.once r
    simp only [places, hwait, List.countP_cons, List.count_singleton, List.count_nil,
      decide_eq_true_eq, beq_iff_eq] at honce ⊢
    omega
  waiting := fun m hm => h.waiting m (hwait ▸ List.mem_cons_of_mem _ hm)
  sent := by
    intro entry hentry
    refine ⟨(h.sent entry hentry).1, ?_⟩
    have hnone := (h.sent entry hentry).2
    rw [hwait, List.countP_cons] at hnone
    show rest.countP _ = 0
    omega

/-- Another message than the one that is freed has another handle. -/
theorem Sized.handle_ne (h : base.Sized) (hmem : message ∈ base.llcMessageList) {m : Message}
    (hm : m ∈ base.llcMessageList.erase message) : m.msgHandle ≠ message.msgHandle := by
  intro heq
  have hperm := ((List.perm_cons_erase hmem).map (·.msgHandle)).nodup_iff.mp h.handles
  rw [List.map_cons, List.nodup_cons] at hperm
  exact hperm.1 (List.mem_map.mpr ⟨m, hm, heq⟩)

/-- A message is freed when the MAC is done with it. -/
theorem Books.free (h : base.Books []) (hmem : message ∈ base.llcMessageList) :
    ((base.mcps_purge_req message.msgHandle 0).llc_message_free message).Books
      [message.request] where
  toSized := (h.toSized.mcps_purge_req message.msgHandle 0).free hmem
  held := by
    intro m hm
    have hne := h.toSized.handle_ne hmem hm
    exact List.mem_filter.mpr ⟨h.held m (List.mem_of_mem_erase hm), decide_eq_true hne⟩
  once := fun r => (places_free hmem r).trans (h.once r)
  waiting := h.waiting
  sent := fun entry hentry => h.sent entry (List.mem_of_mem_filter hentry)

theorem Books.drop (h : base.Books [r]) :
    { base with dropped := base.dropped ++ [r] }.Books [] where
  toSized := h.toSized.congr rfl rfl
  held := h.held
  once := by
    intro r'
    have honce := h.once r'
    simp only [places, List.count_append, List.count_nil] at honce ⊢
    omega
  waiting := h.waiting
  sent := h.sent

end Base

end Llc
