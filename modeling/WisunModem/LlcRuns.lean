import WisunModem.LlcAccounts

/-!
# Message accounting of the LLC

A run keeps the accounts exactly as long as the MAC takes each message it is given and no
EAPOL message is purged.
-/

namespace Llc

namespace Base

variable {base base' : Base} {message : Message} {r : Nat}

/-- The accounts, as a run keeps them. -/
structure Tidy (base : Base) : Prop extends Books base [] where
  session : base.llcMessageList.countP Message.isEapol = base.activeEapolSession.toNat
  pending : base.llcEapPendingList ≠ [] → base.activeEapolSession = true

/-- The MAC takes the messages it is given, and no EAPOL message is purged. -/
def Orderly (base : Base) : Event → Prop
  | .data _ memory status => base.llc_message_allocate memory = true → status = 0
  | .eapol _ memory status =>
      base.llc_message_allocate memory = true → base.activeEapolSession = false → status = 0
  | .confirm handle _ confData restart =>
      confData = true → base.llcEapPendingList ≠ [] →
        (∃ message, base.llc_message_discover_by_mac_handle handle = some message ∧
          message.messageType = .eapol) → restart = 0
  | .purge msduHandle user status =>
      user = .keyManagement →
        base.llc_message_discover_mpx_user_id msduHandle .keyManagement ≠ none → status ≠ 0
  | .clean _ => True

instance decidableOrderly (base : Base) : ∀ e, Decidable (base.Orderly e)
  | .data _ memory status =>
      inferInstanceAs (Decidable (base.llc_message_allocate memory = true → status = 0))
  | .eapol _ memory status =>
      inferInstanceAs (Decidable (base.llc_message_allocate memory = true →
        base.activeEapolSession = false → status = 0))
  | .confirm handle _ confData restart =>
      inferInstanceAs (Decidable (confData = true → base.llcEapPendingList ≠ [] →
        (∃ message, base.llc_message_discover_by_mac_handle handle = some message ∧
          message.messageType = .eapol) → restart = 0))
  | .purge msduHandle user status =>
      inferInstanceAs (Decidable (user = .keyManagement →
        base.llc_message_discover_mpx_user_id msduHandle .keyManagement ≠ none → status ≠ 0))
  | .clean _ => isTrue trivial

theorem eapol_listed :
    (∃ message ∈ base.llcMessageList, message.messageType = .eapol) ↔
      0 < base.llcMessageList.countP Message.isEapol := by
  rw [List.countP_pos_iff]
  simp [Message.isEapol]

theorem Tidy.accounts (h : base.Tidy) : base.Accounts where
  toSized := h.toSized
  held := h.held
  session := by
    rw [eapol_listed, h.session]
    cases base.activeEapolSession <;> simp
  pending := h.pending
  once := h.once

theorem start_tidy : start.Tidy where
  size := rfl
  bounded := Nat.zero_le _
  handles := List.nodup_nil
  mpxIds := List.nodup_nil
  held := fun _ hmem => absurd hmem List.not_mem_nil
  once := fun r => (if_neg (Nat.not_lt_zero r)).symm
  waiting := fun _ hmem => absurd hmem List.not_mem_nil
  sent := fun _ hmem => absurd hmem List.not_mem_nil
  session := rfl
  pending := fun hne => absurd rfl hne

/-! ## Sending -/

theorem Books.unsent (h : base.Books []) : ∀ entry ∈ base.atMac, entry.2 ≠ base.asked :=
  fun entry hentry => Nat.ne_of_lt (h.sent entry hentry).1

/-- A message that the MAC refused is listed, but does not lie at the MAC. -/
theorem not_accounts (message : Message) (hmem : message ∈ base.llcMessageList)
    (hunsent : ∀ entry ∈ base.atMac, entry.2 ≠ message.request) : ¬ base.Accounts :=
  fun h => hunsent _ (h.held message hmem) rfl

theorem mem_listed : message ∈ (base.listed message).llcMessageList :=
  List.mem_append_right _ (List.mem_singleton.mpr rfl)

/-- An EAPOL message goes to the MAC while none is there. -/
theorem Books.eapol_send (h : base.Books [message.request]) (htype : message.isEapol = true)
    (hnone : base.llcMessageList.countP Message.isEapol = 0)
    (hroom : base.llcMessageList.length < messageQueueListSizeMax) :
    ∃ base', base.ws_llc_mpx_eapol_send message 0 = some (0, base') ∧ base'.Tidy := by
  obtain ⟨handle, id, hfresh, hadd⟩ := addToActive_some hroom message
  have hbooks : ((base.listed { message with msgHandle := handle, mpxId := id }).mcps_data_req_ext
      { message with msgHandle := handle, mpxId := id } 0).Books [] := Books.listed h hfresh hroom
  simp only [ws_llc_mpx_eapol_send, hadd, Option.bind_eq_bind, Option.bind_some, if_pos]
  refine ⟨_, rfl, { hbooks with toSized := ?_, session := ?_, pending := fun _ => rfl }⟩
  · exact hbooks.toSized.congr rfl rfl
  · show (base.llcMessageList ++ [{ message with msgHandle := handle, mpxId := id }]).countP
      Message.isEapol = 1
    have hone : Message.isEapol { message with msgHandle := handle, mpxId := id } = true := htype
    rw [List.countP_append, hnone, List.countP_singleton, if_pos hone]

/-- The MAC refuses an EAPOL message. -/
theorem eapol_send_refused {status : UInt8} (message : Message)
    (hroom : base.llcMessageList.length < messageQueueListSizeMax) (hstatus : status ≠ 0) :
    ∃ sent, base.ws_llc_mpx_eapol_send message status = some (status, base.listed sent) ∧
      sent.request = message.request := by
  obtain ⟨handle, id, -, hadd⟩ := addToActive_some hroom message
  refine ⟨{ message with msgHandle := handle, mpxId := id }, ?_, rfl⟩
  simp [ws_llc_mpx_eapol_send, hadd, Base.mcps_data_req_ext, hstatus]

/-! ## One event -/

section

variable {msduHandle : UInt8} {memory : Bool} {status : UInt8}

/-- The overflow is confirmed at once. -/
theorem Tidy.overflow (h : base.Tidy) (u : MpxUser) :
    (base.next.data_confirm u msduHandle .transactionOverflow base.asked).Tidy :=
  { h.toBooks.next.data_confirm with session := h.session, pending := h.pending }

theorem Tidy.data (h : base.Tidy)
    (hstep : base.ws_llc_lowpan_mpx_data_request msduHandle memory status = some base') :
    (base.Orderly (.data msduHandle memory status) → base'.Tidy) ∧
      (base'.Accounts → base.Orderly (.data msduHandle memory status)) := by
  unfold ws_llc_lowpan_mpx_data_request at hstep
  cases hroom : base.llc_message_allocate memory with
  | false =>
      rw [hroom] at hstep
      obtain rfl := Option.some.inj hstep
      refine ⟨fun _ => h.overflow _, fun _ hallocate => ?_⟩
      rw [hroom] at hallocate
      cases hallocate
  | true =>
      have hlength : base.next.llcMessageList.length < messageQueueListSizeMax :=
        h.toSized.room_of_allocate hroom
      obtain ⟨handle, id, hfresh, hadd⟩ :=
        addToActive_some hlength ⟨.data, 0, 0, msduHandle, base.asked⟩
      simp only [hroom, hadd, Option.bind_eq_bind, Option.bind_some] at hstep
      by_cases hstatus : status = 0
      · subst hstatus
        obtain rfl := Option.some.inj hstep
        refine ⟨fun _ => ?_, fun _ _ => rfl⟩
        have hnext : base.next.Books
            [Message.request ⟨.data, id, handle, msduHandle, base.asked⟩] := h.toBooks.next
        refine { hnext.listed hfresh hlength with session := ?_, pending := h.pending }
        show (base.llcMessageList ++ [Message.mk .data id handle msduHandle base.asked]).countP
          Message.isEapol = base.activeEapolSession.toNat
        rw [List.countP_append, h.session]
        rfl
      · simp only [Base.mcps_data_req_ext, ne_eq, hstatus, not_false_eq_true,
          if_true] at hstep
        obtain rfl := Option.some.inj hstep
        refine ⟨fun hok => absurd (hok hroom) hstatus, fun hbad => ?_⟩
        exact absurd hbad (not_accounts ⟨.data, id, handle, msduHandle, base.asked⟩
          mem_listed h.toBooks.unsent)

theorem Tidy.eapol (h : base.Tidy)
    (hstep : base.ws_llc_mpx_eapol_request msduHandle memory status = some base') :
    (base.Orderly (.eapol msduHandle memory status) → base'.Tidy) ∧
      (base'.Accounts → base.Orderly (.eapol msduHandle memory status)) := by
  unfold ws_llc_mpx_eapol_request at hstep
  cases hroom : base.llc_message_allocate memory with
  | false =>
      rw [hroom] at hstep
      obtain rfl := Option.some.inj hstep
      refine ⟨fun _ => h.overflow _, fun _ hallocate => ?_⟩
      rw [hroom] at hallocate
      cases hallocate
  | true =>
      cases hactive : base.activeEapolSession with
      | true =>
          simp only [hroom, hactive, Bool.not_true, Bool.false_eq_true, if_false, if_true] at hstep
          obtain rfl := Option.some.inj hstep
          refine ⟨fun _ => ?_, fun _ _ hidle => ?_⟩
          · have hnext : base.next.Books
                [Message.request ⟨.eapol, 0, 0, msduHandle, base.asked⟩] := h.toBooks.next
            exact { hnext.pend rfl h.toBooks.unsent with
              session := h.session
              pending := fun _ => hactive }
          · rw [hactive] at hidle
            cases hidle
      | false =>
          have hlength : base.next.llcMessageList.length < messageQueueListSizeMax :=
            h.toSized.room_of_allocate hroom
          by_cases hstatus : status = 0
          · subst hstatus
            refine ⟨fun _ => ?_, fun _ _ _ => rfl⟩
            have hnext : base.next.Books
                [Message.request ⟨.eapol, 0, 0, msduHandle, base.asked⟩] := h.toBooks.next
            have hnone : base.next.llcMessageList.countP Message.isEapol = 0 := by
              show base.llcMessageList.countP Message.isEapol = 0
              rw [h.session, hactive]
              rfl
            obtain ⟨sent, hsend, htidy⟩ := hnext.eapol_send rfl hnone hlength
            simp only [hroom, hactive, hsend, Option.bind_eq_bind, Option.bind_some] at hstep
            obtain rfl := Option.some.inj hstep
            exact htidy
          · obtain ⟨sent, hsend, hrequest⟩ := eapol_send_refused
              ⟨.eapol, 0, 0, msduHandle, base.asked⟩ hlength hstatus
            simp only [hroom, hactive, hsend, Option.bind_eq_bind, Option.bind_some, ne_eq, hstatus,
              not_false_eq_true, if_true] at hstep
            obtain rfl := Option.some.inj hstep
            refine ⟨fun hok => absurd (hok hroom hactive) hstatus, fun hbad => ?_⟩
            refine absurd hbad (not_accounts sent mem_listed ?_)
            rw [hrequest]
            exact h.toBooks.unsent

end

/-- The first message that waits takes the place of the one that is done. -/
theorem Books.startPending (h : base.Books [])
    (hnone : base.llcMessageList.countP Message.isEapol = 0)
    (hidle : base.activeEapolSession = false)
    (hroom : base.llcMessageList.length < messageQueueListSizeMax) {status : UInt8}
    (hstep : base.startPending status = some base') :
    ((base.llcEapPendingList ≠ [] → status = 0) → base'.Tidy) ∧
      (base'.Accounts → base.llcEapPendingList ≠ [] → status = 0) := by
  unfold Base.startPending at hstep
  cases hwait : base.llcEapPendingList with
  | nil =>
      rw [hwait] at hstep
      obtain rfl := Option.some.inj hstep
      refine ⟨fun _ => ?_, fun _ hne => absurd rfl hne⟩
      refine { h with session := ?_, pending := fun hne => absurd hwait hne }
      rw [hnone, hidle]
      rfl
  | cons first rest =>
      have hpopped := h.pop hwait
      by_cases hstatus : status = 0
      · subst hstatus
        refine ⟨fun _ => ?_, fun _ _ => rfl⟩
        have htype := h.waiting first (hwait ▸ List.mem_cons_self)
        obtain ⟨sent, hsend, htidy⟩ := hpopped.eapol_send htype hnone hroom
        simp only [hwait, hsend, Option.bind_eq_bind, Option.bind_some] at hstep
        obtain rfl := Option.some.inj hstep
        exact htidy
      · refine ⟨fun hok => absurd (hok (List.cons_ne_nil _ _)) hstatus, fun hbad _ => ?_⟩
        have hlength : ({ base with
            llcEapPendingList := rest
            llcEapPendingListSize := base.llcEapPendingListSize - 1 } : Base).llcMessageList.length <
              messageQueueListSizeMax := hroom
        obtain ⟨sent, hsend, hrequest⟩ := eapol_send_refused first hlength hstatus
        simp only [hwait, hsend, Option.bind_eq_bind, Option.bind_some] at hstep
        obtain rfl := Option.some.inj hstep
        refine absurd hbad (not_accounts sent mem_listed fun entry hentry heq => ?_)
        have hnone := (h.sent entry hentry).2
        rw [hwait, List.countP_cons, heq, hrequest] at hnone
        simp at hnone

/-- The list without the one EAPOL message has none. -/
theorem Tidy.countP_erase (h : base.Tidy) (hmem : message ∈ base.llcMessageList) :
    (base.llcMessageList.erase message).countP Message.isEapol +
      message.isEapol.toNat = base.activeEapolSession.toNat := by
  have hperm := (List.perm_cons_erase hmem).countP_eq Message.isEapol
  rw [h.session, List.countP_cons] at hperm
  rw [hperm]
  cases message.isEapol <;> rfl

/-- The MAC is done with something that is not listed. -/
theorem Tidy.forget {handle : BitVec 8} (h : base.Tidy)
    (hnone : base.llc_message_discover_by_mac_handle handle = none) :
    (base.mcps_purge_req handle 0).Tidy where
  toSized := h.toSized.mcps_purge_req handle 0
  held := by
    intro m hm
    have hne : m.msgHandle ≠ handle := by
      simpa using List.find?_eq_none.mp hnone m hm
    exact List.mem_filter.mpr ⟨h.held m hm, decide_eq_true hne⟩
  once := h.once
  waiting := h.waiting
  sent := fun entry hentry => h.sent entry (List.mem_of_mem_filter hentry)
  session := h.session
  pending := h.pending

/-- A data message is done. -/
theorem Tidy.done (h : base.Tidy) (hmem : message ∈ base.llcMessageList)
    (htype : message.messageType = .data)
    (hbooks : base'.Books []) (hlist : base'.llcMessageList = base.llcMessageList.erase message)
    (hwait : base'.llcEapPendingList = base.llcEapPendingList)
    (hactive : base'.activeEapolSession = base.activeEapolSession) : base'.Tidy where
  toBooks := hbooks
  session := by
    have hcount := h.countP_erase hmem
    have hdata : message.isEapol = false := by simp [Message.isEapol, htype]
    rw [hlist, hactive, ← hcount, hdata]
    rfl
  pending := by
    rw [hwait, hactive]
    exact h.pending

theorem Tidy.confirm {handle : BitVec 8} {status restart : UInt8} {confData : Bool}
    (h : base.Tidy) (hstep : base.step (.confirm handle status confData restart) = some base') :
    (base.Orderly (.confirm handle status confData restart) → base'.Tidy) ∧
      (base'.Accounts → base.Orderly (.confirm handle status confData restart)) := by
  cases confData with
  | false =>
      obtain rfl := Option.some.inj hstep
      exact ⟨fun _ => h, fun _ hdata => by cases hdata⟩
  | true =>
      have hstep : (base.mcps_purge_req handle 0).ws_llc_mac_confirm_cb handle status true restart =
          some base' := hstep
      cases hfind : base.llc_message_discover_by_mac_handle handle with
      | none =>
          have hfind' : (base.mcps_purge_req handle 0).llc_message_discover_by_mac_handle handle =
            none := hfind
          rw [confirm_none hfind'] at hstep
          obtain rfl := Option.some.inj hstep
          refine ⟨fun _ => h.forget hfind, fun _ _ _ ⟨message, hmessage, _⟩ => ?_⟩
          rw [hfind] at hmessage
          cases hmessage
      | some message =>
          have hmem := List.mem_of_find?_eq_some hfind
          have hhandle : message.msgHandle = handle := by simpa using List.find?_some hfind
          have hfree := h.toBooks.free hmem
          rw [hhandle] at hfree
          have hfind' : (base.mcps_purge_req handle 0).llc_message_discover_by_mac_handle handle =
            some message := hfind
          cases htype : message.messageType with
          | data =>
              rw [confirm_data hfind' htype] at hstep
              obtain rfl := Option.some.inj hstep
              refine ⟨fun _ => h.done hmem htype hfree.data_confirm rfl rfl rfl, ?_⟩
              intro _ _ _ ⟨message', hmessage', htype'⟩
              rw [hfind] at hmessage'
              obtain rfl := Option.some.inj hmessage'
              rw [htype] at htype'
              cases htype'
          | eapol =>
              rw [confirm_eapol hfind' htype] at hstep
              have hbooks : ((base.mcps_purge_req handle 0).ended message status).Books [] :=
                { hfree.data_confirm with toSized := hfree.toSized.congr rfl rfl }
              have heapol : message.isEapol = true := by simp [Message.isEapol, htype]
              have hnone : (base.llcMessageList.erase message).countP Message.isEapol = 0 := by
                have hcount := h.countP_erase hmem
                have hone := Bool.toNat_le base.activeEapolSession
                rw [heapol, Bool.toNat_true] at hcount
                omega
              have hroom : (base.llcMessageList.erase message).length < messageQueueListSizeMax := by
                have hbound := h.bounded
                have hpos := List.length_pos_of_mem hmem
                rw [List.length_erase_of_mem hmem]
                omega
              obtain ⟨hgood, hbad⟩ := hbooks.startPending hnone rfl hroom hstep
              exact ⟨fun hok => hgood fun hne => hok rfl hne ⟨message, hfind, htype⟩,
                fun haccounts _ hne _ => hbad haccounts hne⟩

theorem Tidy.purge {msduHandle : UInt8} {u : MpxUser} {status : UInt8} (h : base.Tidy) :
    (base.Orderly (.purge msduHandle u status) →
        (base.ws_llc_mpx_data_purge_request msduHandle u status).Tidy) ∧
      ((base.ws_llc_mpx_data_purge_request msduHandle u status).Accounts →
        base.Orderly (.purge msduHandle u status)) := by
  by_cases hstatus : status = 0
  · subst hstatus
    cases hfind : base.llc_message_discover_mpx_user_id msduHandle u with
    | none =>
        rw [purge_nothing (.inl hfind)]
        refine ⟨fun _ => h, fun _ hu hne => ?_⟩
        rw [← hu, hfind] at hne
        exact absurd rfl hne
    | some message =>
        have hmem := List.mem_of_find?_eq_some hfind
        rw [purge_some hfind]
        cases u with
        | lowpan =>
            have htype : message.messageType = .data := by
              have hsome := List.find?_some hfind
              simp only [decide_eq_true_eq] at hsome
              exact hsome.1
            exact ⟨fun _ => h.done hmem htype (h.toBooks.free hmem).drop rfl rfl rfl,
              fun _ hu => by cases hu⟩
        | keyManagement =>
            have htype : message.messageType = .eapol := by
              have hsome := List.find?_some hfind
              simp only [decide_eq_true_eq] at hsome
              exact hsome.1
            refine ⟨fun hok => absurd rfl (hok rfl (hfind ▸ Option.some_ne_none _)), ?_⟩
            intro hbad
            have heapol : message.isEapol = true := by simp [Message.isEapol, htype]
            have hcount := h.countP_erase hmem
            have hone := Bool.toNat_le base.activeEapolSession
            have hactive : base.activeEapolSession = true := by
              rw [heapol] at hcount
              cases hsession : base.activeEapolSession with
              | true => rfl
              | false =>
                  rw [hsession] at hcount
                  cases hcount
            -- the flag stays, and no EAPOL message is listed
            have hpos := eapol_listed.mp (hbad.session.mp hactive)
            have hpos : 0 < (base.llcMessageList.erase message).countP Message.isEapol := hpos
            rw [heapol, hactive] at hcount
            have hcount : (base.llcMessageList.erase message).countP Message.isEapol + 1 = 1 := hcount
            omega
  · rw [purge_nothing (.inr hstatus)]
    exact ⟨fun _ => h, fun _ _ _ => hstatus⟩

theorem places_clean {refused : List (BitVec 8)} (r : Nat) :
    (base.ws_llc_clean refused).places r = base.places r := by
  have hcount : ∀ messages : List Message,
      (messages.map (·.request)).count r = messages.countP (·.request = r) := by
    intro messages
    rw [List.count_eq_countP, List.countP_map]
    rfl
  simp only [places, ws_llc_clean, List.countP_nil, List.count_append, hcount]
  omega

theorem Tidy.clean {refused : List (BitVec 8)} (h : base.Tidy) :
    (base.ws_llc_clean refused).Tidy where
  toSized := by
    obtain ⟨base', hstep, hsized⟩ := h.toSized.step (.clean refused)
    obtain rfl := Option.some.inj hstep
    exact hsized
  held := fun _ hmem => absurd hmem List.not_mem_nil
  once := fun r => (congrArg (· + 0) (places_clean r)).trans (h.once r)
  waiting := fun _ hmem => absurd hmem List.not_mem_nil
  sent := fun entry hentry => ⟨(h.sent entry (List.mem_of_mem_filter hentry)).1, rfl⟩
  session := rfl
  pending := fun hne => absurd rfl hne

/-- **One event.**  It keeps the accounts if and only if it is orderly. -/
theorem Tidy.step (h : base.Tidy) {e : Event} (hstep : base.step e = some base') :
    (base.Orderly e → base'.Tidy) ∧ (base'.Accounts → base.Orderly e) := by
  cases e with
  | data => exact h.data hstep
  | eapol => exact h.eapol hstep
  | confirm => exact h.confirm hstep
  | purge =>
      obtain rfl := Option.some.inj hstep
      exact h.purge
  | clean =>
      obtain rfl := Option.some.inj hstep
      exact ⟨fun _ => h.clean, fun _ => trivial⟩

/-! ## Runs -/

/-- A run keeps the accounts in each state it reaches if and only if it is orderly. -/
theorem Tidy.run (h : base.Tidy) (events : List Event) :
    (∀ before, before <+: events → ∀ reached, Runs.run Base.step base before = some reached →
        reached.Accounts) ↔ Runs.Meets Base.step Orderly base events := by
  induction events generalizing base with
  | nil =>
      refine iff_of_true (fun before hbefore reached hreached => ?_) trivial
      obtain rfl := List.prefix_nil.mp hbefore
      obtain rfl := Option.some.inj hreached
      exact h.accounts
  | cons e events ih =>
      constructor
      · intro haccounts
        obtain ⟨base', hstep, -⟩ := h.toSized.step e
        have hfirst : base'.Accounts := haccounts [e] ⟨events, rfl⟩ base' (Runs.run_cons_iff.mpr
          ⟨base', hstep, rfl⟩)
        have hok := (h.step hstep).2 hfirst
        refine Runs.meets_cons hok hstep ((ih ((h.step hstep).1 hok)).mp ?_)
        intro before hbefore reached hreached
        exact haccounts (e :: before) (List.cons_prefix_cons.mpr ⟨rfl, hbefore⟩) reached
          (Runs.run_cons_iff.mpr ⟨base', hstep, hreached⟩)
      · rintro ⟨hok, hrest⟩ before hbefore reached hreached
        cases before with
        | nil =>
            obtain rfl := Option.some.inj hreached
            exact h.accounts
        | cons e' before =>
            obtain ⟨rfl, hbefore'⟩ := List.cons_prefix_cons.mp hbefore
            obtain ⟨base', hstep, hreached'⟩ := Runs.run_cons_iff.mp hreached
            have htidy := (h.step hstep).1 hok
            exact (ih htidy).mpr (hrest base' hstep) before hbefore' reached hreached'

/-- The confirm of the MAC for a message it has, which also takes what waited. -/
def confirmOf (message : Message) : Event := .confirm message.msgHandle 0 true 0

/-- What is listed or waits. -/
def undone (base : Base) : Nat := base.llcMessageList.length + base.llcEapPendingList.length

theorem discover_self (h : base.Sized) (hmem : message ∈ base.llcMessageList) :
    base.llc_message_discover_by_mac_handle message.msgHandle = some message := by
  cases hfind : base.llc_message_discover_by_mac_handle message.msgHandle with
  | none => simpa using List.find?_eq_none.mp hfind message hmem
  | some found =>
      have hhandle : found.msgHandle = message.msgHandle := by simpa using List.find?_some hfind
      have heq := List.inj_on_of_nodup_map h.handles (List.mem_of_find?_eq_some hfind) hmem hhandle
      rw [heq]

theorem startPending_undone (hroom : base.llcMessageList.length < messageQueueListSizeMax) :
    ∃ base', base.startPending 0 = some base' ∧ base'.undone = base.undone ∧
      base'.asked = base.asked ∧ base'.dropped = base.dropped := by
  unfold Base.startPending
  cases hwait : base.llcEapPendingList with
  | nil => exact ⟨base, rfl, rfl, rfl, rfl⟩
  | cons first rest =>
      have hlength : ({ base with
          llcEapPendingList := rest
          llcEapPendingListSize := base.llcEapPendingListSize - 1 } : Base).llcMessageList.length <
            messageQueueListSizeMax := hroom
      obtain ⟨handle, id, -, hadd⟩ := addToActive_some hlength first
      simp only [ws_llc_mpx_eapol_send, hadd, Option.bind_eq_bind, Option.bind_some, if_pos]
      refine ⟨_, rfl, ?_, rfl, rfl⟩
      show (base.llcMessageList ++ [_]).length + rest.length = base.undone
      rw [undone, hwait, List.length_append, List.length_singleton, List.length_cons]
      omega

/-- Each confirm leaves one request less to do. -/
theorem confirm_undone (h : base.Sized) (hmem : message ∈ base.llcMessageList) :
    ∃ base', base.step (confirmOf message) = some base' ∧ base'.undone < base.undone ∧
      base'.asked = base.asked ∧ base'.dropped = base.dropped := by
  have hpos := List.length_pos_of_mem hmem
  have hbound := h.bounded
  have herase := List.length_erase_of_mem hmem
  have hfind := discover_self h hmem
  have hfind' : (base.mcps_purge_req message.msgHandle 0).llc_message_discover_by_mac_handle
    message.msgHandle = some message := hfind
  cases htype : message.messageType with
  | data =>
      refine ⟨_, confirm_data hfind' htype, ?_, rfl, rfl⟩
      show (base.llcMessageList.erase message).length + base.llcEapPendingList.length < base.undone
      unfold undone
      omega
  | eapol =>
      have hroom : ((base.mcps_purge_req message.msgHandle 0).ended message 0).llcMessageList.length <
          messageQueueListSizeMax := by
        show (base.llcMessageList.erase message).length < messageQueueListSizeMax
        omega
      obtain ⟨base', hstart, hundone, hasked, hdropped⟩ := startPending_undone hroom
      refine ⟨base', (confirm_eapol hfind' htype).trans hstart, ?_, hasked, hdropped⟩
      rw [hundone]
      show (base.llcMessageList.erase message).length + base.llcEapPendingList.length < base.undone
      unfold undone
      omega

/-- When the MAC confirms what it has, all requests that were not dropped are confirmed. -/
theorem Tidy.settles (h : base.Tidy) :
    ∃ (messages : List Message) (reached : Base),
      Runs.Meets Base.step Orderly base (messages.map confirmOf) ∧
      Runs.run Base.step base (messages.map confirmOf) = some reached ∧ reached.Settled ∧
        ∀ r < base.asked, r ∉ base.dropped → reached.confirms.countP (·.request = r) = 1 := by
  generalize hn : base.undone = n
  induction n using Nat.strongRecOn generalizing base with
  | ind n ih =>
      cases hlist : base.llcMessageList with
      | nil =>
          have hwait : base.llcEapPendingList = [] := by
            by_contra hne
            have hsession := h.session
            rw [hlist, h.pending hne] at hsession
            cases hsession
          refine ⟨[], base, trivial, rfl, ⟨hlist, hwait⟩, fun r hr hdropped => ?_⟩
          have honce := h.once r
          rw [if_pos hr, places, hlist, hwait, List.count_eq_zero_of_not_mem hdropped] at honce
          simpa using honce
      | cons message rest =>
          have hmem : message ∈ base.llcMessageList := hlist ▸ List.mem_cons_self
          obtain ⟨base', hstep, hless, hasked, hdropped⟩ := confirm_undone h.toSized hmem
          have hok : base.Orderly (confirmOf message) := fun _ _ _ => rfl
          obtain ⟨more, reached, hmeets, hrun, hsettled, hall⟩ :=
            ih _ (hn ▸ hless) ((h.step hstep).1 hok) rfl
          refine ⟨message :: more, reached, Runs.meets_cons hok hstep hmeets,
            Runs.run_cons_iff.mpr ⟨base', hstep, hrun⟩, hsettled, fun r hr hnot => ?_⟩
          exact hall r (hasked ▸ hr) (hdropped ▸ hnot)

theorem Sized.run (h : base.Sized) (events : List Event) :
    ∃ reached, Runs.run Base.step base events = some reached ∧ reached.Sized := by
  induction events generalizing base with
  | nil => exact ⟨base, rfl, h⟩
  | cons e events ih =>
      obtain ⟨base', hstep, hsized⟩ := h.step e
      obtain ⟨reached, hreached, hall⟩ := ih hsized
      exact ⟨reached, Runs.run_cons_iff.mpr ⟨base', hstep, hreached⟩, hall⟩

theorem Tidy.run_orderly (h : base.Tidy) {events : List Event} {reached : Base}
    (hmeets : Runs.Meets Base.step Orderly base events)
    (hrun : Runs.run Base.step base events = some reached) : reached.Tidy :=
  Runs.run_invariant Tidy (fun _ _ _ htidy hok hstep => (htidy.step hstep).1 hok) h hmeets hrun

/-- **Message accounting.**  Each run comes to its end, with a list of 16 messages at most, as
many as its size says, and with distinct ids and handles.  The accounts are right in each
state it reaches if and only if the MAC takes what it is given and purges no EAPOL message;
and then, when the MAC confirms what it has, each request that was not purged or cleaned has
had one confirm. -/
theorem accounts_kept (events : List Event) :
    (∃ reached, Runs.run Base.step start events = some reached ∧ reached.Sized) ∧
    ((∀ before, before <+: events → ∀ reached, Runs.run Base.step start before = some reached →
        reached.Accounts) ↔ Runs.Meets Base.step Orderly start events) ∧
    ∀ reached, Runs.Meets Base.step Orderly start events →
      Runs.run Base.step start events = some reached →
        ∃ (messages : List Message) (done : Base),
          Runs.run Base.step reached (messages.map confirmOf) = some done ∧ done.Settled ∧
            ∀ r < reached.asked, r ∉ reached.dropped →
              done.confirms.countP (·.request = r) = 1 := by
  refine ⟨start_tidy.toSized.run events, start_tidy.run events, fun reached hmeets hrun => ?_⟩
  obtain ⟨messages, done, -, hdone, hsettled, hall⟩ :=
    (start_tidy.run_orderly hmeets hrun).settles
  exact ⟨messages, done, hdone, hsettled, hall⟩

/-- Data and EAPOL requests, one of which waits, and the confirms of the first two. -/
def exchange : List Event :=
  [.data 1 true 0, .eapol 1 true 0, .eapol 2 true 0, .confirm 0 0 true 0, .confirm 1 0 true 0]

theorem accounts_kept_exchange :
    ∃ (messages : List Message) (done : Base),
      Runs.run Base.step start (exchange ++ messages.map confirmOf) = some done ∧
        done.Settled ∧ ∀ r < 3, done.confirms.countP (·.request = r) = 1 := by
  obtain ⟨messages, done, hdone, hsettled, hall⟩ :=
    (accounts_kept exchange).2.2 _ (by decide) rfl
  exact ⟨messages, done, Runs.run_trans rfl hdone, hsettled,
    fun r hr => hall r hr List.not_mem_nil⟩

/-- Sixteen data requests that the MAC refuses. -/
def refusals : List Event := List.replicate 16 (.data 5 true 1)

/-- Requests that the MAC refused fill the list while nothing lies at the MAC, and the next
request overflows; after a purge the flag is on and no EAPOL message is listed; and a message
that waited and that the MAC refuses gets no confirm, while another one goes on waiting. -/
theorem accounts_lost :
    (∃ reached, Runs.run Base.step start (refusals ++ [.data 6 true 0]) = some reached ∧
      ¬ reached.Accounts ∧ reached.llcMessageList.length = 16 ∧ reached.atMac = [] ∧
        reached.confirms.getLast? = some ⟨.lowpan, 6, .transactionOverflow, 16⟩) ∧
    (∃ reached, Runs.run Base.step start
        [.eapol 1 true 0, .purge 1 .keyManagement 0, .eapol 2 true 0] = some reached ∧
      reached.llcMessageList = [] ∧ reached.activeEapolSession = true ∧
        reached.llcEapPendingList.length = 1) ∧
    ∃ reached, Runs.run Base.step start
        [.eapol 1 true 0, .eapol 2 true 0, .eapol 3 true 0, .confirm 0 0 true 1] = some reached ∧
      reached.atMac = [] ∧ reached.activeEapolSession = false ∧
        reached.llcEapPendingList.length = 1 ∧ reached.confirms.map (·.request) = [0] := by
  refine ⟨⟨_, rfl, fun h => ?_, rfl, rfl, rfl⟩, ⟨_, rfl, rfl, rfl, rfl⟩,
    ⟨_, rfl, rfl, rfl, rfl, rfl⟩⟩
  exact List.not_mem_nil (h.held _ List.mem_cons_self)

end Base

end Llc
