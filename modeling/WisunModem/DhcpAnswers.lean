import WisunModem.DhcpTransparency

/-!
# Answers through the DHCPv6 relay

The way back, and what comes to the two sockets from anywhere else.
-/

namespace DhcpMsg

variable {relay : Relay} {client : Address} {m answer trId d : List UInt8} {now : UInt32}

/-! ## The answer as it is sent -/

/-- The answer with the id of the client's message. -/
def withTrId (answer trId : List UInt8) : List UInt8 := answer.take 1 ++ trId ++ answer.drop 4

/-- The answer has no elapsed time, or says what the service writes there. -/
def Unstamped (answer : List UInt8) (now : UInt32) : Prop :=
  ∀ found, libdhcpv6_message_option_discover answer 4 (answer.length - 4) elapsedTimeOption =
    .ok (some found) → found.len = 2 →
      (answer.drop found.place).take 2 = write16 (elapsedTime now)

theorem length_withTrId (htr : trId.length = 3) (hlong : 4 ≤ answer.length) :
    (withTrId answer trId).length = answer.length := by
  simp only [withTrId, List.length_append, List.length_take, List.length_drop, htr]
  omega

theorem drop_withTrId (htr : trId.length = 3) (hlong : 4 ≤ answer.length) {n : Nat} (hn : 4 ≤ n) :
    (withTrId answer trId).drop n = answer.drop n := by
  have hhead : (answer.take 1 ++ trId).length = 4 := by
    rw [List.length_append, List.length_take, htr]
    omega
  rw [withTrId, List.drop_append, List.drop_of_length_le (by omega), List.nil_append, hhead,
    List.drop_drop]
  congr 1
  omega

/-- The options of the answer are where they were. -/
theorem discover_withTrId (htr : trId.length = 3) (hlong : 4 ≤ answer.length) (type : Nat) :
    libdhcpv6_message_option_discover (withTrId answer trId) 4
        ((withTrId answer trId).length - 4) type =
      libdhcpv6_message_option_discover answer 4 (answer.length - 4) type := by
  have hhead : (answer.take 1 ++ trId).length = 4 := by
    rw [List.length_append, List.length_take, htr]
    omega
  have hfour : (answer.take 4).length = 4 := by
    rw [List.length_take]
    omega
  have hrest : 0 + (answer.length - 4) ≤ (answer.drop 4).length := by
    rw [List.length_drop]
    omega
  have hleft := discover_shift (answer.take 1 ++ trId) [] type (answer.length - 4) hrest
  have hright := discover_shift (answer.take 4) [] type (answer.length - 4) hrest
  rw [List.append_nil, hhead] at hleft
  rw [List.append_nil, List.take_append_drop, hfour] at hright
  rw [length_withTrId htr hlong]
  exact hleft.trans hright.symm

theorem malformed_withTrId (htr : trId.length = 3) (hlong : 4 ≤ answer.length) :
    libdhcpv6_message_malformed_check (withTrId answer trId) 0 (withTrId answer trId).length =
      libdhcpv6_message_malformed_check answer 0 answer.length := by
  have hhead : (answer.take 1 ++ trId).length = 4 := by
    rw [List.length_append, List.length_take, htr]
    omega
  have hfour : (answer.take 4).length = 4 := by
    rw [List.length_take]
    omega
  have hrest : 0 + (answer.length - 4) ≤ (answer.drop 4).length := by
    rw [List.length_drop]
    omega
  have hleft := walk_shift (answer.take 1 ++ trId) [] (answer.length - 4) hrest
  have hright := walk_shift (answer.take 4) [] (answer.length - 4) hrest
  rw [List.append_nil, hhead] at hleft
  rw [List.append_nil, List.take_append_drop, hfour] at hright
  unfold libdhcpv6_message_malformed_check
  rw [length_withTrId htr hlong]
  split
  · exact hleft.trans hright.symm
  · rfl

/-- Octets written over a list leave it as it is if they are there already. -/
theorem splice_eq_iff {xs ws : List UInt8} {n l : Nat} (hws : ws.length = l)
    (hinside : n + l ≤ xs.length) :
    xs.take n ++ ws ++ xs.drop (n + l) = xs ↔ (xs.drop n).take l = ws := by
  constructor
  · intro heq
    have hdrop := congrArg (fun ys => (ys.drop n).take l) heq
    have hlength : (xs.take n).length = n := by
      rw [List.length_take]
      omega
    rw [← hdrop]
    show ((xs.take n ++ ws ++ xs.drop (n + l)).drop n).take l = ws
    rw [List.append_assoc, List.drop_append, List.drop_of_length_le (Nat.le_of_eq hlength), hlength,
      Nat.sub_self, List.drop_zero, List.nil_append, ← hws, List.take_left]
  · intro heq
    rw [← heq, List.append_assoc, ← List.drop_drop, List.take_append_drop, List.take_append_drop]

/-- What is sent is as long as the answer, and is the answer if nothing is stamped. -/
theorem setElapsedTime_ok (htr : trId.length = 3) (hlong : 4 ≤ answer.length) (now : UInt32) :
    ∃ sent, setElapsedTime (withTrId answer trId) now = .ok sent ∧
      sent.length = answer.length ∧
        (sent = withTrId answer trId ↔ Unstamped answer now) := by
  have hlength := length_withTrId htr hlong
  have hdiscover := discover_withTrId htr hlong elapsedTimeOption
  have hinside : 4 + (answer.length - 4) ≤ answer.length := by omega
  obtain ⟨found, hfound, hwithin⟩ := discover_ok elapsedTimeOption (answer.length - 4) hinside
  have hfound : libdhcpv6_message_option_discover answer 4 (answer.length - 4) elapsedTimeOption =
    .ok found := hfound
  unfold setElapsedTime
  rw [hdiscover, hfound]
  cases found with
  | none =>
      refine ⟨_, rfl, hlength, iff_of_true rfl fun o ho => ?_⟩
      rw [hfound] at ho
      cases ho
  | some o =>
      obtain ⟨hplace, hend⟩ := hwithin o rfl
      by_cases htwo : o.len = 2
      · refine ⟨(withTrId answer trId).take o.place ++ write16 (elapsedTime now) ++
          (withTrId answer trId).drop (o.place + 2), ?_, ?_, ?_⟩
        · show (if o.len = 2 then _ else _) = _
          rw [if_pos htwo]
          rfl
        · simp only [write16, List.length_append, List.length_take, List.length_drop, hlength,
            List.length_cons, List.length_nil]
          omega
        · have hroom : o.place + 2 ≤ (withTrId answer trId).length := by omega
          have hsize : (write16 (elapsedTime now)).length = 2 := rfl
          have hsplice := splice_eq_iff hsize hroom
          rw [drop_withTrId htr hlong (by omega : 4 ≤ o.place)] at hsplice
          refine Iff.trans hsplice ?_
          constructor
          · intro hwritten o' ho' _
            rw [hfound] at ho'
            obtain rfl := Option.some.inj (Except.ok.inj ho')
            exact hwritten
          · intro h
            exact h o hfound htwo
      · refine ⟨withTrId answer trId, ?_, hlength, iff_of_true rfl fun o' ho' hlen => ?_⟩
        · show (if o.len = 2 then _ else _) = _
          rw [if_neg htwo]
          rfl
        · rw [hfound] at ho'
          obtain rfl := Option.some.inj (Except.ok.inj ho')
          exact absurd hlen htwo

/-! ## From the server to the client -/

/-- The interface id of a relay message. -/
def interfaceIdOf (d : List UInt8) : Except Fault (Option (List UInt8)) := do
  match ← libdhcpv6_relay_msg_read d d.length with
  | some ⟨_, some found, _⟩ => some <$> copy d found.place found.len
  | _ => return none

/-- The client gets exactly the answer with the id of its message, and the reply has the
interface id of the Relay-Forward.  `inTime` says whether the handler answers before it
returns. -/
def Delivered (relay : Relay) (client : Address) (m answer : List UInt8) (now : UInt32)
    (inTime : Bool) : Prop :=
  ∃ sent tr call reply, relay.recv_dhcp_relay_msg client m = .ok (some sent) ∧
    recv_dhcp_server_msg relay.globalAddress serverPort sent.data = .ok (some (tr, call)) ∧
    tr.send_resp (if inTime then some sent.data else none) answer now = .ok (some reply) ∧
    reply.address = relay.globalAddress.toList ∧ reply.port = serverPort ∧
    relay.recv_dhcp_relay_msg relay.serverAddress reply.data =
      .ok (some ⟨withTrId answer ((m.drop 1).take 3), client.toList, clientPort⟩) ∧
    interfaceIdOf reply.data = interfaceIdOf sent.data

/-- The answer comes in time, has room for an id, is not malformed, is not stamped, and there
is room for it behind the frame. -/
def Answerable (relay : Relay) (answer : List UInt8) (now : UInt32) (inTime : Bool) : Prop :=
  inTime = true ∧ 4 ≤ answer.length ∧
    libdhcpv6_message_malformed_check answer 0 answer.length = .ok true ∧ Unstamped answer now ∧
      (wrap (relay.base relay.globalAddress) relay.id answer).length < 65536

section

variable {base : List UInt8} {id : Option (List UInt8)}

theorem copy_id (hbase : base.length = relayLength) (octets : List UInt8) (m : List UInt8) :
    copy (wrap base (some octets) m) relayLength (octets.length + 4) =
      .ok (option optionInterfaceId octets) := by
  have hlength := length_wrap base (some octets) m
  have hid : (idOption (some octets)).length = octets.length + 4 := length_option _ _
  rw [copy_ok (by omega), wrap, List.append_assoc, ← hbase, List.drop_left, idOption,
    ← length_option optionInterfaceId octets, List.take_left]

theorem interfaceIdOf_wrap (hbase : base.length = relayLength)
    (hfits : (wrap base id m).length < 65536) : interfaceIdOf (wrap base id m) = .ok id := by
  have hlength := length_wrap base id m
  rw [interfaceIdOf, relay_msg_read_wrap hbase hfits]
  cases id with
  | none => rfl
  | some octets =>
      have hid : (idOption (some octets)).length = octets.length + 4 := length_option _ _
      show some <$> copy (wrap base (some octets) m) (relayLength + 4) octets.length = _
      have hcopy : copy (wrap base (some octets) m) (relayLength + 4) octets.length =
          .ok octets := by
        have hwrap : wrap base (some octets) m =
            base ++ (write16 optionInterfaceId ++ write16 octets.length) ++
              (octets ++ option optionRelay m) := by
          simp [wrap, idOption, option]
        have hahead : (base ++ (write16 optionInterfaceId ++ write16 octets.length)).length =
            relayLength + 4 := by
          simp [write16, hbase]
        rw [copy_ok (by omega), hwrap, ← hahead, List.drop_left, List.take_left]
      rw [hcopy]
      rfl

/-- The relay agent hands an answer that is not malformed to the client. -/
theorem deliverReply_wrap (hbase : base.length = relayLength) {peer : List UInt8}
    (hpeer : copy (wrap base id m) 18 16 = .ok peer)
    (hfits : (wrap base id m).length < 65536) {well : Bool}
    (hwell : libdhcpv6_message_malformed_check m 0 m.length = .ok well) :
    deliverReply (wrap base id m) =
      .ok (if well then some ⟨m, peer, clientPort⟩ else none) := by
  have hlength := length_wrap base id m
  have hplace : (wrapped id m).options.place = base.length + (idOption id).length + 4 := by
    rw [hbase]
    rfl
  have hcheck : libdhcpv6_message_malformed_check (wrap base id m) (wrapped id m).options.place
      (wrapped id m).options.len = .ok well := by
    rw [hplace]
    exact (malformed_wrap base id m).trans hwell
  have hmsg : copy (wrap base id m) (wrapped id m).options.place (wrapped id m).options.len =
      .ok m := by
    have hcopy := copy_wrap base id (Nat.le_of_eq (Nat.zero_add m.length))
    rw [List.drop_zero, List.take_length, Nat.add_zero, ← hplace] at hcopy
    exact hcopy
  rw [deliverReply, relay_msg_read_wrap hbase hfits]
  show (do
    if ← libdhcpv6_message_malformed_check (wrap base id m) (wrapped id m).options.place
        (wrapped id m).options.len then
      let address ← copy (wrap base id m) 18 16
      let msg ← copy (wrap base id m) (wrapped id m).options.place (wrapped id m).options.len
      return socket_sendmsg [msg] address clientPort
    else return none) = _
  rw [hcheck, hpeer, hmsg]
  cases well with
  | false => rfl
  | true =>
      have hflat : [m].flatten = m := by simp
      show Except.ok (socket_sendmsg [m] peer clientPort) = _
      rw [socket_sendmsg, hflat, if_pos (by omega)]
      rfl

end

/-- The base of a Relay-Reply. -/
def Relay.replyBase (relay : Relay) (client : Address) : List UInt8 :=
  [relayReply, 0] ++ relay.globalAddress.toList ++ client.toList

theorem Relay.length_replyBase (relay : Relay) (client : Address) :
    (relay.replyBase client).length = relayLength := by
  simp [Relay.replyBase, relayLength]

/-- The server wraps an answer with the parts of the Relay-Forward. -/
theorem Relay.send_message_wrap (relay : Relay) (client : Address) (port : UInt16)
    (m answer : List UInt8) :
    (relay.transaction client port m).send_message (some (wrap (relay.base client) relay.id m))
        answer =
      .ok (socket_sendmsg [wrap (relay.replyBase client) relay.id answer]
        relay.globalAddress.toList serverPort) := by
  have hbase := relay.length_base client
  have hrelay : relayLength = 34 := rfl
  have hlength := length_wrap (relay.base client) relay.id m
  have haddress : copy (wrap (relay.base client) relay.id m) 2 16 =
      .ok relay.globalAddress.toList := by
    rw [copy_ok (by omega)]
    simp [wrap, Relay.base]
  have hhead : copy (wrap (relay.base client) relay.id m) 1 (relayLength - 1) =
      .ok ([0] ++ relay.globalAddress.toList ++ client.toList) := by
    have hwrap : wrap (relay.base client) relay.id m =
        relayForward :: ([0] ++ relay.globalAddress.toList ++ client.toList) ++
          (idOption relay.id ++ option optionRelay m) := by
      simp [wrap, Relay.base]
    have hlen : ([0] ++ relay.globalAddress.toList ++ client.toList).length = relayLength - 1 := by
      simp [relayLength]
    rw [copy_ok (by omega), hwrap]
    exact congrArg Except.ok (List.take_left' hlen)
  have hid : (relay.transaction client port m).interfaceIdOption
      (wrap (relay.base client) relay.id m) = .ok (idOption relay.id) := by
    unfold Transaction.interfaceIdOption Relay.transaction wrapped
    cases relay.id with
    | none => rfl
    | some octets => exact copy_id hbase octets m
  have hflat : [relayReply :: ([0] ++ relay.globalAddress.toList ++ client.toList),
      idOption relay.id, write16 optionRelay ++ write16 answer.length, answer].flatten =
        [wrap (relay.replyBase client) relay.id answer].flatten := by
    simp [wrap, Relay.replyBase, option]
  have hrelayed : (relay.transaction client port m).relayed = true := rfl
  rw [Transaction.send_message, if_pos hrelayed, haddress, hhead, hid]
  show Except.ok (socket_sendmsg _ _ _) = _
  rw [socket_sendmsg, hflat]
  rfl

/-- What the relay agent does with the reply of the server. -/
theorem Relay.recv_reply (relay : Relay) (source client : Address)
    (hfits : (wrap (relay.replyBase client) relay.id m).length < 65536) {well : Bool}
    (hwell : libdhcpv6_message_malformed_check m 0 m.length = .ok well) :
    relay.recv_dhcp_relay_msg source (wrap (relay.replyBase client) relay.id m) =
      .ok (if well then some ⟨m, client.toList, clientPort⟩ else none) := by
  have hbase := relay.length_replyBase client
  have hrelay : relayLength = 34 := rfl
  have hlength := length_wrap (relay.replyBase client) relay.id m
  have hpeer : copy (wrap (relay.replyBase client) relay.id m) 18 16 = .ok client.toList := by
    rw [copy_ok (by omega)]
    simp [wrap, Relay.replyBase]
  have hzero : byte (wrap (relay.replyBase client) relay.id m) 0 = .ok relayReply := rfl
  rw [Relay.recv_dhcp_relay_msg, if_neg (by omega), hzero]
  exact deliverReply_wrap hbase hpeer hfits hwell

/-- **Back to the client.**  The answer reaches the client as it is if and only if it can be
sent so. -/
theorem delivered_iff (relay : Relay) (client : Address)
    (hwell : libdhcpv6_message_malformed_check m 0 m.length = .ok true) (hcarried : Carried relay m)
    (answer : List UInt8) (now : UInt32) (inTime : Bool) :
    Delivered relay client m answer now inTime ↔ Answerable relay answer now inTime := by
  have hfits : (wrap (relay.base client) relay.id m).length < 65536 := by
    have hroom := hcarried.2.2.2
    rw [length_wrap, relay.length_base] at hroom ⊢
    exact hroom
  obtain ⟨hhead, hforward, hreply, -⟩ := hcarried
  have htype : m[0]? = some m[0] := List.getElem?_eq_getElem (by omega)
  have hsent := relay.recv_message client hhead htype (fun h => hforward (htype.trans (congrArg some h)))
    (fun h => hreply (htype.trans (congrArg some h))) hwell
  rw [if_pos hfits] at hsent
  obtain ⟨msgType, -, hserver⟩ :=
    relay.server_wrap relay.globalAddress client serverPort hhead hwell hfits
  have htr : ((m.drop 1).take 3).length = 3 := by
    rw [List.length_take, List.length_drop]
    omega
  have hunfold : Delivered relay client m answer now inTime ↔
      ∃ reply, (relay.transaction client serverPort m).send_resp
          (if inTime then some (wrap (relay.base client) relay.id m) else none) answer now =
            .ok (some reply) ∧
        reply.address = relay.globalAddress.toList ∧ reply.port = serverPort ∧
        relay.recv_dhcp_relay_msg relay.serverAddress reply.data =
          .ok (some ⟨withTrId answer ((m.drop 1).take 3), client.toList, clientPort⟩) ∧
        interfaceIdOf reply.data = interfaceIdOf (wrap (relay.base client) relay.id m) := by
    constructor
    · rintro ⟨sent', tr, call, reply, hsent', hserver', hrest⟩
      obtain rfl := Option.some.inj (Except.ok.inj (hsent.symm.trans hsent'))
      obtain ⟨rfl, -⟩ := Prod.mk.inj (Option.some.inj (Except.ok.inj (hserver.symm.trans hserver')))
      exact ⟨reply, hrest⟩
    · rintro ⟨reply, hrest⟩
      exact ⟨_, _, _, reply, hsent, hserver, hrest⟩
  rw [hunfold]
  by_cases hshort : answer.length < 4
  · refine iff_of_false ?_ fun h => ?_
    · rintro ⟨reply, hreply, _⟩
      rw [Transaction.send_resp, setTrId, if_pos hshort] at hreply
      cases hreply
    · have hlong := h.2.1
      omega
  have hlong : 4 ≤ answer.length := by omega
  obtain ⟨stamped, hstamped, hlength, hsame⟩ := setElapsedTime_ok htr hlong now
  have hsend : ∀ received, (relay.transaction client serverPort m).send_resp received answer now =
      (relay.transaction client serverPort m).send_message received stamped := by
    intro received
    rw [Transaction.send_resp, setTrId, if_neg hshort]
    show (setElapsedTime (withTrId answer ((m.drop 1).take 3)) now >>= _) = _
    rw [hstamped]
    rfl
  rw [hsend]
  cases inTime with
  | false =>
      refine iff_of_false ?_ fun h => by cases h.1
      rintro ⟨reply, hreply, _⟩
      cases hreply
  | true =>
      have hmessage := relay.send_message_wrap client serverPort m stamped
      have hsize : (wrap (relay.replyBase client) relay.id stamped).length =
          (wrap (relay.base relay.globalAddress) relay.id answer).length := by
        rw [length_wrap, length_wrap, relay.length_replyBase, relay.length_base, hlength]
      have hflat : [wrap (relay.replyBase client) relay.id stamped].flatten =
          wrap (relay.replyBase client) relay.id stamped := by simp
      rw [if_pos rfl, hmessage, socket_sendmsg, hflat]
      by_cases hroom : (wrap (relay.replyBase client) relay.id stamped).length < 65536
      · rw [if_pos hroom]
        have hecho : interfaceIdOf (wrap (relay.replyBase client) relay.id stamped) =
            interfaceIdOf (wrap (relay.base client) relay.id m) := by
          rw [interfaceIdOf_wrap (relay.length_replyBase client) hroom,
            interfaceIdOf_wrap (relay.length_base client) hfits]
        have hinside : 0 + stamped.length ≤ stamped.length := by omega
        obtain ⟨well, hstampedWell⟩ := malformed_ok hinside
        have hrecv := relay.recv_reply relay.serverAddress client hroom hstampedWell
        constructor
        · rintro ⟨reply, hreply, -, -, hdelivered, -⟩
          obtain rfl := Option.some.inj (Except.ok.inj hreply)
          have hout := Except.ok.inj (hrecv.symm.trans hdelivered)
          cases well with
          | false => cases hout
          | true =>
              have heq : stamped = withTrId answer ((m.drop 1).take 3) :=
                congrArg Sent.data (Option.some.inj hout)
              refine ⟨rfl, hlong, ?_, hsame.mp heq, hsize ▸ hroom⟩
              rw [← malformed_withTrId htr hlong, ← heq]
              exact hstampedWell
        · rintro ⟨-, -, hwellAnswer, hunstamped, -⟩
          have heq := hsame.mpr hunstamped
          rw [heq, malformed_withTrId htr hlong, hwellAnswer] at hstampedWell
          obtain rfl := Except.ok.inj hstampedWell
          refine ⟨_, rfl, rfl, rfl, ?_, hecho⟩
          rw [← heq]
          exact hrecv
      · rw [if_neg hroom]
        refine iff_of_false ?_ fun h => hroom (hsize ▸ h.2.2.2.2)
        rintro ⟨reply, hreply, _⟩
        cases hreply

/-! ## Datagrams from anywhere -/

theorem serve_meets {tr : Transaction} {place len : Nat} {msgType : UInt8} (hlong : 4 ≤ len)
    (hinside : place + len ≤ d.length) :
    Faults.Meets (fun _ => False) (serve d tr place len msgType) fun r =>
      ∀ tr' call, r = some (tr', call) → call.Within d := by
  unfold serve
  rw [Faults.meets_bind]
  refine (copy_meets (by omega)).mono fun trId _ => ?_
  rw [Faults.meets_bind]
  refine (malformed_meets hinside).mono fun well _ => ?_
  cases well with
  | false =>
      intro tr' call hnone
      cases hnone
  | true =>
      intro tr' call hsome
      obtain ⟨-, rfl⟩ := Prod.mk.inj (Option.some.inj hsome)
      have hfour : (4 : UInt16).toNat = 4 := rfl
      show place + 4 + (UInt16.ofNat len - 4).toNat ≤ d.length
      rw [UInt16.toNat_sub, UInt16.toNat_ofNat', hfour]
      omega

/-- A message without room for type and id is read outside, or its length wraps. -/
theorem serve_short {tr : Transaction} {place len : Nat} {msgType : UInt8} (hshort : len < 4)
    (hsmall : d.length < 65536) :
    ¬ Faults.Meets (fun _ => False) (serve d tr place len msgType) fun r =>
      ∀ tr' call, r = some (tr', call) → call.Within d := by
  intro hmeets
  have hcheck : libdhcpv6_message_malformed_check d place len = .ok true := by
    rw [libdhcpv6_message_malformed_check, if_neg (by omega)]
    rfl
  unfold serve at hmeets
  rw [hcheck] at hmeets
  cases hcopy : copy d (place + 1) 3 with
  | error f =>
      rw [hcopy] at hmeets
      exact hmeets
  | ok trId =>
      rw [hcopy] at hmeets
      have hwithin : place + 4 + (UInt16.ofNat len - 4).toNat ≤ d.length := hmeets _ _ rfl
      have hfour : (4 : UInt16).toNat = 4 := rfl
      rw [UInt16.toNat_sub, UInt16.toNat_ofNat', hfour] at hwithin
      omega

/-- Nothing outside the datagram is read, and what the handler is given lies in it. -/
def SafelyServed (source : Address) (port : UInt16) (d : List UInt8) : Prop :=
  Faults.Meets (fun _ => False) (recv_dhcp_server_msg source port d) fun r =>
    ∀ tr call, r = some (tr, call) → call.Within d

/-- A Relay-Forward carries a message with room for type and id. -/
def LongEnough (d : List UInt8) : Prop :=
  d[0]? = some relayForward → ∀ relayMsg,
    libdhcpv6_relay_msg_read d d.length = .ok (some relayMsg) → 4 ≤ relayMsg.options.len

/-- **The server socket.**  A datagram is served inside it if and only if it is no Relay-Forward
of a message that is too short. -/
theorem served_iff (source : Address) (port : UInt16) (hsmall : d.length < 65536) :
    SafelyServed source port d ↔ LongEnough d := by
  unfold SafelyServed recv_dhcp_server_msg
  by_cases hshort : d.length < 4
  · rw [if_pos hshort]
    refine iff_of_true (fun tr call hnone => by cases hnone) fun _ relayMsg hread => ?_
    have hfour : relayLength = 34 := rfl
    rw [libdhcpv6_relay_msg_read, if_pos (by omega)] at hread
    cases hread
  rw [if_neg hshort]
  have hhead : d[0]? = some d[0] := List.getElem?_eq_getElem (by omega)
  have hbyte : byte d 0 = .ok d[0] := byte_ok (by omega)
  rw [hbyte]
  by_cases hforward : d[0] = relayForward
  · show Faults.Meets _ (if d[0] = relayForward then _ else _) _ ↔ _
    rw [if_pos hforward]
    have hmeets := relay_msg_read_meets d
    cases hread : libdhcpv6_relay_msg_read d d.length with
    | error f =>
        rw [hread] at hmeets
        exact hmeets.elim
    | ok r =>
        rw [hread] at hmeets
        cases r with
        | none =>
            refine iff_of_true (fun tr call hnone => by cases hnone) fun _ relayMsg hsome => ?_
            rw [hread] at hsome
            cases hsome
        | some relayMsg =>
            obtain ⟨hpeer, hplace, hmsg⟩ := hmeets relayMsg rfl
            have hlong : LongEnough d ↔ 4 ≤ relayMsg.options.len := by
              refine ⟨fun h => h (hhead.trans (congrArg some hforward)) relayMsg hread,
                fun h _ relayMsg' hread' => ?_⟩
              rw [hread] at hread'
              obtain rfl := Option.some.inj (Except.ok.inj hread')
              exact h
            rw [hlong]
            show Faults.Meets _ (do
              let address ← copy d relayMsg.peerAddress 16
              let msgType ← byte d relayMsg.options.place
              serve d ⟨address, port, [], true, relayMsg.interfaceId⟩ relayMsg.options.place
                relayMsg.options.len msgType) _ ↔ _
            rw [copy_ok hpeer]
            cases htype : byte d relayMsg.options.place with
            | error f =>
                refine iff_of_false (fun h => h) fun h => ?_
                rw [byte_ok (by omega)] at htype
                cases htype
            | ok msgType =>
                by_cases h : 4 ≤ relayMsg.options.len
                · exact iff_of_true (serve_meets h hmsg) h
                · exact iff_of_false (serve_short (by omega) hsmall) h
  · have hlong : LongEnough d := by
      intro hhead'
      rw [hhead] at hhead'
      exact absurd (Option.some.inj hhead') hforward
    refine iff_of_true ?_ hlong
    show Faults.Meets _ (if d[0] = relayForward then _ else _) _
    rw [if_neg hforward]
    by_cases hreply : d[0] = relayReply
    · rw [if_pos hreply]
      intro tr call hnone
      cases hnone
    · rw [if_neg hreply]
      exact serve_meets (by omega) (by omega)

/-- **The relay socket.**  Nothing outside the datagram is read. -/
theorem relayed_safely (relay : Relay) (source : Address) (d : List UInt8) :
    Faults.Meets (fun _ => False) (relay.recv_dhcp_relay_msg source d) fun _ => True := by
  unfold Relay.recv_dhcp_relay_msg
  by_cases hshort : d.length < 4
  · rw [if_pos hshort]
    trivial
  rw [if_neg hshort, byte_ok (by omega)]
  show Faults.Meets _ (if d[0] = relayForward then _ else _) _
  split
  · trivial
  split
  · exact (deliverReply_meets d).mono fun _ _ => trivial
  · rw [Faults.meets_bind]
    refine (malformed_meets (by omega)).mono fun well _ => ?_
    cases well with
    | false => trivial
    | true => trivial

/-- **Transparency.**  A message that is not malformed is seen by the handler as the client
sent it if and only if the relay agent can carry it, and then the answer comes back as it is if
and only if it can be sent so; and of all datagrams only a Relay-Forward of a message that is
too short is read outside or given to a handler with a length that wrapped. -/
theorem relay_transparent (relay : Relay) (client source : Address) (port : UInt16)
    (m answer d : List UInt8) (now : UInt32) (inTime : Bool) :
    (libdhcpv6_message_malformed_check m 0 m.length = .ok true →
      (Seen relay client m ↔ Carried relay m) ∧
      (Carried relay m →
        (Delivered relay client m answer now inTime ↔ Answerable relay answer now inTime))) ∧
    (d.length < 65536 → (SafelyServed source port d ↔ LongEnough d)) ∧
    Faults.Meets (fun _ => False) (relay.recv_dhcp_relay_msg source d) fun _ => True :=
  ⟨fun hwell => ⟨seen_iff relay client hwell,
      fun hcarried => delivered_iff relay client hwell hcarried answer now inTime⟩,
    served_iff source port, relayed_safely relay source d⟩

/-- A Solicit without options. -/
def solicit : List UInt8 := [1, 0xab, 0xcd, 0xef]

/-- A relay agent with the interface id option. -/
def agent : Relay := ⟨.replicate 16 1, .replicate 16 2, 5, true⟩

theorem relay_transparent_solicit :
    (Seen agent (.replicate 16 3) solicit ↔ Carried agent solicit) ∧
    (Delivered agent (.replicate 16 3) solicit [7, 0, 0, 0] 0 true ↔
      Answerable agent [7, 0, 0, 0] 0 true) ∧
    (SafelyServed (.replicate 16 3) 546 solicit ↔ LongEnough solicit) := by
  have hcarried : Carried agent solicit := by
    refine ⟨by decide, by decide, by decide, by decide⟩
  have htransparent := relay_transparent agent (.replicate 16 3) (.replicate 16 3) 546 solicit
    [7, 0, 0, 0] solicit 0 true
  exact ⟨(htransparent.1 rfl).1, (htransparent.1 rfl).2 hcarried,
    htransparent.2.1 (by decide)⟩

/-- A Relay-Forward of a message of one octet. -/
def shortForward : List UInt8 := [12, 0] ++ List.replicate 32 1 ++ option optionRelay [1]

/-- The id of a message of one octet lies outside the datagram, the elapsed time in an answer
is overwritten, and an answer that is late is made from a datagram that was freed. -/
theorem relay_not_transparent :
    recv_dhcp_server_msg (.replicate 16 3) 547 shortForward = .error .outside ∧
    setElapsedTime ([7, 0xab, 0xcd, 0xef] ++ option elapsedTimeOption [1, 2]) 0 =
      .ok ([7, 0xab, 0xcd, 0xef] ++ option elapsedTimeOption [0, 0]) ∧
    ((agent.transaction (.replicate 16 3) 547 solicit).send_resp none [7, 0, 0, 0] 0) =
      .error .freed :=
  ⟨rfl, rfl, rfl⟩

end DhcpMsg
