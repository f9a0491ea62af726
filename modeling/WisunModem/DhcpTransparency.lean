import WisunModem.DhcpRelay

/-!
# Transparency of the DHCPv6 relay

What the relay agent wraps, the server unwraps, and the other way round.  The frame of both
directions is the same: 34 octets, an interface id or none, and the relay message option.
-/

namespace DhcpMsg

variable {relay : Relay} {client : Address} {m answer d : List UInt8} {now : UInt32}

/-! ## The frame -/

/-- The interface id option, where there is one. -/
def idOption : Option (List UInt8) → List UInt8
  | none => []
  | some octets => option optionInterfaceId octets

/-- A relay message: its base, an interface id and the message it carries. -/
def wrap (base : List UInt8) (id : Option (List UInt8)) (m : List UInt8) : List UInt8 :=
  base ++ idOption id ++ option optionRelay m

/-- Where the parts of a relay message are. -/
def wrapped (id : Option (List UInt8)) (m : List UInt8) : RelayMsg where
  peerAddress := 18
  interfaceId := id.map fun octets => ⟨relayLength + 4, octets.length⟩
  options := ⟨relayLength + (idOption id).length + 4, m.length⟩

section

variable {base : List UInt8} {id : Option (List UInt8)}

theorem length_wrap (base : List UInt8) (id : Option (List UInt8)) (m : List UInt8) : (wrap base id m).length =
    base.length + (idOption id).length + (m.length + 4) := by
  rw [wrap, List.length_append, List.length_append, length_option]

theorem discover_end (d : List UInt8) (type fuel p len : Nat) (hlen : len < 4) :
    discover d type fuel p len = .ok none := by
  cases fuel with
  | zero => rfl
  | succ fuel =>
      rw [discover, if_pos hlen]
      rfl

/-- The message is found behind the interface id. -/
theorem discover_relay (hfits : (wrap base id m).length < 65536) :
    discover (wrap base id m) optionRelay ((wrap base id m).length - base.length) base.length
        ((wrap base id m).length - base.length) =
      .ok (some ⟨base.length + (idOption id).length + 4, m.length⟩) := by
  have hlength := length_wrap base id m
  have hrelay : optionRelay < 65536 := by decide
  cases id with
  | none =>
      have hhere := discover_here base m [] ((wrap base none m).length - base.length)
        ((wrap base none m).length - base.length) hrelay (by omega) (by omega) (by omega)
      simpa [wrap, idOption] using hhere
  | some octets =>
      rw [idOption, length_option] at hlength
      obtain ⟨fuel, hfuel⟩ : ∃ fuel, (wrap base (some octets) m).length - base.length = fuel + 1 :=
        ⟨(wrap base (some octets) m).length - base.length - 1, by omega⟩
      have hid : optionInterfaceId < 65536 := by decide
      have hpast := discover_past base octets (option optionRelay m) optionRelay fuel (fuel + 1) hid
        (by decide) (by omega) (by omega)
      have hhere := discover_here (base ++ option optionInterfaceId octets) m [] fuel
        (fuel + 1 - (octets.length + 4)) hrelay (by omega) (by omega) (by omega)
      rw [List.append_nil] at hhere
      rw [hfuel]
      rw [List.length_append] at hhere hpast
      exact hpast.trans hhere

/-- The interface id is found if it is there. -/
theorem discover_id (hfits : (wrap base id m).length < 65536) :
    discover (wrap base id m) optionInterfaceId ((wrap base id m).length - base.length)
        base.length ((wrap base id m).length - base.length) =
      .ok (id.map fun octets => ⟨base.length + 4, octets.length⟩) := by
  have hlength := length_wrap base id m
  cases id with
  | none =>
      have hid : (idOption none).length = 0 := rfl
      have hrelay : optionRelay < 65536 := by decide
      obtain ⟨fuel, hfuel⟩ : ∃ fuel, (wrap base none m).length - base.length = fuel + 1 :=
        ⟨(wrap base none m).length - base.length - 1, by omega⟩
      have hpast := discover_past base m [] optionInterfaceId fuel (fuel + 1) hrelay (by decide)
        (by omega) (by omega)
      rw [List.append_nil] at hpast
      rw [hfuel, wrap, idOption, List.append_nil]
      exact hpast.trans (discover_end _ _ _ _ _ (by omega))
  | some octets =>
      rw [idOption, length_option] at hlength
      have hid : optionInterfaceId < 65536 := by decide
      exact discover_here base octets (option optionRelay m) _ _ hid (by omega) (by omega) (by omega)

/-- What was wrapped is found where it was put. -/
theorem relay_msg_read_wrap (hbase : base.length = relayLength)
    (hfits : (wrap base id m).length < 65536) :
    libdhcpv6_relay_msg_read (wrap base id m) (wrap base id m).length =
      .ok (some (wrapped id m)) := by
  have hlength := length_wrap base id m
  have hid := discover_id hfits
  have hrelay := discover_relay hfits
  rw [hbase] at hid hrelay
  simp only [libdhcpv6_relay_msg_read, libdhcpv6_message_option_discover, hid, hrelay,
    if_neg (by omega : ¬ (wrap base id m).length < relayLength + 4)]
  rfl

/-- What is in front of the message. -/
def ahead (base : List UInt8) (id : Option (List UInt8)) (n : Nat) : List UInt8 :=
  base ++ idOption id ++ (write16 optionRelay ++ write16 n)

theorem wrap_ahead (base : List UInt8) (id : Option (List UInt8)) (m : List UInt8) :
    wrap base id m = ahead base id m.length ++ m := by
  simp [wrap, option, ahead]

theorem length_ahead (base : List UInt8) (id : Option (List UInt8)) (n : Nat) :
    (ahead base id n).length = base.length + (idOption id).length + 4 := by
  simp [ahead, write16, Nat.add_assoc]

/-- The message in a frame is malformed if and only if it is on its own. -/
theorem malformed_wrap (base : List UInt8) (id : Option (List UInt8)) (m : List UInt8) :
    libdhcpv6_message_malformed_check (wrap base id m)
        (base.length + (idOption id).length + 4) m.length =
      libdhcpv6_message_malformed_check m 0 m.length := by
  have hshift := malformed_shift (ahead base id m.length) m []
  rwa [List.append_nil, length_ahead, ← wrap_ahead] at hshift

/-- Octets of the message. -/
theorem drop_wrap (base : List UInt8) (id : Option (List UInt8)) (m : List UInt8) (n : Nat) :
    (wrap base id m).drop (base.length + (idOption id).length + 4 + n) = m.drop n := by
  rw [wrap_ahead, ← length_ahead base id m.length, List.drop_append,
    List.drop_of_length_le (Nat.le_add_right _ _), Nat.add_sub_cancel_left, List.nil_append]

theorem byte_wrap (base : List UInt8) (id : Option (List UInt8)) {m : List UInt8} {n : Nat}
    (hinside : n < m.length) :
    byte (wrap base id m) (base.length + (idOption id).length + 4 + n) = byte m n := by
  have hshift := byte_shift (a := ahead base id m.length) (e := []) hinside
  rwa [List.append_nil, ← wrap_ahead, length_ahead] at hshift

theorem copy_wrap (base : List UInt8) (id : Option (List UInt8)) {m : List UInt8} {n l : Nat}
    (hinside : n + l ≤ m.length) :
    copy (wrap base id m) (base.length + (idOption id).length + 4 + n) l =
      .ok ((m.drop n).take l) := by
  have hlength := length_wrap base id m
  rw [copy_ok (by omega), drop_wrap]

end

/-! ## No read outside -/

theorem copy_meets {n l : Nat} (h : n + l ≤ d.length) :
    Faults.Meets (fun _ => False) (copy d n l) fun _ => True := by
  rw [copy_ok h]
  trivial

theorem malformed_meets {n l : Nat} (h : n + l ≤ d.length) :
    Faults.Meets (fun _ => False) (libdhcpv6_message_malformed_check d n l) fun _ => True := by
  obtain ⟨well, hwell⟩ := malformed_ok h
  rw [hwell]
  trivial

/-- A relay message is read inside the datagram, and so are its parts. -/
theorem relay_msg_read_meets (d : List UInt8) :
    Faults.Meets (fun _ => False) (libdhcpv6_relay_msg_read d d.length) fun read =>
      ∀ relayMsg, read = some relayMsg → relayMsg.peerAddress + 16 ≤ d.length ∧
        relayLength + 4 ≤ relayMsg.options.place ∧
          relayMsg.options.place + relayMsg.options.len ≤ d.length := by
  unfold libdhcpv6_relay_msg_read
  split
  · intro relayMsg hnone
    cases hnone
  · next hlong =>
      have hrelay : relayLength = 34 := rfl
      have hinside : relayLength + (d.length - relayLength) ≤ d.length := by omega
      obtain ⟨id, hid, -⟩ := discover_ok optionInterfaceId (d.length - relayLength) hinside
      obtain ⟨options, hoptions, hwithin⟩ := discover_ok optionRelay (d.length - relayLength) hinside
      unfold libdhcpv6_message_option_discover
      rw [hid, hoptions]
      cases options with
      | none =>
          intro relayMsg hnone
          cases hnone
      | some found =>
          intro relayMsg hsome
          obtain rfl := Option.some.inj hsome
          have hplace := hwithin found rfl
          refine ⟨?_, hplace.1, ?_⟩
          · show 18 + 16 ≤ d.length
            omega
          · show found.place + found.len ≤ d.length
            omega

/-- The relay agent reads nothing outside a Relay-Reply, and sends to the client port. -/
theorem deliverReply_meets (d : List UInt8) :
    Faults.Meets (fun _ => False) (deliverReply d) fun r =>
      ∀ sent, r = some sent → sent.port = clientPort := by
  unfold deliverReply
  rw [Faults.meets_bind]
  refine (relay_msg_read_meets d).mono fun read hread => ?_
  cases read with
  | none =>
      intro sent hnone
      cases hnone
  | some relayMsg =>
      obtain ⟨hpeer, -, hmsg⟩ := hread relayMsg rfl
      rw [Faults.meets_bind]
      refine (malformed_meets hmsg).mono fun well _ => ?_
      cases well with
      | false =>
          intro sent hnone
          cases hnone
      | true =>
          rw [if_pos rfl, Faults.meets_bind]
          refine (copy_meets hpeer).mono fun address _ => ?_
          rw [Faults.meets_bind]
          refine (copy_meets hmsg).mono fun msg _ => ?_
          intro sent hsent
          unfold socket_sendmsg at hsent
          split at hsent
          · obtain rfl := Option.some.inj hsent
            rfl
          · cases hsent

/-! ## From the client to the server -/

/-- The interface id a relay agent sends. -/
def Relay.id (relay : Relay) : Option (List UInt8) :=
  if relay.addInterfaceIdOption then some [relay.interfaceId] else none

/-- The base of a Relay-Forward. -/
def Relay.base (relay : Relay) (client : Address) : List UInt8 :=
  [relayForward, 0] ++ relay.globalAddress.toList ++ client.toList

theorem Relay.length_base (relay : Relay) (client : Address) :
    (relay.base client).length = relayLength := by
  simp [Relay.base, relayLength]

theorem Relay.idOption_id (relay : Relay) : idOption relay.id = relay.interfaceIdOption := by
  unfold Relay.id Relay.interfaceIdOption
  split <;> rfl

theorem Relay.frame_wrap (relay : Relay) (client : Address) (m : List UInt8) :
    relay.frame client m.length ++ m = wrap (relay.base client) relay.id m := by
  simp [Relay.frame, wrap, Relay.base, option, Relay.idOption_id]

/-- The server's handler sees the message of the client, and the transaction has its id. -/
def Seen (relay : Relay) (client : Address) (m : List UInt8) : Prop :=
  ∃ sent tr call, relay.recv_dhcp_relay_msg client m = .ok (some sent) ∧
    sent.address = relay.serverAddress.toList ∧ sent.port = serverPort ∧
    recv_dhcp_server_msg relay.globalAddress serverPort sent.data = .ok (some (tr, call)) ∧
    m = call.msgType :: tr.messageTrId ++ call.seen sent.data ∧ tr.messageTrId.length = 3

/-- A message with type and id that is no relay message, and room for it behind the frame. -/
def Carried (relay : Relay) (m : List UInt8) : Prop :=
  4 ≤ m.length ∧ m[0]? ≠ some relayForward ∧ m[0]? ≠ some relayReply ∧
    (wrap (relay.base relay.globalAddress) relay.id m).length < 65536

/-- The transaction of a message that came through a relay agent. -/
def Relay.transaction (relay : Relay) (client : Address) (port : UInt16) (m : List UInt8) :
    Transaction where
  address := client.toList
  port := port
  messageTrId := (m.drop 1).take 3
  relayed := true
  optInterfaceId := (wrapped relay.id m).interfaceId

theorem Relay.copy_peer (relay : Relay) (client : Address) (m : List UInt8) :
    copy (wrap (relay.base client) relay.id m) 18 16 = .ok client.toList := by
  have hlength := length_wrap (relay.base client) relay.id m
  have hbase := relay.length_base client
  have hrelay : relayLength = 34 := rfl
  rw [copy_ok (by omega)]
  simp [wrap, Relay.base]

/-- The server takes the Relay-Forward of a message apart. -/
theorem Relay.server_wrap (relay : Relay) (source client : Address) (port : UInt16)
    {m : List UInt8} (hhead : 4 ≤ m.length)
    (hwell : libdhcpv6_message_malformed_check m 0 m.length = .ok true)
    (hfits : (wrap (relay.base client) relay.id m).length < 65536) :
    ∃ msgType, m[0]? = some msgType ∧
      recv_dhcp_server_msg source port (wrap (relay.base client) relay.id m) =
        .ok (some (relay.transaction client port m,
          ⟨msgType, (wrapped relay.id m).options.place + 4, UInt16.ofNat m.length - 4⟩)) := by
  have hlength := length_wrap (relay.base client) relay.id m
  have hbase := relay.length_base client
  have hread := relay_msg_read_wrap hbase hfits
  have hplace : (wrapped relay.id m).options.place =
      (relay.base client).length + (idOption relay.id).length + 4 := by
    rw [hbase]
    rfl
  have hmalformed := malformed_wrap (relay.base client) relay.id m
  have htrId := copy_wrap (relay.base client) relay.id (by omega : 1 + 3 ≤ m.length)
  have hfirst := byte_wrap (relay.base client) relay.id (by omega : 0 < m.length)
  rw [← hplace] at hmalformed htrId hfirst
  rw [byte_ok (by omega : 0 < m.length)] at hfirst
  refine ⟨m[0], List.getElem?_eq_getElem (by omega), ?_⟩
  have hzero : byte (wrap (relay.base client) relay.id m) 0 = .ok relayForward := rfl
  have hcheck : libdhcpv6_message_malformed_check (wrap (relay.base client) relay.id m)
      (wrapped relay.id m).options.place (wrapped relay.id m).options.len = .ok true :=
    hmalformed.trans hwell
  have hpeer : copy (wrap (relay.base client) relay.id m) (wrapped relay.id m).peerAddress 16 =
    .ok client.toList := relay.copy_peer client m
  rw [recv_dhcp_server_msg, if_neg (by omega), hzero, hread]
  show (do
    let address ← copy (wrap (relay.base client) relay.id m) (wrapped relay.id m).peerAddress 16
    let msgType ← byte (wrap (relay.base client) relay.id m) (wrapped relay.id m).options.place
    serve (wrap (relay.base client) relay.id m) ⟨address, port, [], true, _⟩
      (wrapped relay.id m).options.place (wrapped relay.id m).options.len msgType) = _
  rw [hpeer, hfirst]
  show serve _ _ _ _ _ = _
  rw [serve, htrId, hcheck]
  rfl

/-- A Relay-Reply goes to a client. -/
theorem Relay.reply_port (relay : Relay) (source : Address) {d : List UInt8} {sent : Sent}
    (htype : d[0]? = some relayReply)
    (hsent : relay.recv_dhcp_relay_msg source d = .ok (some sent)) : sent.port = clientPort := by
  have hbyte : byte d 0 = .ok relayReply := by rw [byte, htype]
  unfold Relay.recv_dhcp_relay_msg at hsent
  split at hsent
  · cases hsent
  · rw [hbyte] at hsent
    exact (deliverReply_meets d).of_eq hsent sent rfl

/-- A message is its type, its id and the rest. -/
theorem message_parts {msgType : UInt8} (hhead : 4 ≤ m.length) (htype : m[0]? = some msgType) :
    msgType :: (m.drop 1).take 3 ++ m.drop 4 = m := by
  match m, hhead with
  | a :: b :: c :: e :: rest, _ =>
      obtain rfl : a = msgType := Option.some.inj htype
      rfl

/-- The handler sees what is behind the id. -/
theorem Relay.seen_wrap (relay : Relay) (client : Address) {msgType : UInt8}
    (hhead : 4 ≤ m.length) (hfits : (wrap (relay.base client) relay.id m).length < 65536) :
    (Call.mk msgType ((wrapped relay.id m).options.place + 4) (UInt16.ofNat m.length - 4)).seen
      (wrap (relay.base client) relay.id m) = m.drop 4 := by
  have hlength := length_wrap (relay.base client) relay.id m
  have hplace : (wrapped relay.id m).options.place =
      (relay.base client).length + (idOption relay.id).length + 4 := by
    rw [relay.length_base]
    rfl
  have hlen : (UInt16.ofNat m.length - 4).toNat = m.length - 4 := by
    have hfour : (4 : UInt16).toNat = 4 := rfl
    rw [UInt16.toNat_sub, UInt16.toNat_ofNat', hfour]
    omega
  rw [Call.seen, hplace, drop_wrap, hlen]
  exact List.take_of_length_le (Nat.le_of_eq List.length_drop)

/-- The relay agent wraps a message that is no relay message. -/
theorem Relay.recv_message (relay : Relay) (client : Address) {msgType : UInt8}
    (hhead : 4 ≤ m.length) (htype : m[0]? = some msgType) (hforward : msgType ≠ relayForward)
    (hreply : msgType ≠ relayReply)
    (hwell : libdhcpv6_message_malformed_check m 0 m.length = .ok true) :
    relay.recv_dhcp_relay_msg client m =
      .ok (if (wrap (relay.base client) relay.id m).length < 65536 then
        some ⟨wrap (relay.base client) relay.id m, relay.serverAddress.toList, serverPort⟩
        else none) := by
  have hbyte : byte m 0 = .ok msgType := by rw [byte, htype]
  have hflat : [relay.frame client m.length, m].flatten =
      wrap (relay.base client) relay.id m := by
    rw [← relay.frame_wrap client m]
    simp
  rw [← hflat, Relay.recv_dhcp_relay_msg, if_neg (by omega), hbyte]
  simp [hforward, hreply, hwell, socket_sendmsg, bind, Except.bind, pure, Except.pure]

/-- **To the server.**  A message that is not malformed reaches the handler as it is, if it is
long enough to have an id, is no relay message, and there is room for it. -/
theorem seen_iff (relay : Relay) (client : Address)
    (hwell : libdhcpv6_message_malformed_check m 0 m.length = .ok true) :
    Seen relay client m ↔ Carried relay m := by
  have hsize : (wrap (relay.base client) relay.id m).length =
      (wrap (relay.base relay.globalAddress) relay.id m).length := by
    rw [length_wrap, length_wrap, relay.length_base, relay.length_base]
  by_cases hshort : m.length < 4
  · refine iff_of_false (fun ⟨sent, tr, call, hsent, _⟩ => ?_) fun h => ?_
    · rw [Relay.recv_dhcp_relay_msg, if_pos hshort] at hsent
      cases hsent
    · have hlong := h.1
      omega
  have hhead : m[0]? = some m[0] := List.getElem?_eq_getElem (by omega)
  have hbyte : byte m 0 = .ok m[0] := byte_ok (by omega)
  by_cases hforward : m[0] = relayForward
  · refine iff_of_false (fun ⟨sent, tr, call, hsent, _⟩ => ?_) fun h => ?_
    · rw [Relay.recv_dhcp_relay_msg, if_neg hshort, hbyte, hforward] at hsent
      cases hsent
    · exact h.2.1 (hhead.trans (congrArg some hforward))
  by_cases hreply : m[0] = relayReply
  · refine iff_of_false (fun ⟨sent, tr, call, hsent, _, hport, _⟩ => ?_) fun h => ?_
    · have hclient := relay.reply_port client (hhead.trans (congrArg some hreply)) hsent
      rw [hport] at hclient
      cases hclient
    · exact h.2.2.1 (hhead.trans (congrArg some hreply))
  have hrecv := relay.recv_message client (by omega) hhead hforward hreply hwell
  by_cases hfits : (wrap (relay.base client) relay.id m).length < 65536
  · refine iff_of_true ?_ ⟨by omega, ?_, ?_, hsize ▸ hfits⟩
    · rw [if_pos hfits] at hrecv
      obtain ⟨msgType, hmsgType, hserver⟩ :=
        relay.server_wrap relay.globalAddress client serverPort (by omega) hwell hfits
      refine ⟨_, _, _, hrecv, rfl, rfl, hserver, ?_, ?_⟩
      · rw [Relay.seen_wrap relay client (by omega) hfits]
        exact (message_parts (by omega) hmsgType).symm
      · show ((m.drop 1).take 3).length = 3
        rw [List.length_take, List.length_drop]
        omega
    · rw [hhead]
      exact fun h => hforward (Option.some.inj h)
    · rw [hhead]
      exact fun h => hreply (Option.some.inj h)
  · refine iff_of_false (fun ⟨sent, tr, call, hsent, _⟩ => ?_) fun h => hfits (hsize ▸ h.2.2.2)
    rw [hrecv, if_neg hfits] at hsent
    cases hsent

end DhcpMsg
