import WisunModem.DhcpOptions

/-!
# DHCPv6 relay agent and server sockets

`recv_dhcp_relay_msg` wraps what a client sent into a Relay-Forward and unwraps Relay-Replies;
`recv_dhcp_server_msg` unwraps the Relay-Forward for the handler, and `dhcp_service_send_resp`
wraps the answer, with pointers into the datagram that was received.  An answer that comes
after the handler has returned finds that datagram freed.
-/

namespace DhcpMsg

/-- `DHCPV6_SERVER_PORT` -/
def serverPort : UInt16 := 547

/-- `DHCPV6_CLIENT_PORT` -/
def clientPort : UInt16 := 546

/-- `DHCPV6_RELAY_FORWARD` -/
def relayForward : UInt8 := 12

/-- `DHCPV6_RELAY_REPLY` -/
def relayReply : UInt8 := 13

/-- `DHCPV6_ELAPSED_TIME_OPTION` -/
def elapsedTimeOption : Nat := 0x0008

/-- `DHCPV6_OPTION_RELAY` -/
def optionRelay : Nat := 0x0009

/-- `DHCPV6_OPTION_INTERFACE_ID` -/
def optionInterfaceId : Nat := 0x0012

/-- `DHCPV6_RELAY_LENGTH` -/
def relayLength : Nat := 34

/-- An IPv6 address. -/
abbrev Address := Vector UInt8 16

/-- What a socket was given to send. -/
structure Sent where
  data : List UInt8
  address : List UInt8
  port : UInt16
  deriving DecidableEq

/-- `socket_message_validate_iov`: the lengths are added in 16 bits. -/
def socket_sendmsg (iov : List (List UInt8)) (address : List UInt8) (port : UInt16) :
    Option Sent :=
  if iov.flatten.length < 65536 then some ⟨iov.flatten, address, port⟩ else none

/-- `dhcpv6_relay_msg_t`, places in the datagram. -/
structure RelayMsg where
  peerAddress : Nat
  interfaceId : Option Found
  options : Found
  deriving DecidableEq

/-- `libdhcpv6_relay_msg_read` -/
def libdhcpv6_relay_msg_read (d : List UInt8) (length : Nat) : Except Fault (Option RelayMsg) :=
  if length < relayLength + 4 then return none
  else do
    let interfaceId ← libdhcpv6_message_option_discover d relayLength (length - relayLength)
      optionInterfaceId
    let options ← libdhcpv6_message_option_discover d relayLength (length - relayLength)
      optionRelay
    match options with
    | none => return none
    | some options => return some ⟨18, interfaceId, options⟩

/-! ## The relay agent -/

/-- An active `relay_instance_t`, with the address that is selected for its interface. -/
structure Relay where
  serverAddress : Address
  globalAddress : Address
  interfaceId : UInt8
  addInterfaceIdOption : Bool
  deriving DecidableEq

/-- `libdhcpv6_option_interface_id_write`, where it is wanted. -/
def Relay.interfaceIdOption (relay : Relay) : List UInt8 :=
  if relay.addInterfaceIdOption then option optionInterfaceId [relay.interfaceId] else []

/-- The relay frame in front of a message: `libdhcpv6_dhcp_relay_msg_write`, the interface id
and the header of the relay message option. -/
def Relay.frame (relay : Relay) (source : Address) (length : Nat) : List UInt8 :=
  [relayForward, 0] ++ relay.globalAddress.toList ++ source.toList ++ relay.interfaceIdOption ++
    (write16 optionRelay ++ write16 length)

/-- What `recv_dhcp_relay_msg` does with a Relay-Reply. -/
def deliverReply (d : List UInt8) : Except Fault (Option Sent) := do
  match ← libdhcpv6_relay_msg_read d d.length with
  | none => return none
  | some relayMsg =>
      if ← libdhcpv6_message_malformed_check d relayMsg.options.place relayMsg.options.len then
        let address ← copy d relayMsg.peerAddress 16
        let msg ← copy d relayMsg.options.place relayMsg.options.len
        return socket_sendmsg [msg] address clientPort
      else return none

/-- `recv_dhcp_relay_msg` -/
def Relay.recv_dhcp_relay_msg (relay : Relay) (source : Address) (d : List UInt8) :
    Except Fault (Option Sent) := do
  if d.length < 4 then return none
  let msgType ← byte d 0
  if msgType = relayForward then return none
  else if msgType = relayReply then deliverReply d
  else
    if ← libdhcpv6_message_malformed_check d 0 d.length then
      return socket_sendmsg [relay.frame source d.length, d] relay.serverAddress.toList serverPort
    else return none

/-! ## The server -/

/-- `msg_tr_t` as the server uses it. -/
structure Transaction where
  address : List UInt8
  port : UInt16
  messageTrId : List UInt8
  relayed : Bool
  optInterfaceId : Option Found
  deriving DecidableEq

/-- A call of `recv_req_cb`: the octets at `place`, as many as `len` says. -/
structure Call where
  msgType : UInt8
  place : Nat
  len : UInt16
  deriving DecidableEq

/-- The octets a handler is given are octets of the datagram. -/
def Call.Within (call : Call) (d : List UInt8) : Prop := call.place + call.len.toNat ≤ d.length

/-- The message a handler is given. -/
def Call.seen (call : Call) (d : List UInt8) : List UInt8 :=
  (d.drop call.place).take call.len.toNat

/-- The handler is given the message without its type and id, and a length in 16 bits. -/
def serve (d : List UInt8) (tr : Transaction) (place len : Nat) (msgType : UInt8) :
    Except Fault (Option (Transaction × Call)) := do
  let trId ← copy d (place + 1) 3
  if ← libdhcpv6_message_malformed_check d place len then
    return some ({ tr with messageTrId := trId },
      ⟨msgType, place + 4, UInt16.ofNat len - 4⟩)
  else return none

/-- `recv_dhcp_server_msg`, where a handler waits at the interface. -/
def recv_dhcp_server_msg (source : Address) (port : UInt16) (d : List UInt8) :
    Except Fault (Option (Transaction × Call)) := do
  if d.length < 4 then return none
  let msgType ← byte d 0
  if msgType = relayForward then
    match ← libdhcpv6_relay_msg_read d d.length with
    | none => return none
    | some relayMsg =>
        let address ← copy d relayMsg.peerAddress 16
        let msgType ← byte d relayMsg.options.place
        serve d ⟨address, port, [], true, relayMsg.interfaceId⟩ relayMsg.options.place
          relayMsg.options.len msgType
  else if msgType = relayReply then return none
  else serve d ⟨source.toList, port, [], false, none⟩ 0 d.length msgType

/-- The time since a transaction that was never transmitted, in 1/100 s. -/
def elapsedTime (now : UInt32) : Nat :=
  if 0xffff / 10 < now.toNat then 0xffff else now.toNat * 10

/-- `common_write_24_bit` of the id that was received. -/
def setTrId (answer trId : List UInt8) : Except Fault (List UInt8) :=
  if answer.length < 4 then throw .outside else return answer.take 1 ++ trId ++ answer.drop 4

/-- The elapsed time is written into each message that has room for it. -/
def setElapsedTime (answer : List UInt8) (now : UInt32) : Except Fault (List UInt8) := do
  match ← libdhcpv6_message_option_discover answer 4 (answer.length - 4) elapsedTimeOption with
  | none => return answer
  | some found =>
      if found.len = 2 then
        return answer.take found.place ++ write16 (elapsedTime now) ++ answer.drop (found.place + 2)
      else return answer

/-- The interface id option as it was received, with its header. -/
def Transaction.interfaceIdOption (tr : Transaction) (d : List UInt8) :
    Except Fault (List UInt8) :=
  match tr.optInterfaceId with
  | none => return []
  | some found => copy d (found.place - 4) (found.len + 4)

/-- `dhcp_service_send_message` for an answer; the datagram is there until the handler
returns. -/
def Transaction.send_message (tr : Transaction) (received : Option (List UInt8))
    (answer : List UInt8) : Except Fault (Option Sent) :=
  if tr.relayed then
    match received with
    | none => throw .freed
    | some d => do
        let address ← copy d 2 16
        let head ← copy d 1 (relayLength - 1)
        let interfaceId ← tr.interfaceIdOption d
        return socket_sendmsg [relayReply :: head, interfaceId,
          write16 optionRelay ++ write16 answer.length, answer] address serverPort
  else return socket_sendmsg [answer] tr.address tr.port

/-- `dhcp_service_send_resp` -/
def Transaction.send_resp (tr : Transaction) (received : Option (List UInt8))
    (answer : List UInt8) (now : UInt32) : Except Fault (Option Sent) := do
  let answer ← setTrId answer tr.messageTrId
  let answer ← setElapsedTime answer now
  tr.send_message received answer

end DhcpMsg
