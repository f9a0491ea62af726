import WisunModem.Sockbuf

/-!
# A socket of the stack

One socket as `ns_socket.c`, `socket_api.c` and `tcp.c` keep it: the flags, the
two queues, the TCP session behind a stream socket and the events of the socket
which wait in the event queue of the socket tasklet.

Sequence numbers are kept as differences.  `flight` is what is sent and not
acknowledged (`send_next - send_unacknowledged`) and `adv` the window offered
and not yet filled (`receive_adv - receive_next`); a segment says where its data
and its acknowledgement lie relative to these.  Round-trip times, checksums and
the segments sent carry nothing to the application and are left out.

Memory can run out at every allocation: a `Mem` says which ones succeed.
-/

namespace NsSocket

/-- Event types of a socket callback. -/
inductive SocketEvent
  | data
  | connectDone
  | connectFail
  | connectAuthFail
  | incomingConnection
  | txFail
  | connectClosed
  | connectionReset
  | noRoute
  | txDone
  | noRam
  | connectionProblem
  deriving DecidableEq, Repr

/-- What the socket tasklet finds in its event queue: `ARM_SOCKET_EVENT_CB` with
the event type and the length given when it was pushed, or
`ARM_SOCKET_DATA_QUEUED_CB`, whose length is read when it is delivered. -/
inductive SocketMsg
  | event (type : SocketEvent) (length : Nat)
  | dataQueued
  deriving DecidableEq, Repr

inductive TcpState
  | closed
  | listen
  | synSent
  | synReceived
  | established
  | finWait1
  | finWait2
  | closeWait
  | lastAck
  | closing
  | timeWait
  deriving DecidableEq, Repr

/-- `state >= TCP_STATE_ESTABLISHED` -/
def TcpState.synchronized : TcpState → Bool
  | .closed | .listen | .synSent | .synReceived => false
  | _ => true

/-- States whose segments carry a SYN. -/
def TcpState.hasSyn : TcpState → Bool
  | .synSent | .synReceived => true
  | _ => false

/-- States whose segments carry a FIN once nothing else is queued. -/
def TcpState.hasFin : TcpState → Bool
  | .finWait1 | .lastAck | .closing => true
  | _ => false

/-- States in which received data is taken. -/
def TcpState.takesData : TcpState → Bool
  | .established | .finWait1 | .finWait2 => true
  | _ => false

/-- `tcp_session_t` -/
structure Tcp where
  state : TcpState
  busy : Bool
  persist : Bool
  sentFin : Bool
  retry : Nat
  flight : Nat
  sendWindow : Nat
  sendMss : Nat
  adv : Int
  deriving DecidableEq, Repr

/-- `socket_t` with its control block.  `carried` counts the buffers on their way
down the stack which carry the socket and will be answered by an event.
`finSeen` belongs to the model: it says that the peer has closed its side of the
stream. -/
structure Socket where
  id : Nat
  stream : Bool
  connecting : Bool
  connected : Bool
  shutWr : Bool
  cantRecvMore : Bool
  session : Option Tcp
  rcvq : Sockbuf
  sndq : Sockbuf
  events : List SocketMsg
  carried : Nat
  finSeen : Bool
  deriving Repr

/-- Which allocations succeed: an event pushed, by its type, or for queued data,
an outgoing segment, the buffer of an acknowledgement. -/
structure Mem where
  event : SocketEvent → Bool
  dataQueued : Bool
  segment : Bool
  ack : Bool

/-- Memory enough for everything. -/
def Mem.ample : Mem := ⟨fun _ => true, true, true, true⟩

/-- There is memory for the event. -/
def Mem.keeps (mem : Mem) : SocketMsg → Bool
  | .event type _ => mem.event type
  | .dataQueued => mem.dataQueued

def tcpSynRetries : Nat := 7

def tcpMaxRetries : Nat := 6

def tcpProblemRetries : Nat := 3

def tcpLowpanMssLimit : Nat := 300

def ipv6MinLinkMtu : Nat := 1280

/-! ## Events and the end of a connection -/

/-- `socket_event_push` and `socket_data_queued_event_push`; a socket which is
attached to the application is neither pending nor closed. -/
def socketEventPush (mem : Mem) (so : Socket) (msg : SocketMsg) : Socket :=
  if mem.keeps msg then { so with events := so.events ++ [msg] } else so

/-- `socket_cant_recv_more` -/
def socketCantRecvMore (mem : Mem) (so : Socket) : Socket :=
  socketEventPush mem { so with cantRecvMore := true } (.event .data 0)

/-- `socket_connection_abandoned` -/
def socketConnectionAbandoned (mem : Mem) (so : Socket) (reason : Option SocketEvent) :
    Socket :=
  if !(so.connecting || so.connected) then so
  else
    let so :=
      { so with
        connecting := false
        shutWr := true
        cantRecvMore := true
        connected := true
        sndq := so.sndq.flush }
    match reason with
    | none => so
    | some ev => socketEventPush mem so (.event ev 0)

/-- `socket_connection_complete` -/
def socketConnectionComplete (mem : Mem) (so : Socket) : Socket :=
  if !so.connecting || so.connected then so
  else socketEventPush mem { so with connecting := false, connected := true }
    (.event .connectDone 0)

/-- `tcp_session_ptr_free` -/
def tcpSessionPtrFree (so : Socket) : Socket :=
  { so with session := none, cantRecvMore := true, shutWr := true }

/-- `tcp_session_delete_with_error`; `tcp_session_delete` gives no error. -/
def tcpSessionDeleteWithError (mem : Mem) (so : Socket) (error : Option SocketEvent) :
    Socket :=
  tcpSessionPtrFree (socketConnectionAbandoned mem so error)

/-! ## Sending segments -/

/-- `tcp_compute_window_incr`: the window offered moves to the right only, and
not by small steps. -/
def tcpComputeWindowIncr (so : Socket) (t : Tcp) : Tcp :=
  let window := min (max so.rcvq.space 0) 0xffff
  if window < t.adv then t
  else if window - t.adv < ((so.rcvq.dataByteLimit / 2 : Nat) : Int) ∧
      window - t.adv < t.sendMss then t
  else { t with adv := window }

/-- `tcp_ack_buffer` and the `tcp_build` of it: `newAck` more bytes are received. -/
def tcpAckBuffer (mem : Mem) (so : Socket) (t : Tcp) (newAck : Nat) : Tcp :=
  if mem.ack then tcpComputeWindowIncr so { t with adv := t.adv - newAck } else t

/-- `tcp_build` of a segment with `len` bytes and `tcp_uack_segment` of it. -/
def tcpBuild (mem : Mem) (so : Socket) (t : Tcp) (len : Nat) : Tcp :=
  if !mem.segment then t
  else if len ≠ 0 ∧ t.sentFin = true then t
  else
    let fin := t.state.hasFin && decide (so.sndq.dataBytes ≤ len)
    let size := len + t.state.hasSyn.toNat + fin.toNat
    let t := tcpComputeWindowIncr so t
    if size = 0 then t
    else { t with sentFin := t.sentFin || fin, flight := t.flight + size, busy := true }

/-- `tcp_segment_start`; after a timeout everything unacknowledged is sent
again. -/
def tcpSegmentStart (mem : Mem) (so : Socket) (t : Tcp) (timeout : Bool) : Tcp :=
  let t := if timeout then { t with flight := 0, sentFin := false } else t
  match so.sndq.bufs with
  | [] =>
      if t.state.hasSyn || (t.state.hasFin && !t.sentFin) then
        tcpBuild mem so { t with persist := false } 0
      else t
  | buf :: _ =>
      let len := min (min buf.length t.sendMss) t.sendWindow
      if len = 0 then
        if timeout then tcpBuild mem so t 1
        else { t with persist := true, retry := 0 }
      else tcpBuild mem so { t with persist := false } len

/-- How often a segment is sent again. -/
def retryLimit (st : TcpState) : Nat :=
  if st.synchronized then tcpMaxRetries else tcpSynRetries

/-- `tcp_resend_segment` -/
def tcpResendSegment (mem : Mem) (so : Socket) (t : Tcp) : Socket :=
  if t.retry ≥ retryLimit t.state then
    tcpSessionDeleteWithError mem so (some .txFail)
  else
    let t := { t with retry := t.retry + 1 }
    let so := if t.retry = tcpProblemRetries then
      socketEventPush mem so (.event .connectionProblem 0) else so
    { so with session := some (tcpSegmentStart mem so t true) }

/-- `tcp_ack_segment`: `ack` is how far the acknowledgement goes beyond what was
acknowledged before. -/
def tcpAckSegment (mem : Mem) (so : Socket) (t : Tcp) (ack : Nat) : Socket :=
  let so : Socket := { so with sndq := so.sndq.drop (min ack so.sndq.dataBytes) }
  let remaining := so.sndq.dataBytes
  let so := if t.state.synchronized then
    socketEventPush mem so (.event .txDone remaining) else so
  let done := decide (ack = t.flight)
  let t : Tcp := { t with flight := t.flight - ack }
  if done then
    let t : Tcp := { t with retry := 0 }
    if remaining ≠ 0 ∨ (t.state.hasFin = true ∧ t.sentFin = false) then
      { so with session := some (tcpSegmentStart mem so t false) }
    else { so with session := some { t with busy := false } }
  else { so with session := some t }

/-! ## Closing -/

/-- `tcp_session_close`; whether the session is still there. -/
def tcpSessionClose (mem : Mem) (so : Socket) (t : Tcp) : Socket × Bool :=
  match t.state with
  | .closed | .lastAck | .finWait1 | .finWait2 | .closing | .timeWait => (so, true)
  | .listen | .synSent => (tcpSessionDeleteWithError mem so none, false)
  | .synReceived | .established | .closeWait =>
      let t := { t with state := if t.state = .closeWait then .lastAck else .finWait1 }
      let t := if t.busy then t else tcpSegmentStart mem so { t with busy := true } false
      ({ so with session := some t }, true)

/-- `tcp_session_abort` -/
def tcpSessionAbort (mem : Mem) (so : Socket) (t : Tcp) : Socket :=
  match t.state with
  | .closed => so
  | .synReceived | .established | .finWait1 | .finWait2 | .closeWait | .listen | .synSent =>
      tcpSessionDeleteWithError mem so (some .connectionReset)
  | .lastAck | .closing | .timeWait => tcpSessionDeleteWithError mem so none

/-- `tcp_session_shutdown_read`; data nobody has read is answered by a reset. -/
def tcpSessionShutdownRead (mem : Mem) (so : Socket) (t : Tcp) : Socket × Bool :=
  if so.rcvq.dataBytes ≠ 0 then (tcpSessionAbort mem so t, decide (t.state ≠ .closed))
  else (so, true)

/-! ## Receiving segments -/

/-- A segment whose ports and addresses belong to the session and whose data
before the receive window is stripped. -/
structure Segment where
  /-- The options could not be parsed. -/
  malformed : Bool
  rst : Bool
  syn : Bool
  fin : Bool
  psh : Bool
  /-- The acknowledgement number relative to `send_unacknowledged`. -/
  ack : Option Int
  /-- The sequence number relative to `receive_next`. -/
  offset : Nat
  buf : Buffer
  window : Nat
  /-- The segment is not older than the last window update. -/
  fresh : Bool
  mss : Nat
  deriving Repr

/-- `tcp_rethink_mss` on the mesh interface. -/
def tcpRethinkMss (mss : Nat) : Nat :=
  max (min (min mss tcpLowpanMssLimit) (ipv6MinLinkMtu - 20 - 40)) 64

/-- The FIN of a segment. -/
def tcpFin (mem : Mem) (so : Socket) (t : Tcp) : Socket × Tcp :=
  match t.state with
  | .synReceived | .established =>
      (socketCantRecvMore mem { so with finSeen := true }, { t with state := .closeWait })
  | .finWait1 =>
      (socketCantRecvMore mem { so with finSeen := true },
        { t with state := if t.flight = 0 then .timeWait else .closing })
  | .finWait2 =>
      (socketEventPush mem (socketCantRecvMore mem { so with finSeen := true })
        (.event .connectClosed 0), { t with state := .timeWait })
  | _ => (so, t)

/-- `tcp_up` once the data of the segment is in the receive queue: a FIN, and
the acknowledgement. -/
def tcpTake (mem : Mem) (so : Socket) (t : Tcp) (segLen : Nat) (fin : Bool) : Socket :=
  let r := if fin then tcpFin mem so t else (so, t)
  { r.1 with
    session := some (if segLen > 0 then tcpAckBuffer mem r.1 r.2 segLen else r.2) }

/-- Data for the receive queue.  An event tells of it when the peer pushed, or
when half of the queue is full. -/
def tcpTakeData (mem : Mem) (so : Socket) (push : Bool) (buf : Buffer) : Socket :=
  let so := { so with rcvq := so.rcvq.appendAndCompress buf }
  if push || decide (so.rcvq.space ≤ ((so.rcvq.dataByteLimit / 2 : Nat) : Int)) then
    socketEventPush mem so .dataQueued
  else so

/-- `tcp_up` from `syn_sent_to_established`: the text of the segment. -/
def tcpText (mem : Mem) (so : Socket) (t : Tcp) (seg : Segment) (segLen : Nat)
    (inOrder fin : Bool) (buf : Buffer) : Socket :=
  if segLen > 0 ∧ inOrder = false then
    { so with session := some (tcpAckBuffer mem so t 0) }
  else if buf.length ≠ 0 ∧ t.state.takesData = true then
    if so.cantRecvMore then tcpSessionDeleteWithError mem so (some .connectionReset)
    else tcpTake mem (tcpTakeData mem so (fin || seg.psh) buf) t segLen fin
  else tcpTake mem so t segLen fin

/-- What an acknowledgement does to the state of a closing session.  The second
value says whether the session is at its end. -/
def tcpFinAcked (t : Tcp) : Tcp × Bool :=
  if t.sentFin = true ∧ t.flight = 0 then
    match t.state with
    | .finWait1 => ({ t with state := .finWait2 }, false)
    | .closing => ({ t with state := .timeWait }, false)
    | .lastAck => (t, true)
    | _ => (t, false)
  else (t, false)

/-- The acknowledgement of a segment, when it lies within what is sent. -/
def tcpAcked (mem : Mem) (so : Socket) (t : Tcp) (seg : Segment) (ack : Nat) : Socket :=
  let t := if seg.fresh then
      { t with
        sendWindow := seg.window
        persist := t.persist || decide (seg.window = 0 ∧ ack ≠ t.flight) }
    else t
  if ack ≠ 0 then tcpAckSegment mem so t ack
  else if t.persist then
    if seg.window ≠ 0 then tcpResendSegment mem so { t with retry := 0, persist := false }
    else { so with session := some { t with retry := 0 } }
  else { so with session := some t }

/-- `tcp_up` from the check of the ACK flag on. -/
def tcpUpAck (mem : Mem) (so : Socket) (t : Tcp) (seg : Segment) (ack : Int) (segLen : Nat)
    (fin : Bool) (buf : Buffer) : Socket :=
  if ack < 0 then tcpText mem so t seg segLen (seg.offset = 0) fin buf
  else if ack > t.flight then { so with session := some (tcpAckBuffer mem so t 0) }
  else
    let so := tcpAcked mem so t seg ack.toNat
    match so.session with
    | none => so
    | some t =>
        if (tcpFinAcked t).2 then
          tcpSessionDeleteWithError mem (socketEventPush mem so (.event .connectClosed 0)) none
        else tcpText mem so (tcpFinAcked t).1 seg segLen (seg.offset = 0) fin buf

/-- `tcp_up` once the segment is known to lie in the receive window. -/
def tcpUpInWindow (mem : Mem) (so : Socket) (t : Tcp) (seg : Segment) (segLen : Nat)
    (fin : Bool) (buf : Buffer) : Socket :=
  if seg.rst then
    match t.state with
    | .synReceived => tcpSessionDeleteWithError mem so (some .connectFail)
    | .established | .finWait1 | .finWait2 | .closeWait =>
        tcpSessionDeleteWithError mem so (some .connectionReset)
    | .closing | .lastAck => tcpSessionDeleteWithError mem so none
    | _ => so
  else if seg.syn then tcpSessionDeleteWithError mem so (some .connectionReset)
  else
    match seg.ack with
    | none => so
    | some ack =>
        if t.state = .synReceived then
          if ack = t.flight then
            let so := socketConnectionComplete mem so
            let t := { t with state := .established, sendWindow := seg.window }
            tcpUpAck mem so t seg ack segLen fin buf
          else so
        else tcpUpAck mem so t seg ack segLen fin buf

/-- The window checks of `tcp_up`: data behind the window is stripped. -/
def tcpUpWindow (mem : Mem) (so : Socket) (t : Tcp) (seg : Segment) : Socket :=
  let window := max (max so.rcvq.space 0) t.adv
  let segLen := seg.buf.length + seg.syn.toNat + seg.fin.toNat
  let ok := if window = 0 then decide (segLen = 0 ∧ seg.offset = 0)
    else decide ((seg.offset : Int) < window)
  if !ok then { so with session := some (tcpAckBuffer mem so t 0) }
  else if (seg.offset : Int) + seg.buf.length > window then
    let buf := seg.buf.truncate (window - seg.offset).toNat
    tcpUpInWindow mem so t seg (buf.length + seg.syn.toNat) false buf
  else tcpUpInWindow mem so t seg segLen seg.fin seg.buf

/-- `tcp_up` in `TCP_STATE_SYN_SENT`, where a SYN sets the receive window up. -/
def tcpUpSynSent (mem : Mem) (so : Socket) (t : Tcp) (seg : Segment) : Socket :=
  if seg.ack ≠ none ∧ seg.ack ≠ some (t.flight : Int) then so
  else if seg.rst then
    if seg.ack ≠ none then tcpSessionDeleteWithError mem so (some .connectFail) else so
  else if seg.syn then
    let t := { t with adv := 0, sendMss := tcpRethinkMss seg.mss }
    if seg.ack ≠ none then
      let so := tcpAckSegment mem so t t.flight
      match so.session with
      | none => so
      | some t =>
          let so := socketConnectionComplete mem so
          let t := { t with state := .established, sendWindow := seg.window }
          tcpText mem so t seg (seg.buf.length + 1 + seg.fin.toNat) true seg.fin seg.buf
    else
      -- the answer to the SYN is sent with the socket of the segment set
      let t := { t with state := .synReceived }
      if mem.ack then
        { so with
          session := some (tcpBuild mem so { t with adv := t.adv - 1 } 0)
          carried := so.carried + 1 }
      else { so with session := some t }
  else tcpUpWindow mem so t seg

/-- `tcp_up` for a segment of an existing session.  A bare SYN in
`TCP_STATE_TIME_WAIT` is offered to listening sockets, and the port has none. -/
def tcpUp (mem : Mem) (so : Socket) (t : Tcp) (seg : Segment) : Socket :=
  if t.state = .closed ∨ seg.malformed = true then
    if seg.rst then so else tcpSessionDeleteWithError mem so (some .connectionReset)
  else if t.state = .synSent then tcpUpSynSent mem so t seg
  else if t.state = .timeWait ∧ seg.syn = true ∧ seg.fin = false ∧ seg.ack = none ∧
      seg.rst = false then so
  else tcpUpWindow mem so t seg

/-- `tcp_handle_time_event` when the timer of the session has run out. -/
def tcpHandleTimeEvent (mem : Mem) (so : Socket) (t : Tcp) : Socket :=
  match t.state with
  | .closed => so
  | .timeWait => tcpSessionDeleteWithError mem so none
  | _ => if t.busy then tcpResendSegment mem so t else so

/-! ## Datagrams -/

/-- `socket_up` for a datagram; `limited` says that the reference limit of the
socket is reached.  The application gives its sockets a receive buffer, so the
queue is in use. -/
def socketUp (mem : Mem) (so : Socket) (limited : Bool) (buf : Buffer) : Socket :=
  if limited then so
  else if so.rcvq.space < buf.length then so
  else if !mem.dataQueued then so
  else { so with events := so.events ++ [.dataQueued], rcvq := so.rcvq.append buf }

/-- Events which report the fate of a transmitted buffer. -/
def SocketEvent.ofBuffer : SocketEvent → Bool
  | .txDone | .txFail | .noRoute | .noRam => true
  | _ => false

/-- `socket_tx_buffer_event` for a buffer which carries the socket. -/
def socketTxBufferEvent (mem : Mem) (so : Socket) (event : SocketEvent) (length : Nat) :
    Socket :=
  socketEventPush mem { so with carried := so.carried - 1 } (.event event length)

/-! ## Calls of the application -/

/-- A socket as `socket_open` leaves it, with the two buffer sizes the
application sets right afterwards. -/
def socketOpen (id : Nat) (stream : Bool) (bufSize : Nat) : Socket where
  id := id
  stream := stream
  connecting := false
  connected := false
  shutWr := false
  cantRecvMore := false
  session := none
  rcvq := ((if stream then Sockbuf.init.reserve 2048 else Sockbuf.init)).reserve bufSize
  sndq := ((if stream then { Sockbuf.init with lowWaterMark := 512 }.reserve 2048
    else Sockbuf.init)).reserve bufSize
  events := []
  carried := 0
  finSeen := false

/-- The session `tcp_session_ptr_allocate` makes, once `tcp_session_open` has
sent its SYN. -/
def tcpSessionOpen (mem : Mem) (so : Socket) : Tcp :=
  tcpBuild mem so
    { state := .synSent
      busy := false
      persist := false
      sentFin := false
      retry := 0
      flight := 0
      sendWindow := 0
      sendMss := 536
      adv := 0 } 0

/-- `socket_connect` of a fresh socket; `ready` says that an interface, an
address and memory were found.  Where they are not, the application closes the
socket at once. -/
def socketConnect (mem : Mem) (so : Socket) (ready : Bool) : Socket × Bool :=
  if !ready then (so, false)
  else ({ so with session := some (tcpSessionOpen mem so), connecting := true }, true)

/-- Why nothing was sent. -/
inductive SendError
  | badSocket
  | noMemory
  | noSession
  | notConnected
  | wouldBlock
  | failed
  deriving DecidableEq, Repr

/-- `tcp_session_send`, `none` being `TCP_ERROR_WRONG_STATE`. -/
def tcpSessionSend (mem : Mem) (so : Socket) (t : Tcp) (buf : Buffer) : Option Socket :=
  if t.state ≠ .established ∧ t.state ≠ .closeWait then none
  else
    let so := { so with sndq := so.sndq.appendAndCompress buf }
    if t.busy then some { so with session := some t }
    else some { so with
      session := some (tcpSegmentStart mem so { t with retry := 0, busy := true } false) }

/-- `socket_buffer_sendmsg` for `socket_send` on a stream socket.  `header` is
`sizeof(buffer_t)` when there is memory for the buffer.  `NS_MSG_LEGACY0` lets a
write of any size in once there is some space. -/
def socketSend (mem : Mem) (so : Socket) (header : Option Nat) (data : List UInt8) :
    Except SendError Socket :=
  if !(so.connected && !so.shutWr) then .error .notConnected
  else if data.length = 0 then .ok so
  else if so.sndq.space < data.length ∧ so.sndq.space < so.sndq.lowWaterMark then
    .error .wouldBlock
  else
    match header, so.session with
    | none, _ => .error .noMemory
    | some _, none => .error .noSession
    | some h, some t =>
        match tcpSessionSend mem so t (.get h data) with
        | none => .error .noSession
        | some so => .ok so

/-- `socket_recvmsg` into one block of `len` bytes; `none` is an empty queue. -/
def socketRecv (so : Socket) (len : Nat) : Option (List UInt8 × Socket) :=
  match so.rcvq.bufs with
  | [] => none
  | _ :: _ =>
      let (data, rcvq) := so.rcvq.copyToUser so.stream len
      let so := { so with rcvq := rcvq }
      -- tcp_session_data_received: the window offered may move
      let session := so.session.map fun t =>
        if data.length > 0 then tcpComputeWindowIncr so t else t
      some (data, { so with session := session })

/-- `socket_shutdown(SOCKET_SHUT_RDWR)`: whether it returned 0, and the socket. -/
def socketShutdown (mem : Mem) (so : Socket) : Bool × Socket :=
  if !so.stream || !so.connected then (false, so)
  else
    let so := { so with cantRecvMore := true, shutWr := true }
    let r := match so.session with
      | none => (so, true)
      | some t => tcpSessionClose mem so t
    let r' := match r.1.session with
      | none => (r.1, r.2)
      | some t =>
          let q := tcpSessionShutdownRead mem r.1 t
          (q.1, r.2 && q.2)
    (r'.2, { r'.1 with rcvq := r'.1.rcvq.flush })

end NsSocket
