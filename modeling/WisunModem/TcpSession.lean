import WisunModem.NsSocket
import WisunModem.SerialNumber

/-!
# A TCP session with its sequence numbers

`tcp.c` as it computes: sequence numbers of 32 bits that go round, lengths of
16 bits, the segments it sends and what it reads out of the segments it gets.
`NsSocket` keeps only differences of these numbers; here they are the subject.

The timers are left to the environment, which may let one run out at any time, and
so are the measurement of the round-trip time and the events for the application.
Memory can run out at every allocation.

The fields behind `closed` are history: what was received and sent, and no function
reads them.
-/

namespace TcpSession

open NsSocket

/-- A segment handed to IP by `tcp_build`, and the free space of the receive queue when
the window was last raised. -/
structure Sent where
  seqNo : SeqNum
  ackNo : SeqNum
  syn : Bool
  fin : Bool
  ack : Bool
  data : List UInt8
  window : Nat
  room : Nat
  deriving DecidableEq, Repr

/-- A packet of `tcp_build_reset_packet`. -/
structure Reset where
  seqNo : SeqNum
  ackNo : SeqNum
  ack : Bool
  deriving DecidableEq, Repr

/-- `tcp_session_t` with the queues and flags of its socket.  A session which is not
`alive` is freed. -/
structure Session where
  alive : Bool
  state : TcpState
  passiveOpen : Bool
  busy : Bool
  persist : Bool
  sentFin : Bool
  receiveNext : SeqNum
  receiveAdv : SeqNum
  sendNext : SeqNum
  sendUnacknowledged : SeqNum
  sendWindow : Nat
  sendWl1 : SeqNum
  sendWl2 : SeqNum
  retry : Nat
  sendMssEff : Nat
  rcvq : Sockbuf
  sndq : Sockbuf
  cantRecvMore : Bool
  closed : Bool
  /-- The free space of the receive queue when the window was last raised. -/
  room : Nat
  /-- The right edges of the windows offered since the peer's SYN. -/
  edges : List SeqNum
  /-- The bytes put into the receive queue, and whether a FIN was processed. -/
  taken : List UInt8
  finSeen : Bool
  /-- The bytes the application has sent. -/
  stream : List UInt8
  sent : List Sent
  /-- The number behind the highest one ever sent. -/
  highest : SeqNum
  resets : List Reset

/-- What a call finds outside: memory for an ACK, for a segment and for a RST, and
whether a listening socket has the port of the segment. -/
structure Env where
  ack : Bool
  segment : Bool
  reset : Bool
  listening : Bool

/-- Memory enough for everything, and nobody listens. -/
def Env.ample : Env := ⟨true, true, true, false⟩

/-! ## Sending segments -/

/-- The increment `tcp_compute_window_incr` returns, of 16 bits. -/
def windowIncr (s : Session) : Nat :=
  let window := min (max s.rcvq.space 0) 0xffff
  if window < (s.receiveAdv - s.receiveNext).toInt then 0
  else
    let incr := (s.receiveNext.plus window - s.receiveAdv).toNat % 2 ^ 16
    if incr < s.rcvq.dataByteLimit / 2 ∧ incr < s.sendMssEff then 0 else incr

/-- `tcp_compute_window_incr` -/
def tcpComputeWindowIncr (s : Session) : Session :=
  if windowIncr s = 0 then s
  else
    { s with
      receiveAdv := s.receiveAdv + BitVec.ofNat 32 (windowIncr s)
      room := s.rcvq.space.toNat }

/-- `options.code` of a buffer for `tcp_build`. -/
inductive Code
  | fromState
  | ackOnly
  | syn
  | synAck
  deriving DecidableEq, Repr

/-- The SYN flag of a segment. -/
def Code.hasSyn (state : TcpState) : Code → Bool
  | .fromState => state.hasSyn
  | .ackOnly => false
  | .syn | .synAck => true

/-- The FIN flag of a segment with `len` bytes: only behind everything queued. -/
def Code.hasFin (s : Session) (len : Nat) : Code → Bool
  | .fromState => s.state.hasFin && decide (s.sndq.dataBytes ≤ len)
  | _ => false

/-- The ACK flag: only the SYN of an active open has none. -/
def Code.hasAck (state : TcpState) : Code → Bool
  | .fromState => decide (state ≠ .synSent)
  | .syn => false
  | .ackOnly | .synAck => true

/-- `tcp_uack_segment` -/
def tcpUackSegment (s : Session) (syn fin : Bool) (len : Nat) : Session :=
  let size := (len + syn.toNat + fin.toNat) % 2 ^ 16
  let s := { s with sentFin := s.sentFin || fin }
  if size = 0 then s
  else
    { s with
      sendNext := s.sendNext + BitVec.ofNat 32 size
      busy := true
      highest := s.highest.furthest (s.sendNext + BitVec.ofNat 32 size) }

/-- `tcp_build` -/
def tcpBuild (s : Session) (code : Code) (data : List UInt8) : Session :=
  if data.length ≠ 0 ∧ s.sentFin = true then s
  else
    let syn := code.hasSyn s.state
    let fin := code.hasFin s data.length
    let s := tcpComputeWindowIncr s
    let seg : Sent :=
      { seqNo := s.sendNext
        ackNo := s.receiveNext
        syn := syn
        fin := fin
        ack := code.hasAck s.state
        data := data
        window := (s.receiveAdv - s.receiveNext).toNat % 2 ^ 16
        room := s.room }
    let s := tcpUackSegment s syn fin data.length
    { s with
      sent := s.sent ++ [seg]
      edges := s.edges ++ [s.receiveNext + BitVec.ofNat 32 seg.window] }

/-- `tcp_ack_buffer` for `newAck` new bytes, and `tcp_build` of it. -/
def tcpAckBuffer (env : Env) (s : Session) (newAck : Nat) (code : Code) : Session :=
  if env.ack then
    tcpBuild { s with receiveNext := s.receiveNext + BitVec.ofNat 32 newAck } code []
  else s

/-- `tcp_session_data_received` -/
def tcpSessionDataReceived (env : Env) (s : Session) : Session :=
  if windowIncr s ≠ 0 then tcpAckBuffer env (tcpComputeWindowIncr s) 0 .ackOnly else s

/-- The bytes from the front of the queue which `tcp_segment_start` may send. -/
def sendable (s : Session) (buf : Buffer) : Nat := min (min buf.length s.sendMssEff) s.sendWindow

/-- The end of `tcp_segment_start`: a buffer for the data, where there is memory. -/
def buildSegment (env : Env) (s : Session) (data : List UInt8) : Session :=
  if env.segment then tcpBuild s .fromState data else s

/-- `tcp_segment_start` -/
def tcpSegmentStart (env : Env) (s : Session) (timeout : Bool) : Session :=
  let s := if timeout then { s with sendNext := s.sendUnacknowledged, sentFin := false } else s
  match s.sndq.bufs with
  | [] =>
      if s.state.hasSyn || (s.state.hasFin && !s.sentFin) then
        buildSegment env { s with persist := false } []
      else s
  | buf :: _ =>
      if sendable s buf = 0 then
        if timeout then buildSegment env s (buf.data.take 1)
        else { s with persist := true, retry := 0 }
      else buildSegment env { s with persist := false } (buf.data.take (sendable s buf))

/-! ## The end of a session -/

/-- `tcp_session_delete_with_error`: the socket flushes what was to be sent. -/
def tcpSessionDelete (s : Session) : Session :=
  { s with alive := false, sndq := s.sndq.flush, cantRecvMore := true }

/-- A RST goes out, where there is memory. -/
def sendReset (env : Env) (s : Session) (rst : Reset) : Session :=
  if env.reset then { s with resets := s.resets ++ [rst] } else s

/-- `tcp_resend_segment` -/
def tcpResendSegment (env : Env) (s : Session) : Session :=
  if s.retry ≥ retryLimit s.state then tcpSessionDelete s
  else tcpSegmentStart env { s with retry := s.retry + 1 } true

/-- `tcp_ack_segment` -/
def tcpAckSegment (env : Env) (s : Session) (ack : SeqNum) : Session :=
  let acked := min (ack - s.sendUnacknowledged).toNat s.sndq.dataBytes
  let s := { s with sndq := s.sndq.drop acked, sendUnacknowledged := ack }
  if ack = s.sendNext then
    let s := { s with retry := 0 }
    if s.sndq.dataBytes ≠ 0 ∨ (s.state.hasFin = true ∧ s.sentFin = false) then
      tcpSegmentStart env s false
    else { s with busy := false }
  else s

/-! ## Calls of the application -/

/-- `tcp_session_send` -/
def tcpSessionSend (env : Env) (s : Session) (buf : Buffer) : Session :=
  if s.state ≠ .established ∧ s.state ≠ .closeWait then s
  else
    let s :=
      { s with sndq := s.sndq.appendAndCompress buf, stream := s.stream ++ buf.data }
    if s.busy then s
    else tcpSegmentStart env { s with retry := 0, busy := true } false

/-- `tcp_session_close` -/
def tcpSessionClose (env : Env) (s : Session) : Session :=
  match s.state with
  | .closed | .lastAck | .finWait1 | .finWait2 | .closing | .timeWait => s
  | .listen | .synSent => tcpSessionDelete s
  | .synReceived | .established | .closeWait =>
      let s := { s with state := if s.state = .closeWait then .lastAck else .finWait1 }
      if s.busy then s else tcpSegmentStart env { s with busy := true } false

/-- `tcp_session_abort` -/
def tcpSessionAbort (env : Env) (s : Session) : Session :=
  match s.state with
  | .closed => s
  | .synReceived | .established | .finWait1 | .finWait2 | .closeWait =>
      tcpSessionDelete (sendReset env s ⟨s.sendNext, 0, false⟩)
  | .listen | .synSent | .lastAck | .closing | .timeWait => tcpSessionDelete s

/-- `tcp_session_shutdown_read`, and the flush of the receive queue behind it. -/
def tcpSessionShutdownRead (env : Env) (s : Session) : Session :=
  let s := { s with cantRecvMore := true }
  let s := if s.rcvq.dataBytes ≠ 0 then tcpSessionAbort env s else s
  { s with rcvq := s.rcvq.flush }

/-- `socket_recv` of `len` bytes.  The stack is told of what was read. -/
def socketRecv (env : Env) (s : Session) (len : Nat) : Session :=
  let r := s.rcvq.copyToUser true len
  let s := { s with rcvq := r.2 }
  if r.1.length > 0 then tcpSessionDataReceived env s else s

/-! ## Receiving segments -/

/-- What `tcp_up` has read out of a segment.  `segLen` counts the data, the SYN and the
FIN. -/
structure Segment where
  seqNo : SeqNum
  ackNo : SeqNum
  rst : Bool
  syn : Bool
  fin : Bool
  ack : Bool
  psh : Bool
  window : Nat
  mss : Nat
  malformed : Bool
  segLen : Nat
  buf : Buffer

variable (sn : SerialOrder)

/-- `tcp_reset_response` with no session, or the session deleted as well. -/
def resetResponse (env : Env) (s : Session) (seg : Segment) : Session :=
  sendReset env s
    (if seg.ack then ⟨seg.ackNo, 0, false⟩
    else ⟨0, seg.seqNo + BitVec.ofNat 32 seg.segLen, true⟩)

/-- A FIN is processed. -/
def tcpFin (s : Session) : Session :=
  match s.state with
  | .synReceived | .established =>
      { s with state := .closeWait, cantRecvMore := true, finSeen := true }
  | .finWait1 =>
      { s with
        state := if s.sendUnacknowledged = s.sendNext then .timeWait else .closing
        cantRecvMore := true
        finSeen := true }
  | .finWait2 => { s with state := .timeWait, cantRecvMore := true, finSeen := true }
  | _ => s

/-- `tcp_up` from `syn_sent_to_established` on, for a segment in order. -/
def tcpTake (env : Env) (s : Session) (seg : Segment) : Session :=
  let s := if seg.fin then tcpFin s else s
  if seg.segLen > 0 then tcpAckBuffer env s seg.segLen .ackOnly else s

/-- Data is put into the receive queue. -/
def enqueue (s : Session) (buf : Buffer) : Session :=
  { s with
    rcvq := s.rcvq.appendAndCompress buf
    taken := s.taken ++ buf.data }

/-- `tcp_up` from `syn_sent_to_established` on. -/
def tcpText (env : Env) (s : Session) (seg : Segment) : Session :=
  if seg.segLen > 0 ∧ seg.seqNo ≠ s.receiveNext then tcpAckBuffer env s 0 .ackOnly
  else if seg.buf.length ≠ 0 ∧ s.state.takesData = true then
    if s.cantRecvMore then tcpSessionDelete (resetResponse env s { seg with ack := true })
    else tcpTake env (enqueue s seg.buf) seg
  else tcpTake env s seg

/-- The window of the peer, unless the segment is older than what is known of it. -/
def noteWindow (s : Session) (seg : Segment) : Session :=
  if sn.greater seg.seqNo s.sendWl1 ∨ seg.seqNo = s.sendWl1 ∧
      (seg.ackNo = s.sendWl2 ∨ sn.greater seg.ackNo s.sendWl2 = true) then
    { s with
      sendWl1 := seg.seqNo
      sendWl2 := seg.ackNo
      sendWindow := seg.window
      persist := s.persist || decide (seg.window = 0 ∧ seg.ackNo ≠ s.sendNext) }
  else s

/-- The acknowledgement of a segment, when it lies within what is sent. -/
def tcpAcked (env : Env) (s : Session) (seg : Segment) : Session :=
  let s := noteWindow sn s seg
  if seg.ackNo ≠ s.sendUnacknowledged then tcpAckSegment env s seg.ackNo
  else if s.persist then
    if seg.window ≠ 0 then tcpResendSegment env { s with retry := 0, persist := false }
    else { s with retry := 0 }
  else s

/-- What an acknowledgement does to a closing session. -/
def tcpFinAcked (s : Session) : Session :=
  if s.sentFin = true ∧ s.sendUnacknowledged = s.sendNext then
    match s.state with
    | .finWait1 => { s with state := .finWait2 }
    | .closing => { s with state := .timeWait }
    | .lastAck => tcpSessionDelete s
    | _ => s
  else s

/-- `tcp_session_established`, and what the segment says of the peer's window. -/
def tcpSessionEstablished (s : Session) (seg : Segment) : Session :=
  { s with
    state := .established
    sendWl1 := seg.seqNo
    sendWl2 := seg.ackNo
    sendWindow := seg.window }

/-- `tcp_up` from the check of the acknowledgement number on. -/
def tcpUpAck (env : Env) (s : Session) (seg : Segment) : Session :=
  if sn.greater s.sendUnacknowledged seg.ackNo then tcpText env s seg
  else if sn.greater seg.ackNo s.sendNext then tcpAckBuffer env s 0 .ackOnly
  else
    let s := tcpAcked sn env s seg
    if !s.alive then s
    else
      let s := tcpFinAcked s
      if !s.alive then s else tcpText env s seg

/-- `tcp_up` once the segment is trimmed to the window. -/
def tcpUpInWindow (env : Env) (s : Session) (seg : Segment) : Session :=
  if seg.rst then
    match s.state with
    | .synReceived | .established | .finWait1 | .finWait2 | .closeWait | .closing | .lastAck =>
        tcpSessionDelete s
    | _ => s
  else if seg.syn then
    if s.state = .synReceived ∧ s.passiveOpen = true then tcpSessionDelete s
    else tcpSessionDelete (resetResponse env s seg)
  else if !seg.ack then s
  else if s.state = .synReceived then
    if seg.ackNo = s.sendNext then tcpUpAck sn env (tcpSessionEstablished s seg) seg
    else resetResponse env s seg
  else tcpUpAck sn env s seg

/-- The window in which data is accepted: what is offered, or what there is room for. -/
def receiveWindow (s : Session) : Int :=
  max (max s.rcvq.space 0) (s.receiveAdv - s.receiveNext).toInt

/-- The check of a segment against the window. -/
def seqOk (s : Session) (seg : Segment) : Bool :=
  let last := s.receiveNext.plus (receiveWindow s - 1)
  if receiveWindow s = 0 then decide (seg.segLen = 0 ∧ seg.seqNo = s.receiveNext)
  else
    SeqNum.inRange s.receiveNext seg.seqNo last ||
      decide (seg.segLen > 0) &&
        SeqNum.inRange s.receiveNext (seg.seqNo.plus (seg.segLen - 1)) last

/-- Data preceding the window is stripped, and a SYN before it. -/
def stripPreceding (s : Session) (seg : Segment) : Segment :=
  if sn.greater s.receiveNext seg.seqNo then
    let excess := (s.receiveNext - seg.seqNo).toNat % 2 ^ 16
    let syn := seg.syn.toNat
    { seg with
      syn := false
      segLen := seg.segLen - syn - (excess - syn)
      seqNo := seg.seqNo + BitVec.ofNat 32 syn + BitVec.ofNat 32 (excess - syn)
      buf := seg.buf.stripHeader (excess - syn) }
  else seg

/-- Data following the window is stripped, and a FIN behind it. -/
def stripFollowing (s : Session) (seg : Segment) : Segment :=
  let after := seg.seqNo + BitVec.ofNat 32 seg.buf.length
  let edge := s.receiveNext.plus (receiveWindow s)
  if sn.greater after edge then
    let excess := (after - edge).toNat % 2 ^ 16
    { seg with
      fin := false
      segLen := seg.segLen - seg.fin.toNat - excess
      buf := seg.buf.truncate (seg.buf.length - excess) }
  else seg

/-- The segment as the window checks leave it. -/
def trim (s : Session) (seg : Segment) : Segment :=
  stripFollowing sn s (stripPreceding sn s seg)

/-- The window checks of `tcp_up`. -/
def tcpUpWindow (env : Env) (s : Session) (seg : Segment) : Session :=
  if !seqOk s seg then tcpAckBuffer env s 0 .ackOnly
  else tcpUpInWindow sn env s (trim sn s seg)

/-- The peer's SYN is read: its number, and its MSS. -/
def readSyn (s : Session) (seg : Segment) : Session :=
  { s with
    receiveNext := seg.seqNo
    receiveAdv := seg.seqNo
    sendMssEff := tcpRethinkMss seg.mss
    edges := [] }

/-- `tcp_up` in `TCP_STATE_SYN_SENT`. -/
def tcpUpSynSent (env : Env) (s : Session) (seg : Segment) : Session :=
  if seg.ack = true ∧ seg.ackNo ≠ s.sendNext then
    if seg.rst then s else resetResponse env s seg
  else if seg.rst then
    if seg.ack then tcpSessionDelete s else s
  else if seg.syn then
    let s := readSyn s seg
    if seg.ack then
      tcpText env (tcpSessionEstablished (tcpAckSegment env s seg.ackNo) seg) seg
    else tcpAckBuffer env { s with state := .synReceived } 1 .synAck
  else tcpUpWindow sn env s seg

/-- `tcp_up` for a segment of the session.  A bare SYN in `TCP_STATE_TIME_WAIT` goes to
a listening socket, whose new connection takes the place of this one. -/
def tcpUp (env : Env) (s : Session) (seg : Segment) : Session :=
  if s.state = .closed ∨ seg.malformed = true then
    if seg.rst then s else tcpSessionDelete (resetResponse env s seg)
  else if s.state = .synSent then tcpUpSynSent sn env s seg
  else if s.state = .timeWait ∧ seg.syn = true ∧ seg.fin = false ∧ seg.ack = false ∧
      seg.rst = false then
    if seg.seqNo = s.receiveNext ∨ sn.greater seg.seqNo s.receiveNext = true then
      if env.listening then tcpSessionDelete s else resetResponse env s seg
    else s
  else tcpUpWindow sn env s seg

/-- `tcp_handle_time_event` when the timer of the session has run out. -/
def tcpHandleTimeEvent (env : Env) (s : Session) : Session :=
  match s.state with
  | .closed => s
  | .timeWait => tcpSessionDelete s
  | _ =>
      if s.busy then tcpResendSegment env s
      else if s.state = .finWait2 ∧ s.closed = true then { s with state := .timeWait }
      else s

end TcpSession
