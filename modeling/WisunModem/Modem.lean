import WisunModem.NsSocket
import WisunModem.Unsolicited

/-!
# The modem

`application.c` as one machine.  Its main thread runs the main loop, and in it
the AT parser calls the handlers of the connection commands; the stack's thread
delivers socket events to `socket_callback` and works on the socket behind the
application's back.  A step of the main thread is one access to a flag the
callback also uses, or one call into the stack; a callback is one step.

What is not under the repository's control is an argument of the action: what
the host sends, when memory runs out, what the network does, and the sockets of
other owners (the CoAP service and the stack itself), of which only the ids
matter.  An event of a socket the application has closed is skipped when it is
delivered, so closing a socket forgets its events.

`trace` and `Mark` are history: they record what happened and no step reads
them.
-/

namespace Modem

open NsSocket Unsolicited

def netBufSize : Nat := 1220

def socketsMax : Nat := 16

/-- The globals of `application.c` the connection commands use. -/
structure App where
  connectedFlg : Bool
  ipConnectedFlg : Bool
  tcpConnectProblem : Bool
  txPendingFlg : Bool
  disconnectTriggered : Bool
  sendFailTriggered : Bool
  ipdDataLengthCallback : Nat
  ipdDataLength : Nat
  recvDataLength : Nat
  bytesToSend : Nat
  bytesRead : Nat
  isTcp : Bool
  socketId : Int
  deriving DecidableEq, Repr

def App.init : App where
  connectedFlg := false
  ipConnectedFlg := false
  tcpConnectProblem := false
  txPendingFlg := false
  disconnectTriggered := false
  sendFailTriggered := false
  ipdDataLengthCallback := 0
  ipdDataLength := 0
  recvDataLength := 0
  bytesToSend := 0
  bytesRead := 0
  isTcp := false
  socketId := -1

/-- A `SOCKET_DATA` event the callback takes for received data. -/
def acceptsData (dLen : Nat) : Bool := decide (0 < dLen ∧ dLen ≤ netBufSize)

/-- `socket_callback` -/
def socketCallback (app : App) (event : SocketEvent) (dLen : Nat) : App :=
  match event with
  | .data =>
      if acceptsData dLen then { app with ipdDataLengthCallback := dLen }
      else
        { app with
          ipConnectedFlg := false
          txPendingFlg := false
          disconnectTriggered := true }
  | .connectDone => { app with ipConnectedFlg := true, txPendingFlg := false }
  | .connectFail => { app with tcpConnectProblem := true }
  | .connectAuthFail => app
  | .incomingConnection => app
  | .txFail => { app with txPendingFlg := false, sendFailTriggered := true }
  | .connectClosed => { app with ipConnectedFlg := false, txPendingFlg := false }
  | .connectionReset => { app with ipConnectedFlg := false, txPendingFlg := false }
  | .noRoute => { app with tcpConnectProblem := true }
  | .txDone => { app with txPendingFlg := false }
  | .noRam => app
  | .connectionProblem => { app with tcpConnectProblem := true, ipConnectedFlg := false }

/-- The commands whose handlers use the connection.  The protocol of a
`+CIPSTART` is TCP, UDP or something else. -/
inductive AtCmd
  | cipstart (tcp : Option Bool)
  | cipclose
  | cipsend (bytesToSend : Nat)
  | ciprecvdata (length : Nat)
  deriving DecidableEq, Repr

/-- The command state machine: parsing and answering, or in the loop that calls
the handler until it returns something else than `CAT_RETURN_STATE_DATA_NEXT`. -/
inductive CmdState
  | parsing
  | loop (cmd : AtCmd)
  deriving DecidableEq, Repr

/-- Where the main thread is. -/
inductive Pc
  | top
  | testDisconnect
  | clearDisconnect
  | testSendFail
  | clearSendFail
  | unsolicited
  | command
  | startMesh (tcp : Option Bool)
  | startConn (tcp : Option Bool)
  | startClear
  | startClose
  | startOpen
  | startConnect
  | startUdp (bound : Bool)
  | startWait
  | startFail
  | closeShutdown
  | closeWait
  | closeReset
  | closeFlag
  | closeSocket
  | sendMesh
  | sendConn
  | sendRead
  | sendWait (data : List UInt8)
  | sendCheck (data : List UInt8)
  | sendFlag (data : List UInt8)
  | sendCall (data : List UInt8)
  | sendDatagram (data : List UInt8)
  | recvCall
  deriving DecidableEq, Repr

/-- What a `socket_close` call found under the id it was given. -/
inductive Target
  | own
  | other
  | nothing
  deriving DecidableEq, Repr

/-- What happened. -/
inductive Note
  /-- A handler ended, with the final answer and the flag as it was then. -/
  | answered (cmd : AtCmd) (ok : Bool) (ipConnectedFlg : Bool)
  | prompt
  /-- Payload taken from the host, and payload put on the send queue. -/
  | payload (bytes : List UInt8)
  | queued (bytes : List UInt8)
  | received (bytes : List UInt8)
  /-- The callback took a `SOCKET_DATA` event for the end of the stream; whether
  the peer had closed it. -/
  | dataEnd (finSeen : Bool)
  /-- The callback cleared `ipConnectedFlg`; whether `+CIPCLOSE` was running, and
  whether the event was `SOCKET_DATA`. -/
  | lost (closing byData : Bool)
  /-- The main loop triggered a command; whether the ring took it. -/
  | triggered (cmd : Cmd) (taken : Bool)
  /-- A line was written; the connection its number came from. -/
  | line (line : Line) (conn : Nat)
  /-- `socket_open` succeeded; `socket_close` was called. -/
  | opened
  | closeCall (id : Int) (target : Target)
  /-- `+CIPSTART` came past its checks and answers ERROR; the flag as it is then. -/
  | failed (ipConnectedFlg : Bool)
  /-- `+CIPCLOSE` has ended; the connections opened so far. -/
  | closed (conn : Nat)
  deriving DecidableEq, Repr

/-- Which connection the pending lengths belong to.  Connections are counted. -/
structure Mark where
  conn : Nat
  callback : Nat
  ipd : Nat
  line : Nat
  deriving DecidableEq, Repr

structure State where
  app : App
  fsm : Fsm
  cmd : CmdState
  pc : Pc
  /-- The socket opened by the last `+CIPSTART` and still attached. -/
  sock : Option Socket
  /-- The ids of sockets of other owners. -/
  others : List Nat
  lastAllocated : Nat
  mark : Mark
  trace : List Note

def State.init : State where
  app := .init
  fsm := .init
  cmd := .parsing
  pc := .top
  sock := none
  others := []
  lastAllocated := socketsMax - 1
  mark := ⟨0, 0, 0, 0⟩
  trace := []

/-- What the main thread finds outside at a step; each step reads its own part. -/
structure Input where
  /-- A command line accepted by the parser. -/
  parsed : Option AtCmd
  /-- The output is free, and line ends are `\r\n`. -/
  free : Bool
  cr : Bool
  /-- Characters read from the host. -/
  chars : List UInt8
  /-- A call succeeds as far as it is not decided by the state. -/
  ready : Bool
  /-- `sizeof(buffer_t)` where there is memory for a buffer. -/
  header : Option Nat
  mem : Mem
  /-- A wait has lasted as long as it may. -/
  timeout : Bool

/-- Nothing comes from outside and nothing fails. -/
def Input.idle : Input where
  parsed := none
  free := true
  cr := true
  chars := []
  ready := true
  header := some 64
  mem := .ample
  timeout := false

inductive Act
  | main (i : Input)
  /-- The mesh comes up or goes down (`nanostackNetworkHandler`). -/
  | mesh (up : Bool)
  /-- The oldest event of the socket is delivered. -/
  | deliver
  | segment (mem : Mem) (seg : Segment)
  | timer (mem : Mem)
  | datagram (mem : Mem) (limited : Bool) (buf : Buffer)
  /-- The core reports the fate of a buffer which carries the socket. -/
  | txBuffer (mem : Mem) (event : SocketEvent) (length : Nat)
  | otherOpen
  | otherClose (id : Nat)

/-! ## Socket ids -/

/-- The id is in use. -/
def State.taken (s : State) (id : Nat) : Bool :=
  s.others.contains id || (s.sock.map Socket.id == some id)

/-- `socket_id_assign_and_attach`: the first free id after the last one given. -/
def State.freeId (s : State) : Option Nat :=
  ((List.range socketsMax).map fun i => (s.lastAllocated + 1 + i) % socketsMax).find?
    fun id => !s.taken id

/-- The socket of the application, when the id is its own (`socket_pointer_get`). -/
def State.own (s : State) (id : Int) : Option Socket :=
  s.sock.filter fun so => decide ((so.id : Int) = id)

/-- What `socket_pointer_get` finds. -/
def State.target (s : State) (id : Int) : Target :=
  if (s.own id).isSome then .own
  else if 0 ≤ id ∧ s.others.contains id.toNat = true then .other
  else .nothing

/-! ## Bookkeeping -/

@[simps] def State.goto (s : State) (pc : Pc) : State := { s with pc := pc }

@[simps] def State.note (s : State) (n : Note) : State := { s with trace := s.trace ++ [n] }

/-- The note of an answer to the command in progress. -/
def CmdState.answered (ok flag : Bool) : CmdState → List Note
  | .parsing => []
  | .loop c => [.answered c ok flag]

/-- The command in progress ends with an answer. -/
@[simps] def State.answer (s : State) (ok : Bool) : State :=
  { s with
    cmd := .parsing
    pc := .top
    trace := s.trace ++ s.cmd.answered ok s.app.ipConnectedFlg }

/-- `cat_trigger_unsolicited_read` from the main loop, its result unused. -/
@[simps] def State.trigger (s : State) (cmd : Cmd) : State :=
  { s with
    fsm := pushUnsolicitedCmd s.fsm cmd
    trace := s.trace ++ [.triggered cmd !(isUnsolicitedBufferFull s.fsm)] }

/-- `socket_close`.  A socket of another owner is closed as readily as the own
one; `target` tells which it was. -/
@[simps] def State.socketClose (s : State) (id : Int) : State :=
  { s with
    sock := if s.target id = .own then none else s.sock
    others := if s.target id = .other then s.others.erase id.toNat else s.others
    trace := s.trace ++ [.closeCall id (s.target id)] }

/-- The main thread is in `cipclose_run`. -/
def Pc.closing : Pc → Bool
  | .closeShutdown | .closeWait | .closeReset | .closeFlag | .closeSocket => true
  | _ => false

/-! ## The main loop -/

/-- The part of the main loop that takes a length over from the callback. -/
def takeIpd (s : State) : State :=
  if s.app.ipdDataLength ≠ 0 then s
  else
    let length := s.app.ipdDataLengthCallback
    let s :=
      { s with
        app := { s.app with ipdDataLength := length, ipdDataLengthCallback := 0 }
        mark := { s.mark with ipd := s.mark.callback } }
    if length > 0 then s.trigger .ipd else s

/-- A line with its connection. -/
def noteLine (s : State) : Option Line → State
  | none => s
  | some line => s.note (.line line s.mark.line)

/-- The first half of `cat_service`. -/
def serve (s : State) (free cr : Bool) : State :=
  let r := unsolicitedEventsService s.fsm s.app.ipdDataLength free cr
  let line := if s.fsm.state = .formatReadArgs then s.mark.ipd else s.mark.line
  noteLine
    { s with
      fsm := r.fsm
      app := { s.app with ipdDataLength := r.ipd }
      mark := { s.mark with line := line } } r.line

/-- The variables a command line sets when its arguments are parsed. -/
def parseWriteArgs (app : App) : AtCmd → App
  | .cipsend n => { app with bytesToSend := n % 2 ^ 16 }
  | .ciprecvdata n => { app with recvDataLength := n % 2 ^ 16 }
  | _ => app

/-- Where the handler of a command begins.  `cipclose_run` shuts down TCP
connections only. -/
def handler (app : App) : AtCmd → Pc
  | .cipstart tcp => .startMesh tcp
  | .cipclose => if app.isTcp then .closeShutdown else .closeReset
  | .cipsend _ => .sendMesh
  | .ciprecvdata _ => .recvCall

/-- The second half of `cat_service`: the parser reads on, or the handler of the
command is called. -/
def command (s : State) (parsed : Option AtCmd) : State :=
  match s.cmd, parsed with
  | .parsing, none => s.goto .top
  | .parsing, some c =>
      { s with app := parseWriteArgs s.app c, cmd := .loop c, pc := .top }
  | .loop c, _ => s.goto (handler s.app c)

/-! ## The handlers -/

/-- The checks of `cipstart_write` once the mesh is up. -/
def startConn (s : State) (tcp : Option Bool) : State :=
  if s.app.ipConnectedFlg then s.answer false
  else
    match tcp with
    | none => s.answer false
    | some tcp => { s with app := { s.app with isTcp := tcp }, pc := .startClear }

/-- `socket_open` with the buffer sizes set, or its error. -/
def startOpen (s : State) (ready : Bool) : State :=
  match s.freeId, ready with
  | some id, true =>
      { s with
        app := { s.app with socketId := id }
        sock := some (socketOpen id s.app.isTcp netBufSize)
        lastAllocated := id
        mark := { s.mark with conn := s.mark.conn + 1 }
        pc := .startConnect
        trace := s.trace ++ [.opened] }
  | _, _ =>
      (({ s with app := { s.app with socketId := -1 } } : State).note
        (.failed s.app.ipConnectedFlg)).answer false

/-- `socket_connect` or `socket_bind` on the socket just opened. -/
def startConnect (s : State) (ready : Bool) (mem : Mem) : State :=
  if s.app.isTcp then
    match s.own s.app.socketId with
    | none => s.goto .startFail
    | some so =>
        let r := socketConnect mem so ready
        { s with sock := some r.1, pc := if r.2 then .startWait else .startFail }
  else s.goto (.startUdp ready)

/-- The wait of `cipstart_write`, and what it returns. -/
def startWait (s : State) (timeout : Bool) : Option State :=
  if s.app.ipConnectedFlg || s.app.tcpConnectProblem then
    some (if s.app.ipConnectedFlg && !s.app.tcpConnectProblem then s.answer true
      else s.goto .startFail)
  else if timeout then some (s.goto .startFail)
  else none

/-- `socket_shutdown` in `cipclose_run`: wait for the end of the connection if it
returned 0. -/
def closeShutdown (s : State) (mem : Mem) (ready : Bool) : State :=
  match s.own s.app.socketId with
  | some so =>
      let r := socketShutdown mem so
      { s with sock := some r.2, pc := if r.1 then .closeWait else .closeReset }
  | none =>
      s.goto (if s.target s.app.socketId = .other ∧ ready = true then .closeWait
        else .closeReset)

/-- The end of `cipclose_run`. -/
def closeSocket (s : State) : State :=
  let s := s.socketClose s.app.socketId
  ({ s with
    app := { s.app with socketId := -1 }
    trace := s.trace ++ [.closed s.mark.conn] } : State).answer true

/-- The size of the next chunk. -/
def minSize (app : App) : Nat := min app.bytesToSend netBufSize

/-- `cipsend_write` behind a successful send: the next chunk, or the end. -/
def sendDone (s : State) : State :=
  let left := s.app.bytesToSend - minSize s.app
  let read := (s.app.bytesRead + minSize s.app) % 2 ^ 16
  if left > 0 then
    { s with app := { s.app with bytesToSend := left, bytesRead := read }, pc := .top }
  else ({ s with app := { s.app with bytesToSend := left, bytesRead := 0 } } : State).answer true

/-- `cipsend_write` behind a failed send.  The flag is given back in the step of
the call; nothing else waits for it. -/
def sendFailed (s : State) : State :=
  ({ s with app := { s.app with txPendingFlg := false } } : State).answer false

/-- `socket_sendto` of a chunk; an own datagram is on its way then. -/
def sendDatagram (s : State) (ready : Bool) : State :=
  match s.own s.app.socketId with
  | some so =>
      if ready then sendDone { s with sock := some { so with carried := so.carried + 1 } }
      else sendFailed s
  | none =>
      if s.target s.app.socketId = .other ∧ ready = true then sendDone s else sendFailed s

/-- `socket_send` of a chunk. -/
def sendCall (s : State) (data : List UInt8) (i : Input) : State :=
  match s.own s.app.socketId with
  | some so =>
      match socketSend i.mem so i.header data with
      | .ok so => sendDone ({ s with sock := some so }.note (.queued data))
      | .error _ => sendFailed s
  | none =>
      if s.target s.app.socketId = .other ∧ i.ready = true then sendDone s else sendFailed s

/-- `ciprecvdata_write`; a socket of another owner may give anything. -/
def recvCall (s : State) (i : Input) : State :=
  if s.fsm.state ≠ .idle then s.goto .top
  else if s.app.recvDataLength = 0 then s.answer false
  else
    match s.own s.app.socketId with
    | some so =>
        match socketRecv so (min s.app.recvDataLength netBufSize) with
        | some (data, so) =>
            let s := { s with sock := some so }
            if data.length > 0 then (s.note (.received data)).answer true else s.answer false
        | none => s.answer false
    | none => s.answer (decide (s.target s.app.socketId = .other) && i.ready)

/-- The main thread goes on. -/
def mainStep (s : State) (i : Input) : Option State :=
  match s.pc with
  | .top => some ((takeIpd s).goto .testDisconnect)
  | .testDisconnect =>
      some (s.goto (if s.app.disconnectTriggered then .clearDisconnect else .testSendFail))
  | .clearDisconnect =>
      some (({ s with app := { s.app with disconnectTriggered := false } }.trigger
        .closed).goto .testSendFail)
  | .testSendFail =>
      some (s.goto (if s.app.sendFailTriggered then .clearSendFail else .unsolicited))
  | .clearSendFail =>
      some (({ s with app := { s.app with sendFailTriggered := false } }.trigger
        .sendFail).goto .unsolicited)
  | .unsolicited => some ((serve s i.free i.cr).goto .command)
  | .command => some (command s i.parsed)
  | .startMesh tcp =>
      some (if s.app.connectedFlg then s.goto (.startConn tcp) else s.answer false)
  | .startConn tcp => some (startConn s tcp)
  | .startClear =>
      some { s with app := { s.app with tcpConnectProblem := false }, pc := .startClose }
  | .startClose =>
      some ((if s.app.socketId ≥ 0 then s.socketClose s.app.socketId else s).goto .startOpen)
  | .startOpen => some (startOpen s i.ready)
  | .startConnect => some (startConnect s i.ready i.mem)
  | .startUdp bound =>
      some { s with
        app := { s.app with ipConnectedFlg := true }
        pc := if bound then .startWait else .startFail }
  | .startWait => startWait s i.timeout
  | .startFail =>
      some (((s.socketClose s.app.socketId).note (.failed s.app.ipConnectedFlg)).answer
        false)
  | .closeShutdown => some (closeShutdown s i.mem i.ready)
  | .closeWait =>
      if !s.app.ipConnectedFlg || i.timeout then some (s.goto .closeReset) else none
  | .closeReset =>
      some { s with
        app := { s.app with ipdDataLength := 0, recvDataLength := 0, txPendingFlg := false }
        pc := .closeFlag }
  | .closeFlag =>
      some { s with app := { s.app with ipConnectedFlg := false }, pc := .closeSocket }
  | .closeSocket => some (closeSocket s)
  | .sendMesh =>
      some (if !s.app.connectedFlg then s.answer false
        else if s.fsm.state ≠ .idle then s.goto .top
        else s.goto .sendConn)
  | .sendConn =>
      some (if !s.app.ipConnectedFlg then s.answer false
        else (if s.app.bytesRead = 0 then s.note .prompt else s).goto .sendRead)
  | .sendRead =>
      if i.chars.length ≠ minSize s.app then none
      else
        some ((s.note (.payload i.chars)).goto
          (if s.app.isTcp then .sendWait i.chars else .sendDatagram i.chars))
  | .sendWait data => if s.app.txPendingFlg then none else some (s.goto (.sendCheck data))
  | .sendCheck data =>
      some (if s.app.ipConnectedFlg then s.goto (.sendFlag data) else s.answer false)
  | .sendFlag data =>
      some { s with app := { s.app with txPendingFlg := true }, pc := .sendCall data }
  | .sendCall data => some (sendCall s data i)
  | .sendDatagram _ => some (sendDatagram s i.ready)
  | .recvCall => some (recvCall s i)

/-! ## The stack's thread -/

/-- The event type and the length a callback is given. -/
def delivered (so : Socket) : SocketMsg → SocketEvent × Nat
  | .event type length => (type, length)
  | .dataQueued => (.data, so.rcvq.dataBytes % 2 ^ 16)

/-- What there is to note about a callback. -/
def callbackNotes (s : State) (so : Socket) (event : SocketEvent) (dLen : Nat) : List Note :=
  (if event = .data ∧ acceptsData dLen = false then [.dataEnd so.finSeen] else []) ++
    if s.app.ipConnectedFlg && !(socketCallback s.app event dLen).ipConnectedFlg then
      [.lost s.pc.closing (decide (event = .data))]
    else []

/-- The socket event handler for one message, with the callback it makes. -/
@[simps] def deliverMsg (s : State) (so : Socket) (msg : SocketMsg) (rest : List SocketMsg) :
    State :=
  { s with
    app := socketCallback s.app (delivered so msg).1 (delivered so msg).2
    sock := some { so with events := rest }
    mark := if (delivered so msg).1 = .data ∧ acceptsData (delivered so msg).2 = true then
      { s.mark with callback := s.mark.conn } else s.mark
    trace := s.trace ++ callbackNotes s so (delivered so msg).1 (delivered so msg).2 }

/-- The oldest event of the socket is delivered. -/
def deliver (s : State) : Option State :=
  match s.sock with
  | none => none
  | some so =>
      match so.events with
      | [] => none
      | msg :: rest => some (deliverMsg s so msg rest)

/-- Something happens to the TCP session of the socket. -/
def onSession (s : State) (f : Socket → Tcp → Socket) : Option State :=
  match s.sock with
  | none => none
  | some so =>
      match so.session with
      | none => none
      | some t => some { s with sock := some (f so t) }

def step (s : State) : Act → Option State
  | .main i => mainStep s i
  | .mesh up => some { s with app := { s.app with connectedFlg := up } }
  | .deliver => deliver s
  | .segment mem seg => onSession s fun so t => tcpUp mem so t seg
  | .timer mem => onSession s fun so t => tcpHandleTimeEvent mem so t
  | .datagram mem limited buf =>
      match s.sock with
      | none => none
      | some so =>
          if so.stream then none else some { s with sock := some (socketUp mem so limited buf) }
  | .txBuffer mem event length =>
      match s.sock with
      | none => none
      | some so =>
          if event.ofBuffer && decide (0 < so.carried) then
            some { s with sock := some (socketTxBufferEvent mem so event length) }
          else none
  | .otherOpen =>
      match s.freeId with
      | none => none
      | some id => some { s with others := id :: s.others, lastAllocated := id }
  | .otherClose id =>
      if s.others.contains id then some { s with others := s.others.erase id } else none

/-! ## Command lines -/

/-- One turn of the main loop, in which a command line may arrive. -/
def turn (parsed : Option AtCmd) : List Act :=
  List.replicate 4 (.main .idle) ++ [.main { Input.idle with parsed := parsed }]

/-- A command line arrives, and its handler is entered. -/
def commandLine (c : AtCmd) : List Act := turn (some c) ++ turn none

/-- The main loop turns round `n` times with nothing to do for the parser. -/
def idleTurns (n : Nat) : List Act := (List.replicate n (turn none)).flatten

/-- The main thread goes on for some steps. -/
def goOn (n : Nat) : List Act := List.replicate n (.main .idle)

/-- A UDP socket is opened. -/
def udpSession : List Act := [.mesh true] ++ commandLine (.cipstart (some false)) ++ goOn 8

def datagramOf (data : List UInt8) : Act := .datagram .ample false (.get 64 data)

/-- A segment without data, and the answer of a peer to the SYN. -/
def bareSegment (ack : Int) : Segment where
  malformed := false
  rst := false
  syn := false
  fin := false
  psh := false
  ack := some ack
  offset := 0
  buf := .get 64 []
  window := 5000
  fresh := true
  mss := 1220

def synAck : Segment := { bareSegment 1 with syn := true }

/-- A TCP connection is opened. -/
def tcpSession : List Act :=
  [.mesh true] ++ commandLine (.cipstart (some true)) ++ goOn 6 ++
    [.segment .ample synAck, .deliver] ++ goOn 1

/-- One round of `cipsend_write` on a TCP connection: the prompt, the characters from the
host, and the steps up to the return of `socket_send`. -/
def sendRound (chars : List UInt8) : List Act :=
  goOn 2 ++ [.main { Input.idle with chars := chars }] ++ goOn 4

end Modem
