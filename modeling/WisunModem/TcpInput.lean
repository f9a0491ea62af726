import WisunModem.Runs
import WisunModem.TcpSession

/-!
# Segments as they arrive, and runs of a session

What `tcp_up` reads out of the bytes of a segment: the header, the options and the
place where the data begins.  The data offset is compared with the length of the
segment, but not with the length of the header.
-/

namespace TcpSession

open NsSocket

/-- `common_read_16_bit` and `common_read_32_bit` -/
def read16 (bytes : List UInt8) (i : Nat) : Nat :=
  (bytes.getD i 0).toNat * 2 ^ 8 + (bytes.getD (i + 1) 0).toNat

def read32 (bytes : List UInt8) (i : Nat) : SeqNum :=
  BitVec.ofNat 32 (read16 bytes i * 2 ^ 16 + read16 bytes (i + 2))

/-- The loop over the options: the MSS, and whether they are malformed.  Each turn
takes at least one byte, so their length is fuel enough. -/
def parseOptions : Nat → List UInt8 → Nat → Nat × Bool
  | 0, _, mss => (mss, false)
  | _ + 1, [], mss => (mss, false)
  | fuel + 1, type :: rest, mss =>
      if type = 0 then (mss, false)
      else if type = 1 then parseOptions fuel rest mss
      else
        match rest with
        | [] => (mss, true)
        | len :: _ =>
            if len.toNat < 2 ∨ len.toNat > rest.length + 1 then (mss, true)
            else
              parseOptions fuel (rest.drop (len.toNat - 1))
                (if type = 2 ∧ len = 4 then read16 rest 1 else mss)

/-- The data offset of a header, in bytes. -/
def dataOffset (bytes : List UInt8) : Nat := (bytes.getD 12 0).toNat / 2 ^ 4 * 4

/-- The header of a segment, or nothing where it is too short. -/
def tcpParse (buf : Buffer) : Option Segment :=
  let bytes := buf.data
  let dataOffset := dataOffset bytes
  if buf.length < 20 ∨ dataOffset > buf.length then none
  else
    let flags := (bytes.getD 13 0).toNat
    let options := parseOptions (dataOffset - 20) ((bytes.take dataOffset).drop 20) 536
    let data := buf.stripHeader dataOffset
    let syn := flags.testBit 1
    let fin := flags.testBit 0
    some
      { seqNo := read32 bytes 4
        ackNo := read32 bytes 8
        rst := flags.testBit 2
        syn := syn
        fin := fin
        ack := flags.testBit 4
        psh := flags.testBit 3
        window := read16 bytes 14
        mss := options.1
        malformed := options.2
        segLen := (data.length + syn.toNat + fin.toNat) % 2 ^ 16
        buf := data }

/-! ## Runs -/

/-- Actions on a session. -/
inductive Act
  /-- A segment with the addresses and ports of the session; whether its checksum is
  right and IP has accepted it. -/
  | segment (env : Env) (intact : Bool) (buf : Buffer)
  | timer (env : Env)
  | send (env : Env) (buf : Buffer)
  | recv (env : Env) (len : Nat)
  | close (env : Env)
  | shutdownRead (env : Env)
  /-- The socket is released (`SOCKET_FLAG_CLOSED`). -/
  | release

variable (sn : SerialOrder)

/-- `tcp_up` from the bytes on; IP hands up at most 64 KiB. -/
def tcpInput (env : Env) (s : Session) (intact : Bool) (buf : Buffer) : Session :=
  if !intact || decide (buf.length > 0xffff) then s
  else
    match tcpParse buf with
    | none => s
    | some seg => tcpUp sn env s seg

def step (s : Session) (a : Act) : Option Session :=
  if !s.alive then none
  else
    match a with
    | .segment env intact buf => some (tcpInput sn env s intact buf)
    | .timer env => some (tcpHandleTimeEvent env s)
    | .send env buf => some (tcpSessionSend env s buf)
    | .recv env len => some (socketRecv env s len)
    | .close env => some (tcpSessionClose env s)
    | .shutdownRead env => some (tcpSessionShutdownRead env s)
    | .release => some { s with closed := true, cantRecvMore := true }

/-! ## New sessions -/

/-- `tcp_session_ptr_allocate` for a socket with queues of these limits. -/
def allocate (isn : SeqNum) (rcvLimit sndLimit : Nat) : Session where
  alive := true
  state := .closed
  passiveOpen := false
  busy := false
  persist := false
  sentFin := false
  receiveNext := 0
  receiveAdv := 0
  sendNext := isn
  sendUnacknowledged := isn
  sendWindow := 0
  sendWl1 := 0
  sendWl2 := 0
  retry := 0
  sendMssEff := 536
  rcvq := Sockbuf.init.reserve rcvLimit
  sndq := Sockbuf.init.reserve sndLimit
  cantRecvMore := false
  closed := false
  room := 0
  edges := []
  taken := []
  finSeen := false
  stream := []
  sent := []
  highest := isn
  resets := []

/-- `tcp_session_open`: a SYN is sent. -/
def tcpSessionOpen (s : Session) : Session := tcpBuild { s with state := .synSent } .syn []

/-- The new session of `tcp_up` for a SYN to a listening socket. -/
def passiveOpen (s : Session) (seg : Segment) : Session :=
  tcpAckBuffer .ample
    { readSyn s seg with
      sendWindow := seg.window
      passiveOpen := true
      state := .synReceived } 1 .synAck

/-- A new session with this number for its SYN, opened by itself or by the peer. -/
inductive Started (isn : SeqNum) : Session → Prop
  | active (rcvLimit sndLimit : Nat) :
      Started isn (tcpSessionOpen (allocate isn rcvLimit sndLimit))
  | passive (rcvLimit sndLimit : Nat) (seg : Segment) :
      Started isn (passiveOpen (allocate isn rcvLimit sndLimit) seg)

/-- A session which the peer opened with its SYN, number 100. -/
def accepted : Session :=
  passiveOpen (allocate 0 2048 2048)
    { seqNo := 100
      ackNo := 0
      rst := false
      syn := true
      fin := false
      ack := false
      psh := false
      window := 4096
      mss := 536
      malformed := false
      segLen := 1
      buf := .get 0 [] }

/-- The bytes of a segment. -/
def bytesOf (offset flags : UInt8) (seq ack window : Nat) (data : List UInt8) : Buffer :=
  let be16 (n : Nat) : List UInt8 := [UInt8.ofNat (n / 2 ^ 8), UInt8.ofNat n]
  let be32 (n : Nat) : List UInt8 := be16 (n / 2 ^ 16) ++ be16 n
  .get 0 ([0, 0, 0, 0] ++ be32 seq ++ be32 ack ++ [offset, flags] ++ be16 window ++ [0, 0, 0, 0] ++
    data)

/-- A segment with a window of 4 KiB. -/
def segmentOf (offset flags : UInt8) (seq ack : Nat) (data : List UInt8) : Act :=
  .segment .ample true (bytesOf offset flags seq ack 4096 data)

end TcpSession
