import WisunModem.RingBuffer

/-!
# Unsolicited commands

The part of `cat.c` that writes lines nobody asked for.  The application pushes
one of its three commands into a ring of four; the state machine takes them out
one by one, formats the variable of the command if it has one, calls its read
handler and writes the line.  It advances by one state, or one character, with
each call of `cat_service`.
-/

namespace Unsolicited

/-- The commands the application triggers. -/
inductive Cmd
  | ipd
  | closed
  | sendFail
  deriving DecidableEq, Repr

instance : Inhabited Cmd := ⟨.ipd⟩

/-- `cat_unsolicited_state`, without the states of the TEST type, which nothing
triggers.  `flushIoWrite left` has `left` calls to go: one for each character
and one for the end of each part of the line. -/
inductive State
  | idle
  | formatReadArgs
  | readLoop
  | flushIoWriteWait
  | flushIoWrite (left : Nat)
  | afterFlushOk
  deriving DecidableEq, Repr

/-- `CAT_UNSOLICITED_CMD_BUFFER_SIZE` -/
abbrev bufferSize : Nat := 4

/-- `unsolicited_fsm`.  `line` is the number formatted last. -/
structure Fsm where
  buffer : RingBuffer Cmd bufferSize
  cmd : Option Cmd
  state : State
  line : Nat

def Fsm.init : Fsm where
  buffer := .empty (by decide)
  cmd := none
  state := .idle
  line := 0

/-- `push_unsolicited_cmd`, which `cat_trigger_unsolicited_read` calls; a full
ring drops the command. -/
def pushUnsolicitedCmd (fsm : Fsm) (cmd : Cmd) : Fsm :=
  match fsm.buffer.push cmd with
  | none => fsm
  | some buffer => { fsm with buffer := buffer }

/-- `is_unsolicited_buffer_full` -/
def isUnsolicitedBufferFull (fsm : Fsm) : Bool := fsm.buffer.isFull

/-- `unsolicited_reset_state` -/
def unsolicitedResetState (fsm : Fsm) : Fsm := { fsm with cmd := none, state := .idle }

/-- `start_processing_format_read_args`: only `+IPD` has a variable. -/
def startProcessingFormatReadArgs (fsm : Fsm) (cmd : Cmd) : Fsm :=
  { fsm with
    cmd := some cmd
    state := if cmd = .ipd then .formatReadArgs else .readLoop }

/-- `check_unsolicited_buffers` -/
def checkUnsolicitedBuffers (fsm : Fsm) : Fsm :=
  match fsm.buffer.pop with
  | none => fsm
  | some (cmd, buffer) => startProcessingFormatReadArgs { fsm with buffer := buffer } cmd

/-- The calls it takes to write `+IPD=<n>` between two line ends. -/
def flushCalls (cr : Bool) (n : Nat) : Nat :=
  2 * (1 + cr.toNat) + ("+IPD=".length + (Nat.toDigits 10 n).length) + 3

/-- A line, or the end of one, written to the host. -/
inductive Line
  | ipd (n : Nat)
  | closed
  | sendFail
  deriving DecidableEq, Repr

/-- What one call of `unsolicited_events_service` leaves: the state machine, the
value of `ipd_data_length`, and the line which it finished. -/
structure Served where
  fsm : Fsm
  ipd : Nat
  line : Option Line

/-- `process_read_loop` with the read handler of the command, `ipd_read` or
`empty_read`. -/
def processReadLoop (fsm : Fsm) (ipd : Nat) : Served :=
  match fsm.cmd with
  | some .ipd =>
      if ipd = 0 then ⟨unsolicitedResetState fsm, ipd, none⟩
      else ⟨{ fsm with state := .flushIoWriteWait }, 0, none⟩
  | some .closed => ⟨unsolicitedResetState fsm, ipd, some .closed⟩
  | some .sendFail => ⟨unsolicitedResetState fsm, ipd, some .sendFail⟩
  | none => ⟨unsolicitedResetState fsm, ipd, none⟩

/-- `unsolicited_events_service`.  `free` says that the command's own output is
not being written, or that the UART takes a character; `cr` that line ends are
`\r\n`. -/
def unsolicitedEventsService (fsm : Fsm) (ipd : Nat) (free cr : Bool) : Served :=
  match fsm.state with
  | .idle => ⟨checkUnsolicitedBuffers fsm, ipd, none⟩
  | .formatReadArgs => ⟨{ fsm with line := ipd, state := .readLoop }, ipd, none⟩
  | .readLoop => processReadLoop fsm ipd
  | .flushIoWriteWait =>
      ⟨if free then { fsm with state := .flushIoWrite (flushCalls cr fsm.line) } else fsm,
        ipd, none⟩
  | .flushIoWrite left =>
      if !free then ⟨fsm, ipd, none⟩
      else if left > 1 then ⟨{ fsm with state := .flushIoWrite (left - 1) }, ipd, none⟩
      else ⟨{ fsm with state := .afterFlushOk }, ipd, some (.ipd fsm.line)⟩
  | .afterFlushOk => ⟨unsolicitedResetState fsm, ipd, none⟩

end Unsolicited
