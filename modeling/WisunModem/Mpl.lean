import WisunModem.Keyed
import WisunModem.Trickle
import Mathlib.Data.BitVec
import Mathlib.Data.List.Basic

/-!
# Multicast forwarding

The forwarder of `mpl.c`: domains with the seeds they have heard of, and for each
seed the messages which are still held for others, in the order of their 8-bit
sequence numbers.

A message has a `number`, which its seed counts up without end; the code sees the
low byte of it, `sequence`.  Of a message the model keeps what the forwarder looks
at again: how long it is, when it came and its trickle timer.  `process` is
`mpl_forwarder_process_message`; it has no answer where the code would look for
room for ever, for a message longer than all the room there is.
-/

namespace Mpl

/-- Sequence numbers of a message. -/
abbrev Seq := BitVec 8

/-- `common_serial_number_greater_8`: the comparison of RFC 1982. -/
def serialGreater (a b : Seq) : Bool :=
  decide (0 < (a - b).toNat ∧ (a - b).toNat < 128)

/-- `MAX_BUFFERED_MESSAGES_SIZE` -/
def maxBufferedMessagesSize : Nat := 8192

/-- `MAX_BUFFERED_MESSAGE_LIFETIME` -/
def maxBufferedMessageLifetime : Nat := 600

/-- `mpl_buffered_message_t` -/
structure Message where
  number : Nat
  size : Nat
  colour : Bool
  timestamp : Nat
  trickle : Trickle
  deriving DecidableEq, Repr

/-- `mpl_buffer_sequence` -/
def Message.sequence (m : Message) : Seq := BitVec.ofNat 8 m.number

abbrev SeedId := List UInt8

/-- `mpl_seed_t` -/
structure Seed where
  id : SeedId
  colour : Bool
  lifetime : Nat
  minSequence : Seq
  messages : List Message
  deriving DecidableEq, Repr

/-- `mpl_domain_t`.  The key stands for the pointer to it. -/
structure Domain where
  key : Nat
  realmScope : Bool
  colour : Bool
  proactiveForwarding : Bool
  seedSetEntryLifetime : Nat
  seeds : List Seed
  trickle : Trickle
  dataTrickleParams : TrickleParams
  controlTrickleParams : TrickleParams
  deriving DecidableEq, Repr

/-- The domains, `mpl_total_buffered`, and the ticks of the event timer. -/
structure State where
  domains : List Domain
  totalBuffered : Nat
  ticks : Nat
  deriving DecidableEq, Repr

/-- No domain yet. -/
def State.init : State := ⟨[], 0, 0⟩

/-! ## Seeds and domains -/

/-- Change the seed with this identifier. -/
def Domain.updateSeed (dom : Domain) (id : SeedId) (f : Seed → Seed) : Domain :=
  { dom with seeds := Keyed.update Seed.id id f dom.seeds }

/-- `mpl_seed_lookup` -/
def Domain.seedLookup (dom : Domain) (id : SeedId) : Option Seed :=
  Keyed.lookup Seed.id id dom.seeds

def State.update (s : State) (key : Nat) (f : Domain → Domain) : State :=
  { s with domains := Keyed.update Domain.key key f s.domains }

def State.lookup (s : State) (key : Nat) : Option Domain :=
  Keyed.lookup Domain.key key s.domains

def State.seed (s : State) (key : Nat) (id : SeedId) : Option Seed :=
  (s.lookup key).bind fun dom => dom.seedLookup id

def State.updateSeed (s : State) (key : Nat) (id : SeedId) (f : Seed → Seed) : State :=
  s.update key fun dom => dom.updateSeed id f

/-- The bytes a list of messages takes up. -/
def storedBytes (messages : List Message) : Nat := (messages.map Message.size).sum

/-- Give back the room of messages deleted. -/
def State.release (s : State) (messages : List Message) : State :=
  { s with totalBuffered := s.totalBuffered - storedBytes messages }

/-- `mpl_buffer_lookup` -/
def Seed.bufferLookup (seed : Seed) (sequence : Seq) : Option Message :=
  seed.messages.find? fun m => m.sequence = sequence

/-- The messages `mpl_seed_advance_min_sequence` deletes. -/
def Seed.passed (seed : Seed) (minSequence : Seq) : List Message :=
  seed.messages.filter fun m => serialGreater minSequence m.sequence

/-- `mpl_seed_advance_min_sequence` -/
def Seed.advance (seed : Seed) (minSequence : Seq) : Seed :=
  { seed with
    minSequence
    messages := seed.messages.filter fun m => !serialGreater minSequence m.sequence }

/-- Delete the first message and move `min_sequence` behind it. -/
def Seed.dropFirst (seed : Seed) : Seed :=
  match seed.messages with
  | [] => seed
  | m :: rest => { seed with minSequence := m.sequence + 1, messages := rest }

/-- The place of a new message: behind the last one it is greater than. -/
def insertMessage (message : Message) : List Message → List Message
  | [] => [message]
  | m :: rest =>
      if rest.any (fun m' => serialGreater message.sequence m'.sequence) ||
          serialGreater message.sequence m.sequence then
        m :: insertMessage message rest
      else message :: m :: rest

/-! ## Making room -/

/-- The age of a message, in ticks of a 32-bit counter. -/
def State.age (s : State) (m : Message) : Nat :=
  (BitVec.ofNat 32 s.ticks - BitVec.ofNat 32 m.timestamp).toNat

/-- A first message, with where it is. -/
structure Candidate where
  key : Nat
  id : SeedId
  first : Message
  deriving DecidableEq, Repr

/-- The first message of every seed that has one. -/
def State.candidates (s : State) : List Candidate :=
  s.domains.flatMap fun dom =>
    dom.seeds.filterMap fun seed => seed.messages.head?.map fun m => ⟨dom.key, seed.id, m⟩

/-- The oldest of the candidates, the first one among equals. -/
def State.oldest (s : State) : List Candidate → Option Candidate → Option Candidate
  | [], best => best
  | c :: rest, none => s.oldest rest (some c)
  | c :: rest, some best =>
      s.oldest rest (some (if s.age best.first < s.age c.first then c else best))

/-- `mpl_free_space`, where there is something to delete. -/
def State.freeSpace (s : State) (c : Candidate) : State :=
  (s.updateSeed c.key c.id Seed.dropFirst).release [c.first]

/-- The loop of `mpl_buffer_create` which makes room for `len` bytes.  `fuel` is
the number of messages held; with nothing left to delete the loop never ends. -/
def State.makeRoom (len : Nat) : Nat → State → Option State
  | fuel, s =>
    if s.totalBuffered + len ≤ maxBufferedMessagesSize then some s
    else
      match fuel, s.oldest s.candidates none with
      | fuel + 1, some c => State.makeRoom len fuel (s.freeSpace c)
      | _, _ => none

/-- The number of messages held. -/
def State.held (s : State) : Nat :=
  (s.domains.map fun dom => (dom.seeds.map fun seed => seed.messages.length).sum).sum

/-! ## Data messages -/

/-- The S field of the MPL option. -/
inductive SeedIdType
  | ipv6Src
  | bits16
  | bits64
  | bits128
  deriving DecidableEq, Repr

/-- `mpl_seed_id_len` -/
def SeedIdType.len : SeedIdType → Nat
  | .ipv6Src => 0
  | .bits16 => 2
  | .bits64 => 8
  | .bits128 => 16

/-- A data message as `mpl_forwarder_process_message` gets it, the length of its
option checked by `mpl_hbh_len_check`. -/
structure Data where
  number : Nat
  idType : SeedIdType
  option : List UInt8
  source : List UInt8
  mFlag : Bool
  hopLimit : Nat
  length : Nat
  multicastLoop : Bool
  seeding : Bool
  option_length : idType.len ≤ option.length
  source_length : source.length = 16
  deriving Repr

def Data.sequence (buf : Data) : Seq := BitVec.ofNat 8 buf.number

/-- The seed identifier of a message. -/
def Data.id (buf : Data) : SeedId :=
  if buf.idType = .ipv6Src then buf.source else buf.option.take buf.idType.len

/-- Memory granted, and the random numbers drawn. -/
structure Env where
  seedMemory : Bool
  messageMemory : Bool
  lowLatency : Bool
  interval : Nat
  time : SeedId → Seq → Nat
  controlInterval : Nat
  controlTime : Nat

/-- `mpl_control_reset_or_start` -/
def Domain.controlResetOrStart (env : Env) (dom : Domain) : Domain :=
  { dom with
    trickle :=
      if dom.trickle.running dom.controlTrickleParams then
        dom.trickle.inconsistentHeard dom.controlTrickleParams env.controlTime
      else dom.trickle.start env.controlInterval env.controlTime }

/-- `mpl_buffer_inconsistent` -/
def Message.inconsistent (env : Env) (params : TrickleParams) (id : SeedId) (m : Message) :
    Message :=
  { m with trickle := m.trickle.inconsistentHeard params (env.time id m.sequence) }

/-- The M flag: an inconsistency for every message behind the one received. -/
def Seed.hearNewest (env : Env) (params : TrickleParams) (sequence : Seq) (seed : Seed) : Seed :=
  { seed with
    messages := seed.messages.map fun m =>
      if serialGreater m.sequence sequence && !env.lowLatency then
        m.inconsistent env params seed.id
      else m }

/-- The message received once more. -/
def Seed.hearAgain (sequence : Seq) (seed : Seed) : Seed :=
  { seed with
    messages := seed.messages.map fun m =>
      if m.sequence = sequence then { m with trickle := m.trickle.consistentHeard } else m }

/-- A message to be held. -/
def Domain.newMessage (env : Env) (dom : Domain) (seed : Seed) (ticks : Nat) (buf : Data) :
    Message :=
  let trickle : Trickle := ⟨0, 0, 0, 0, 0⟩
  let started := trickle.start env.interval (env.time seed.id buf.sequence)
  { number := buf.number, size := buf.length, colour := seed.colour, timestamp := ticks,
    trickle := if dom.proactiveForwarding then started else started.stop }

/-- `mpl_buffer_create`, once there is room.  Nothing tells the caller apart
whether the message is held now. -/
def State.bufferCreate (env : Env) (s : State) (key : Nat) (buf : Data) : State :=
  match s.lookup key, s.seed key buf.id with
  | some dom, some seed =>
    if serialGreater seed.minSequence buf.sequence then s
    else if !env.messageMemory then s
    else
      let message := dom.newMessage env seed s.ticks buf
      let s := s.updateSeed key buf.id fun seed =>
        { seed with messages := insertMessage message seed.messages }
      let s := s.update key (Domain.controlResetOrStart env)
      { s with totalBuffered := s.totalBuffered + buf.length }
  | _, _ => s

/-- `mpl_seed_create` -/
def Domain.seedCreate (dom : Domain) (id : SeedId) (sequence : Seq) : Domain :=
  { dom with
    seeds := dom.seeds ++
      [{ id, colour := dom.colour, lifetime := dom.seedSetEntryLifetime,
         minSequence := sequence, messages := [] }] }

/-- The hop limit a message is forwarded with. -/
def Data.hopsLeft (buf : Data) : Nat :=
  if !buf.seeding && buf.hopLimit ≠ 0 then buf.hopLimit - 1 else buf.hopLimit

/-- Whether a message is held for others at all. -/
def Domain.forwards (dom : Domain) (buf : Data) : Bool :=
  decide (dom.dataTrickleParams.timerExpirations ≠ 0 ∧ buf.hopsLeft ≠ 0)

/-- What the M flag of a message does. -/
def State.hearFlag (env : Env) (s : State) (dom : Domain) (buf : Data) : State :=
  if buf.mFlag then
    s.updateSeed dom.key buf.id (Seed.hearNewest env dom.dataTrickleParams buf.sequence)
  else s

/-- The lifetime of the seed counted anew. -/
def State.refresh (s : State) (dom : Domain) (buf : Data) : State :=
  s.updateSeed dom.key buf.id fun seed => { seed with lifetime := dom.seedSetEntryLifetime }

/-- A sequence number which is neither passed nor held. -/
def Seed.isOpen (seed : Seed) (sequence : Seq) : Bool :=
  !serialGreater seed.minSequence sequence && (seed.bufferLookup sequence).isNone

/-- The state in which `mpl_buffer_create` goes on, with room for the message. -/
def State.roomFor (env : Env) (s : State) (dom : Domain) (buf : Data) : Option State :=
  let s := (s.hearFlag env dom buf).refresh dom buf
  s.makeRoom buf.length s.held

/-- `mpl_forwarder_process_message` of a message whose seed is known. -/
def State.processKnown (env : Env) (s : State) (dom : Domain) (seed : Seed) (buf : Data) :
    Option (Bool × State) :=
  if serialGreater seed.minSequence buf.sequence then some (false, s.hearFlag env dom buf)
  else if (seed.bufferLookup buf.sequence).isSome then
    some (false, (s.hearFlag env dom buf).updateSeed dom.key buf.id
      (Seed.hearAgain buf.sequence))
  else if !dom.forwards buf then
    some (true, State.release
      (((s.hearFlag env dom buf).refresh dom buf).updateSeed dom.key buf.id fun seed =>
        seed.advance (buf.sequence + 1))
      (seed.passed (buf.sequence + 1)))
  else (s.roomFor env dom buf).map fun s => (true, s.bufferCreate env dom.key buf)

/-- `mpl_forwarder_process_message` -/
def State.process (env : Env) (s : State) (key : Nat) (buf : Data) : Option (Bool × State) :=
  if !buf.seeding && buf.multicastLoop then some (true, s)
  else
    match s.lookup key with
    | none => some (false, s)
    | some dom =>
      match dom.seedLookup buf.id with
      | some seed => s.processKnown env dom seed buf
      | none =>
        if !env.seedMemory then some (false, s)
        else
          let dom' := dom.seedCreate buf.id buf.sequence
          match dom'.seedLookup buf.id with
          | some seed => (s.update key fun _ => dom').processKnown env dom' seed buf
          | none => some (false, s)

end Mpl
