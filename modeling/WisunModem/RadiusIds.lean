import WisunModem.Runs
import Mathlib.Data.UInt
import Mathlib.Logic.Function.Basic

/-!
# Identifiers of RADIUS requests

`radius_client_sec_prot.c`: all clients share the countdowns of the identifier ranges.  A
client takes a range whose countdown is zero and restarts it with each identifier that it
uses.  The clients here keep a log of what they use and leave, so that the hold time of an
identifier can be spoken of.
-/

namespace Radius

/-- `RADIUS_CONN_NUMBER`. -/
def connNumber : Nat := 3

/-- `RADIUS_ID_RANGE_SIZE`. -/
def idRangeSize : Nat := 10

/-- `RADIUS_ID_RANGE_NUM`. -/
def idRangeNum : Nat := 255 / idRangeSize - 1

/-- `RADIUS_ID_TIMEOUT`. -/
def idTimeout : Nat := 60

/-- The identifier fields of `radius_client_sec_prot_int_t`. -/
structure Client where
  radiusIdentifier : UInt8
  radiusIdConnNum : Nat
  radiusIdRange : Nat
  radiusIdRangeSet : Bool
deriving DecidableEq, Repr

/-- The identifier fields of `radius_client_sec_prot_shared_t`. -/
structure Shared where
  radiusIdentifierTimer : Nat → Nat → Nat
  radiusIdTimerRunning : Bool

/-- The connections with their ranges, as the loops go through them. -/
def ranges : List (Nat × Nat) :=
  (List.range connNumber).flatMap fun connNum => (List.range idRangeNum).map (connNum, ·)

def radius_identifier_timer_value_set (shared : Shared) (connNum idRange value : Nat) : Shared where
  radiusIdentifierTimer := fun c r =>
    if c = connNum ∧ r = idRange then value else shared.radiusIdentifierTimer c r
  radiusIdTimerRunning := true

def radius_client_sec_prot_shared_data_timeout (shared : Shared) (ticks : Nat) : Shared :=
  if !shared.radiusIdTimerRunning then shared
  else
    { radiusIdentifierTimer := fun c r =>
        if ticks < shared.radiusIdentifierTimer c r then shared.radiusIdentifierTimer c r - ticks
        else 0
      radiusIdTimerRunning := ranges.any fun p => ticks < shared.radiusIdentifierTimer p.1 p.2 }

/-- The first range whose countdown is zero. -/
def freeRange (shared : Shared) : Option (Nat × Nat) :=
  ranges.find? fun p => shared.radiusIdentifierTimer p.1 p.2 = 0

/-- The client has no range or has used it up. -/
def Client.NeedsRange (data : Client) (value : UInt8) : Prop :=
  data.radiusIdRangeSet = false ∨ data.radiusIdRange * idRangeSize + idRangeSize - 1 ≤ value.toNat

instance (data : Client) (value : UInt8) : Decidable (data.NeedsRange value) :=
  inferInstanceAs (Decidable (_ ∨ _))

def radius_client_sec_prot_identifier_allocate (shared : Shared) (data : Client) (value : UInt8) :
    Shared × Client × UInt8 :=
  if data.NeedsRange value then
    match freeRange shared with
    | some (connNum, idRange) =>
        -- the range before is held for a fifth of the time
        let left :=
          if data.radiusIdRangeSet then
            radius_identifier_timer_value_set shared data.radiusIdConnNum data.radiusIdRange
              (idTimeout / 5)
          else shared
        (radius_identifier_timer_value_set left connNum idRange idTimeout,
          { data with
            radiusIdConnNum := connNum
            radiusIdRange := idRange
            radiusIdRangeSet := true },
          (idRange * idRangeSize).toUInt8)
    | none => (shared, data, 0)
  else
    (radius_identifier_timer_value_set shared data.radiusIdConnNum data.radiusIdRange idTimeout,
      data, value + 1)

def radius_client_sec_prot_identifier_free (shared : Shared) (data : Client) : Shared :=
  if data.radiusIdRangeSet then
    radius_identifier_timer_value_set shared data.radiusIdConnNum data.radiusIdRange (idTimeout / 5)
  else shared

/-! ## Clients -/

/-- What a client does with a range: it uses an identifier of it, or leaves the range. -/
structure Entry where
  time : Nat
  owner : Nat
  conn : Nat
  range : Nat
  /-- The identifier that is used, `none` where the range is left. -/
  used : Option UInt8
deriving DecidableEq, Repr

/-- A client with its request. -/
structure Prot where
  data : Client
  outstanding : Bool
deriving DecidableEq, Repr

/-- The clients that are alive, and what was done with the ranges, the oldest first. -/
structure State where
  shared : Shared
  prots : Nat → Option Prot
  clock : Nat
  log : List Entry

inductive Event
  | create (owner : Nat)
  /-- `radius_client_sec_prot_allocate_and_create_radius_message`. -/
  | request (owner : Nat)
  | answer (owner : Nat)
  | tick (ticks : Nat)
  /-- `RADIUS_STATE_FINISHED`. -/
  | finish (owner : Nat)
  /-- The client goes in some other way. -/
  | delete (owner : Nat)
deriving DecidableEq, Repr

/-- `radius_client_sec_prot_init`. -/
def radius_client_sec_prot_init : Prot := ⟨⟨0, 0, 0, false⟩, false⟩

namespace State

def setProt (s : State) (owner : Nat) (prot : Option Prot) : State :=
  { s with prots := Function.update s.prots owner prot }

/-- The entry of a range that is left. -/
def leaves (s : State) (owner : Nat) (data : Client) : Entry :=
  ⟨s.clock, owner, data.radiusIdConnNum, data.radiusIdRange, none⟩

/-- What is left when a client with `data` goes on with `next`. -/
def moves (s : State) (owner : Nat) (data next : Client) : List Entry :=
  if data.radiusIdRangeSet ∧ (data.radiusIdConnNum, data.radiusIdRange) ≠
      (next.radiusIdConnNum, next.radiusIdRange) then [s.leaves owner data]
  else []

def step (s : State) : Event → Option State
  | .create owner =>
      match s.prots owner with
      | none => some (s.setProt owner (some radius_client_sec_prot_init))
      | some _ => none
  | .request owner =>
      match s.prots owner with
      | none => none
      | some p =>
          let (shared, next, id) := radius_client_sec_prot_identifier_allocate s.shared p.data
            p.data.radiusIdentifier
          some { s.setProt owner (some ⟨{ next with radiusIdentifier := id }, true⟩) with
            shared := shared
            log := s.log ++ s.moves owner p.data next ++
              [⟨s.clock, owner, next.radiusIdConnNum, next.radiusIdRange, some id⟩] }
  | .answer owner =>
      (s.prots owner).map fun p => s.setProt owner (some { p with outstanding := false })
  | .tick ticks =>
      some { s with
        shared := radius_client_sec_prot_shared_data_timeout s.shared ticks
        clock := s.clock + ticks }
  | .finish owner =>
      (s.prots owner).map fun p =>
        { s.setProt owner none with
          shared := radius_client_sec_prot_identifier_free s.shared p.data
          log := s.log ++ if p.data.radiusIdRangeSet then [s.leaves owner p.data] else [] }
  | .delete owner => (s.prots owner).map fun _ => s.setProt owner none

/-- No client. -/
def start : State := ⟨⟨fun _ _ => 0, false⟩, fun _ => none, 0, []⟩

/-- A live client has this range. -/
def Holds (s : State) (owner connNum idRange : Nat) : Prop :=
  ∃ p, s.prots owner = some p ∧ p.data.radiusIdRangeSet ∧ p.data.radiusIdConnNum = connNum ∧
    p.data.radiusIdRange = idRange

end State

end Radius
