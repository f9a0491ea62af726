import WisunModem.RplRanks
import Mathlib.Data.List.Basic

/-!
# The records of a RPL instance

A RPL instance holds DODAGs with their versions, newest first, and the candidate
neighbours, parents first.  A pointer to a record is its number `ref`; the records that
are alive are those in the lists, and following a pointer to any other is the fault
`freed`.  New records get the number `fresh`.

Timers, routes, prefixes and DAO targets are left out: nothing here reads them.
-/

namespace Rpl

open Faults

/-- The objective functions of `rpl_of0.c` and `rpl_mrhof.c`. -/
inductive Objective
  | of0
  | mrhof
deriving DecidableEq, Repr

/-- `rpl_dodag_conf_t`, without the fields of the Trickle timer. -/
structure Conf where
  authentication : Bool
  dagMaxRankIncrease : UInt16
  minHopRankIncrease : UInt16
  objectiveCodePoint : UInt16
  defaultLifetime : UInt8
  lifetimeUnit : UInt16
deriving DecidableEq, Repr

/-- `rpl_dodag_version_t`. -/
structure Version where
  ref : Nat
  number : UInt8
  lowestAdvertisedRank : UInt16
  lastAdvertisedRank : UInt16
  hardRankLimit : UInt16
  greedinessRankLimit : UInt16
deriving DecidableEq, Repr

/-- `rpl_dodag_t`. -/
structure Dodag where
  ref : Nat
  id : Nat
  gMopPrf : UInt8
  config : Conf
  root : Bool
  wasRoot : Bool
  leaf : Bool
  haveConfig : Bool
  versions : List Version
deriving DecidableEq, Repr

/-- `rpl_neighbour_t`; `version` is the pointer `dodag_version`. -/
structure Neighbour where
  ref : Nat
  version : Nat
  llAddress : Nat
  interfaceId : Nat
  dodagParent : Bool
  wasDodagParent : Bool
  considered : Bool
  dodagPref : Nat
  gMopPrf : UInt8
  dtsn : UInt8
  rank : UInt16
  dioTimestamp : UInt32
deriving DecidableEq, Repr

/-- `rpl_instance_t`; `forceLeaf` is the flag of its domain. -/
structure Instance where
  dodags : List Dodag
  candidateNeighbours : List Neighbour
  currentDodagVersion : Option Nat
  currentRank : UInt16
  of : Option Objective
  localRepair : Bool
  parentWasSelected : Bool
  forceLeaf : Bool
  poisonCount : Nat
  fresh : Nat
deriving DecidableEq, Repr

namespace Instance

variable (s : Instance)

/-! ## Following pointers -/

/-- The DODAG a pointer leads to. -/
def dodag (ref : Nat) : Except Fault Dodag :=
  match s.dodags.find? (·.ref = ref) with
  | some d => .ok d
  | none => .error .freed

/-- The version a pointer leads to, if it is one of this DODAG. -/
def versionIn (ref : Nat) (d : Dodag) : Option (Dodag × Version) :=
  (d.versions.find? (·.ref = ref)).map (d, ·)

/-- The version a pointer leads to and its DODAG. -/
def version (ref : Nat) : Except Fault (Dodag × Version) :=
  match s.dodags.findSome? (versionIn ref) with
  | some dv => .ok dv
  | none => .error .freed

/-- The neighbour a pointer leads to. -/
def neighbour (ref : Nat) : Except Fault Neighbour :=
  match s.candidateNeighbours.find? (·.ref = ref) with
  | some n => .ok n
  | none => .error .freed

def updateDodag (ref : Nat) (f : Dodag → Dodag) : Instance :=
  { s with dodags := s.dodags.map fun d => if d.ref = ref then f d else d }

def updateVersion (ref : Nat) (f : Version → Version) : Instance :=
  { s with dodags := s.dodags.map fun d =>
      { d with versions := d.versions.map fun v => if v.ref = ref then f v else v } }

def updateNeighbour (ref : Nat) (f : Neighbour → Neighbour) : Instance :=
  { s with candidateNeighbours :=
      s.candidateNeighbours.map fun n => if n.ref = ref then f n else n }

/-! ## Looking records up -/

def rpl_lookup_dodag (id : Nat) : Option Dodag := s.dodags.find? (·.id = id)

def rpl_lookup_neighbour_by_ll_address (addr ifId : Nat) : Option Neighbour :=
  s.candidateNeighbours.find? fun n => n.interfaceId = ifId ∧ n.llAddress = addr

/-- `rpl_instance_preferred_parent`: the first entry, if it is or was a parent. -/
def rpl_instance_preferred_parent : Option Neighbour :=
  s.candidateNeighbours.head?.filter fun n => n.dodagParent || n.wasDodagParent

/-- The current version and its DODAG; `none` where there is no current version. -/
def current : Except Fault (Option (Dodag × Version)) :=
  match s.currentDodagVersion with
  | none => .ok none
  | some ref => some <$> s.version ref

/-! ## Deleting records -/

def rpl_delete_neighbour (ref : Nat) : Except Fault Instance := do
  let _ ← s.neighbour ref
  pure { s with candidateNeighbours := s.candidateNeighbours.filter (·.ref ≠ ref) }

/-- The version goes with all its neighbours, and may have been the current one. -/
def rpl_delete_dodag_version (ref : Nat) : Instance :=
  { s with
    currentDodagVersion := if s.currentDodagVersion = some ref then none else s.currentDodagVersion
    candidateNeighbours := s.candidateNeighbours.filter (·.version ≠ ref)
    dodags := s.dodags.map fun d => { d with versions := d.versions.filter (·.ref ≠ ref) } }

/-- The DODAG goes with all its versions. -/
def rpl_delete_dodag (d : Dodag) : Instance :=
  let s := d.versions.foldl (fun s v => s.rpl_delete_dodag_version v.ref) s
  { s with dodags := s.dodags.filter (·.ref ≠ d.ref) }

end Instance

/-! ## Making records -/

/-- A DODAG that was just made; its configuration is what the memory held. -/
def newDodag (ref id : Nat) (gMopPrf : UInt8) (memory : Conf) : Dodag where
  ref := ref
  id := id
  gMopPrf := gMopPrf
  config := memory
  root := false
  wasRoot := false
  leaf := false
  haveConfig := false
  versions := []

def newVersion (ref : Nat) (number : UInt8) : Version where
  ref := ref
  number := number
  lowestAdvertisedRank := infinite
  lastAdvertisedRank := infinite
  hardRankLimit := infinite
  greedinessRankLimit := infinite

/-- A version comes before the first one it is newer than or not comparable with. -/
def insertVersion (v : Version) : List Version → List Version
  | [] => [v]
  | w :: ws =>
      if rpl_seq_compare v.number w.number = .greater ∨
          rpl_seq_compare v.number w.number = .unordered
      then v :: w :: ws
      else w :: insertVersion v ws

/-- The versions to be thrown away: from the first one behind the newest that is not
less than it. -/
def staleVersions : List Version → List Version
  | [] => []
  | newest :: older => older.dropWhile fun v => rpl_seq_compare v.number newest.number = .less

namespace Instance

variable (s : Instance)

def rpl_create_dodag (id : Nat) (gMopPrf : UInt8) (memory : Conf) : Instance × Nat :=
  ({ s with
      dodags := newDodag s.fresh id gMopPrf memory :: s.dodags
      fresh := s.fresh + 1 }, s.fresh)

/-- The new version is put in its place and the stale ones are deleted. -/
def rpl_create_dodag_version (dodagRef : Nat) (number : UInt8) : Except Fault (Instance × Nat) := do
  let d ← s.dodag dodagRef
  let versions := insertVersion (newVersion s.fresh number) d.versions
  let t := { s.updateDodag dodagRef fun d => { d with versions := versions } with
    fresh := s.fresh + 1 }
  pure ((staleVersions versions).foldl (fun t v => t.rpl_delete_dodag_version v.ref) t, s.fresh)

/-- A new neighbour comes behind the parents. -/
def rpl_create_neighbour (version llAddress interfaceId : Nat) (gMopPrf dtsn : UInt8) :
    Instance × Nat :=
  let n : Neighbour := {
    ref := s.fresh
    version := version
    llAddress := llAddress
    interfaceId := interfaceId
    dodagParent := false
    wasDodagParent := false
    considered := false
    dodagPref := 0
    gMopPrf := gMopPrf
    dtsn := dtsn
    rank := infinite
    dioTimestamp := 0 }
  ({ s with
      candidateNeighbours := s.candidateNeighbours.takeWhile (·.dodagParent) ++
        n :: s.candidateNeighbours.dropWhile (·.dodagParent)
      fresh := s.fresh + 1 }, s.fresh)

/-! ## Root and version -/

/-- `rpl_dodag_am_leaf`. -/
def rpl_dodag_am_leaf (d : Dodag) : Bool := d.leaf || s.forceLeaf

/-- `rpl_instance_remove_parents`. -/
def rpl_instance_remove_parents : Instance :=
  { s with candidateNeighbours := s.candidateNeighbours.map fun n =>
      { n with dodagParent := false } }

/-- `rpl_instance_set_dodag_version`: the rank of a leaf and of a node with no version is
infinite, and a node that joins its own DODAG has no parents. -/
def rpl_instance_set_dodag_version (version : Option Nat) (rank : UInt16) :
    Except Fault Instance :=
  match version with
  | none => pure { s with currentRank := infinite, currentDodagVersion := none }
  | some ref => do
      let (d, _) ← s.version ref
      let s' := { s with currentRank := if s.rpl_dodag_am_leaf d then infinite else rank }
      if s.currentDodagVersion = some ref then pure s'
      else
        let s' := { s' with currentDodagVersion := some ref }
        pure (if d.root then s'.rpl_instance_remove_parents else s')

/-- `rpl_dodag_get_version_number_as_root`. -/
def rpl_dodag_get_version_number_as_root : Except Fault UInt8 := do
  match ← s.current with
  | none => throw .null
  | some (_, v) => pure v.number

end Instance

end Rpl
