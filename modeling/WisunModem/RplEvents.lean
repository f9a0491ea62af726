import WisunModem.RplDioTidy

/-!
# The events of a RPL instance

All that changes the records of an instance, or divides by its configurations, as the
events of a run: DIOs, parent selections, DIO and DAO transmissions, forwarded packets,
neighbours and DODAGs that go, and what an application does to a root.
-/

namespace Rpl

open Faults

/-- A DAO target as the choice of its lifetime sees it. -/
structure DaoTarget where
  pathLifetime : UInt8
  lifetime : UInt32
deriving DecidableEq, Repr

/-- The path lifetime of a target, chosen if it has none, in units of the configuration;
`none` stands for the pointer that `rpl_dodag_get_config` returns without one. -/
def choosePathLifetime (conf : Option Conf) (t : DaoTarget) : Except Fault UInt8 :=
  if t.pathLifetime ≠ 0 then pure t.pathLifetime
  else
    match conf with
    | none => throw .null
    | some conf =>
        let capped (lifetime : UInt32) : UInt8 :=
          if conf.defaultLifetime.toUInt32 < lifetime then conf.defaultLifetime else lifetime.toUInt8
        if t.lifetime = 0xffffffff then pure (capped t.lifetime)
        else if conf.lifetimeUnit = 0 then throw .divideByZero
        else pure (capped ((t.lifetime + conf.lifetimeUnit.toUInt32 - 1) / conf.lifetimeUnit.toUInt32))

namespace Instance

variable (s : Instance)

/-- `rpl_dodag_get_config`. -/
def rpl_dodag_get_config (d : Dodag) : Option Conf := if d.haveConfig then some d.config else none

/-- `rpl_dodag_mop`. -/
def rpl_dodag_mop (d : Dodag) : UInt8 := d.gMopPrf &&& 0x38

/-- The modes of operation with DAOs. -/
def daoModes : List UInt8 := [0x08, 0x10, 0x18]

/-- `rpl_instance_send_dao_update` as far as the records and the lifetimes go.  `busy`
stands for the reasons to put the DAO off, `exhausted` for the retries that are spent. -/
def rpl_instance_send_dao_update (busy exhausted : Bool) (targets : List DaoTarget) :
    Except Fault (Instance × List UInt8) := do
  match ← s.current with
  | none => pure (s, [])
  | some (d, _) =>
      if d.root || rpl_dodag_mop d ∉ daoModes || busy then pure (s, [])
      else if exhausted then
        match s.candidateNeighbours.head? with
        | none => pure (s, [])
        | some n => do
            let t ← s.rpl_delete_neighbour n.ref
            pure (t, [])
      else do
        let lifetimes ← targets.mapM (choosePathLifetime (rpl_dodag_get_config d))
        pure (s, lifetimes)

/-! ## Records that go -/

/-- Whether the version of one of the neighbours is in this DODAG. -/
def hasNeighbour (d : Dodag) : List Neighbour → Except Fault Bool
  | [] => pure false
  | n :: ns => do
      let (e, _) ← s.version n.version
      if e.ref = d.ref then pure true else hasNeighbour d ns

def rpl_dodag_in_use (d : Dodag) : Except Fault Bool :=
  if d.root then pure true
  else if !d.haveConfig then pure false
  else s.hasNeighbour d s.candidateNeighbours

/-- `rpl_instance_purge` of a DODAG. -/
def purgeDodag (d : Dodag) : Except Fault Instance := do
  if ← s.rpl_dodag_in_use d then pure s
  else pure (s.rpl_delete_dodag d)

/-! ## Roots -/

/-- `RPL_SEQ_INIT`. -/
def rpl_seq_init : UInt8 := 240

/-- `rpl_dodag_set_root` to true. -/
def rpl_dodag_set_root (d : Dodag) : Instance :=
  if d.root then s
  else
    s.rpl_instance_remove_parents.updateDodag d.ref fun d => { d with root := true, wasRoot := true }

/-- The first version of a root. -/
def startRoot (env : Surroundings) (ref : Nat) (rank : UInt16) : Except Fault Instance := do
  if env.versionRoom then
    let (t, version) ← s.rpl_create_dodag_version ref rpl_seq_init
    t.rpl_instance_set_dodag_version (some version) rank
  else
    let d ← s.dodag ref
    pure (s.rpl_delete_dodag d)

/-- The DODAG of a root is made anew. -/
def newRoot (env : Surroundings) (id : Nat) (conf : Conf) (rank : UInt16) (gMopPrf : UInt8) :
    Except Fault Instance :=
  if !env.dodagRoom then pure s
  else do
    let (t, ref) := s.rpl_create_dodag id gMopPrf env.memory
    let (t, _, _) ← t.rpl_dodag_update_config env ref conf none
    let d ← t.dodag ref
    (t.rpl_dodag_set_root d).startRoot env ref rank

def rpl_control_create_dodag_root (env : Surroundings) (id : Nat) (conf : Conf) (rank : UInt16)
    (gMopPrf : UInt8) : Except Fault Instance :=
  match s.rpl_lookup_dodag id with
  | none => s.newRoot env id conf rank gMopPrf
  | some d =>
      if d.root then pure s else (s.rpl_delete_dodag d).newRoot env id conf rank gMopPrf

def rpl_delete_dodag_root (d : Dodag) : Except Fault Instance := do
  let t ← s.rpl_instance_set_dodag_version none infinite
  pure (t.updateDodag d.ref fun d => { d with root := false })

/-- `rpl_control_increment_dodag_version`: the number of the current version changes. -/
def rpl_control_increment_dodag_version (d : Dodag) : Except Fault Instance :=
  if d.root then do
    let number ← s.rpl_dodag_get_version_number_as_root
    match s.currentDodagVersion with
    | none => throw .null
    | some version =>
        pure (s.updateVersion version fun v => { v with number := rpl_seq_inc number })
  else pure s

def rpl_control_update_dodag_config (env : Surroundings) (d : Dodag) (conf : Conf) :
    Except Fault Instance :=
  if d.root then Prod.fst <$> s.rpl_dodag_update_config env d.ref conf none else pure s

/-- `rpl_control_force_leaf`. -/
def rpl_control_force_leaf (leaf : Bool) : Instance :=
  { s with
    forceLeaf := leaf
    currentRank := if leaf then infinite else s.currentRank }

/-- What is done to a DODAG, if it is there. -/
def onDodag (ref : Nat) (f : Dodag → Except Fault Instance) : Except Fault Instance :=
  match s.dodags.find? (·.ref = ref) with
  | none => pure s
  | some d => f d

end Instance

/-! ## Events -/

/-- What happens to an instance. -/
inductive Event
  | dio (env : Surroundings) (dio : Dio)
  | select (policy : Policy) (link : Nat → Nat → UInt16) (aged : Neighbour → Bool) (poison : Nat)
  | transmit (unicast parentSelected : Bool)
  | forward (packet : Instance.Forwarded)
  | daoUpdate (busy exhausted : Bool) (targets : List DaoTarget)
  | deleteNeighbours (gone : Neighbour → Bool)
  | purgeDodag (ref : Nat)
  | poison (count : Nat)
  | forceLeaf (leaf : Bool)
  | createRoot (env : Surroundings) (id : Nat) (conf : Conf) (rank : UInt16) (gMopPrf : UInt8)
  | deleteRoot (ref : Nat)
  | incrementVersion (ref : Nat)
  | updateConfig (env : Surroundings) (ref : Nat) (conf : Conf)

/-- The ETX of the link to a neighbour, by interface and address. -/
def etxRead (link : Nat → Nat → UInt16) (n : Neighbour) : UInt16 := link n.interfaceId n.llAddress

namespace Instance

/-- One event. -/
def step (s : Instance) : Event → Except Fault Instance
  | .dio env dio => s.rpl_control_dio_handler env dio
  | .select policy link aged poison =>
      Prod.fst <$> s.rpl_instance_run_parent_selection policy (etxRead link) aged poison
  | .transmit unicast parentSelected =>
      Prod.fst <$> s.rpl_instance_dio_trigger unicast parentSelected
  | .forward packet => (fun _ => s) <$> s.senderRank packet
  | .daoUpdate busy exhausted targets =>
      Prod.fst <$> s.rpl_instance_send_dao_update busy exhausted targets
  | .deleteNeighbours gone => s.deleteWhere fun _ n => pure (gone n)
  | .purgeDodag ref => s.onDodag ref s.purgeDodag
  | .poison count => pure { s with poisonCount := max s.poisonCount count }
  | .forceLeaf leaf => pure (s.rpl_control_force_leaf leaf)
  | .createRoot env id conf rank gMopPrf =>
      s.rpl_control_create_dodag_root env id conf rank gMopPrf
  | .deleteRoot ref => s.onDodag ref s.rpl_delete_dodag_root
  | .incrementVersion ref => s.onDodag ref s.rpl_control_increment_dodag_version
  | .updateConfig env ref conf =>
      s.onDodag ref fun d => s.rpl_control_update_dodag_config env d conf

/-- An instance that was just made in a domain with this flag. -/
def rpl_create_instance (forceLeaf : Bool) : Instance where
  dodags := []
  candidateNeighbours := []
  currentDodagVersion := none
  currentRank := 0
  of := none
  localRepair := false
  parentWasSelected := false
  forceLeaf := forceLeaf
  poisonCount := 0
  fresh := 0

/-- Events one after the other. -/
def run (s : Instance) (events : List Event) : Except Fault Instance := events.foldlM step s

end Instance

end Rpl
