import WisunModem.RplRecords

/-!
# Reception of a DIO

`rpl_control_dio_handler`.  The neighbour entry of the sender is looked up first and
used to the end; in between the DODAG version of the message may have to be made.  What
policy, the allocator and the callbacks of the domain say is in a `Surroundings`.
-/

namespace Rpl

/-- What a DIO says, and where it comes from. -/
structure Dio where
  /-- The options are not well formed or the DODAGID is no address for a DODAG. -/
  malformed : Bool
  llAddress : Nat
  interfaceId : Nat
  dodagId : Nat
  versionNumber : UInt8
  rank : UInt16
  gMopPrf : UInt8
  dtsn : UInt8
  /-- The DODAG configuration option. -/
  conf : Option Conf
  /-- There is a metric container. -/
  metric : Bool
  timestamp : UInt32
deriving DecidableEq, Repr

/-- What the handler asks of the code around it. -/
structure Surroundings where
  /-- `rpl_policy_join_dodag`. -/
  joinDodag : Bool
  dodagRoom : Bool
  versionRoom : Bool
  neighbourRoom : Bool
  /-- What a new DODAG finds in its memory. -/
  memory : Conf
  /-- The DODAGID is an address of this interface. -/
  ownDodagId : Bool
  /-- The callback `new_parent_add` takes the sender. -/
  newParentAdd : Bool
  /-- `rpl_objective_lookup`. -/
  objective : UInt16 → Option Objective

/-- `rpl_policy_join_config`. -/
def rpl_policy_join_config (conf : Conf) : Bool :=
  conf.minHopRankIncrease ≠ 0 && !conf.authentication

/-- `RPL_OCP_OF0`. -/
def ocpOf0 : UInt16 := 0

namespace Instance

variable (env : Surroundings) (dio : Dio) (s : Instance)

/-- The source is someone else than the preferred parent. -/
def fromOther (src : Option Nat) : Bool :=
  match s.rpl_instance_preferred_parent, src with
  | some parent, some addr => addr ≠ parent.llAddress
  | _, _ => false

/-- The configuration is taken from anyone as long as there is none, and then only from
the preferred parent, if there is one.  Returns whether an objective function is there
and whether the node is to be a leaf for want of the right one. -/
def rpl_dodag_update_config (dodagRef : Nat) (conf : Conf) (src : Option Nat) :
    Except Fault (Instance × Bool × Bool) := do
  let d ← s.dodag dodagRef
  if d.haveConfig && s.fromOther src then pure (s, true, false)
  else
    let _ ← s.current
    let t := s.updateDodag dodagRef fun d => { d with config := conf, haveConfig := true }
    match env.objective conf.objectiveCodePoint with
    | some o => pure ({ t with of := some o }, true, false)
    | none =>
        match env.objective ocpOf0 with
        | some o => pure ({ t with of := some o }, true, true)
        | none => pure ({ t with of := none }, false, false)

/-- `rpl_dodag_version_compare` of two pointers. -/
def rpl_dodag_version_compare (a b : Nat) : Except Fault Cmp :=
  if a = b then pure .equal
  else do
    let (da, va) ← s.version a
    let (db, vb) ← s.version b
    pure (if da.ref ≠ db.ref then .unordered else rpl_seq_compare va.number vb.number)

/-- `rpl_dodag_version_rank_indicates_possible_sub_dodag`. -/
def possibleSubDodag (version : Nat) (rank : UInt16) : Except Fault Bool :=
  if s.currentDodagVersion = some version then do
    let (d, _) ← s.version version
    let cmp ← rpl_rank_compare d.config.minHopRankIncrease rank s.currentRank
    pure (cmp == .greater)
  else pure false

/-- The DODAG follows the flags of the preferred parent unless that one has moved to an
older version. -/
def followsSender (n : Neighbour) (d : Dodag) (version : Nat) : Except Fault Bool :=
  if dio.gMopPrf ≠ d.gMopPrf then do
    let cmp ← s.rpl_dodag_version_compare version n.version
    pure ((cmp == .greater || cmp == .equal) &&
      (s.rpl_instance_preferred_parent.map (·.ref) == some n.ref))
  else pure false

/-- `rpl_neighbour_update_dodag_version`. -/
def rpl_neighbour_update_dodag_version (neighbourRef version : Nat) : Except Fault Instance := do
  let n ← s.neighbour neighbourRef
  let (d, _) ← s.version version
  let follows ← s.followsSender dio n d version
  let t := if follows then s.updateDodag d.ref fun d => { d with gMopPrf := dio.gMopPrf } else s
  pure (t.updateNeighbour neighbourRef fun n =>
    { n with
      gMopPrf := dio.gMopPrf
      version := version
      rank := dio.rank
      dioTimestamp := dio.timestamp })

/-- `rpl_control_process_route_options`, as far as it follows pointers: routes of the
current DODAG are taken from newer versions and from lower ranks. -/
def rpl_control_process_route_options (dodagRef version : Nat) : Except Fault PUnit := do
  match ← s.current with
  | none => pure ⟨⟩
  | some (d, v) =>
      if d.ref = dodagRef then
        let cmp ← s.rpl_dodag_version_compare version v.ref
        if cmp = .equal then
          let _ ← rpl_rank_compare d.config.minHopRankIncrease dio.rank s.currentRank
          pure ⟨⟩
        else pure ⟨⟩
      else pure ⟨⟩

/-- The DIO is refused, and with it the sender. -/
def invalidParent : Option Nat → Except Fault Instance
  | none => pure s
  | some n => s.rpl_delete_neighbour n

/-- The last steps, with the sender's entry at hand. -/
def updateSender (dodagRef version neighbourRef : Nat) (becomeLeaf : Bool) :
    Except Fault Instance := do
  let t ← s.rpl_neighbour_update_dodag_version dio neighbourRef version
  let _ ← t.neighbour neighbourRef
  let t := t.updateNeighbour neighbourRef fun n => { n with dtsn := dio.dtsn }
  let _ ← t.dodag dodagRef
  t.rpl_control_process_route_options dio dodagRef version
  pure (if becomeLeaf then t.updateDodag dodagRef fun d => { d with leaf := true } else t)

/-- The sender gets an entry if it has none. -/
def enterSender (dodagRef version : Nat) (sender : Option Nat) (becomeLeaf : Bool) :
    Except Fault Instance :=
  match sender with
  | some n => s.updateSender dio dodagRef version n becomeLeaf
  | none =>
      if !env.newParentAdd || !env.neighbourRoom then pure s
      else
        let (t, n) := s.rpl_create_neighbour version dio.llAddress dio.interfaceId
          dio.gMopPrf dio.dtsn
        t.updateSender dio dodagRef version n becomeLeaf

/-- What may be below this node is not listened to, but in a local repair. -/
def listensNot (version : Nat) : Except Fault Bool :=
  if s.localRepair then pure false else s.possibleSubDodag version dio.rank

/-- The comparison that makes the DIO consistent for the Trickle timer or not. -/
def compareRank (d : Dodag) (version : Nat) : Except Fault Cmp :=
  if s.currentDodagVersion = some version then
    rpl_rank_compare d.config.minHopRankIncrease dio.rank s.currentRank
  else pure .equal

/-- The steps with the version at hand. -/
def inVersion (dodagRef version : Nat) (sender : Option Nat) (becomeLeaf : Bool) :
    Except Fault Instance := do
  if ← s.listensNot dio version then s.invalidParent sender
  else
    let d ← s.dodag dodagRef
    let _ ← s.compareRank dio d version
    s.enterSender env dio dodagRef version sender becomeLeaf

/-- The version is looked up or made, once the configuration is accepted. -/
def chooseVersion (dodagRef : Nat) (sender : Option Nat) (becomeLeaf : Bool) :
    Except Fault Instance := do
  let d ← s.dodag dodagRef
  if !(d.haveConfig && rpl_policy_join_config d.config) then s.invalidParent sender
  else
    match d.versions.find? (·.number = dio.versionNumber) with
    | some v => s.inVersion env dio dodagRef v.ref sender (becomeLeaf || dio.metric)
    | none =>
        if !env.versionRoom then s.invalidParent sender
        else
          let (t, v) ← s.rpl_create_dodag_version dodagRef dio.versionNumber
          t.inVersion env dio dodagRef v sender (becomeLeaf || dio.metric)

/-- The configuration option is stored. -/
def readConf (dodagRef : Nat) (sender : Option Nat) : Except Fault Instance :=
  if env.ownDodagId then s.invalidParent sender
  else
    match dio.conf with
    | none => s.chooseVersion env dio dodagRef sender false
    | some conf => do
        let (t, accepted, leaf) ← s.rpl_dodag_update_config env dodagRef conf (some dio.llAddress)
        if !accepted then t.invalidParent sender
        else t.chooseVersion env dio dodagRef sender leaf

/-- A node that is or was root of the DODAG looks at the version first. -/
def inDodag (dodagRef : Nat) (sender : Option Nat) : Except Fault Instance := do
  let d ← s.dodag dodagRef
  if d.root || d.wasRoot then
    let ours ← s.rpl_dodag_get_version_number_as_root
    let cmp := rpl_seq_compare dio.versionNumber ours
    if cmp = .unordered ∨ cmp = .greater then s.invalidParent sender
    else s.readConf env dio dodagRef sender
  else s.readConf env dio dodagRef sender

def rpl_control_dio_handler : Except Fault Instance :=
  if dio.malformed then pure s
  else
    let sender := (s.rpl_lookup_neighbour_by_ll_address dio.llAddress dio.interfaceId).map (·.ref)
    if dio.rank = infinite then s.invalidParent sender
    else if !env.joinDodag then s.invalidParent sender
    else
      match s.rpl_lookup_dodag dio.dodagId with
      | some d => s.inDodag env dio d.ref sender
      | none =>
          if !env.dodagRoom then s.invalidParent sender
          else
            let (t, d) := s.rpl_create_dodag dio.dodagId dio.gMopPrf env.memory
            t.inDodag env dio d sender

end Instance

end Rpl
