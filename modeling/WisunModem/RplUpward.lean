import WisunModem.RplDio
import WisunModem.RplOf0

/-!
# The upward side of a RPL node

`rpl_instance_run_parent_selection`, `rpl_instance_dio_trigger` and what else changes the
records of an instance, as the events of a node.
-/

namespace Rpl

namespace Instance

variable (s : Instance)

/-! ## Parent selection -/

/-- `instance->of->parent_selection`; the flag tells of a rank excess. -/
def parentSelection (policy : Policy) (etx : Neighbour → UInt16) (of : Objective) :
    Except Fault (Instance × Bool) :=
  match of with
  | .of0 => Of0.rpl_of0_parent_selection policy etx s
  | .mrhof => Mrhof.rpl_mrhof_parent_selection policy etx s

/-- `instance->of->neighbour_acceptable`. -/
def neighbourAcceptable (policy : Policy) (etx : Neighbour → UInt16) (of : Objective)
    (n : Neighbour) : Bool :=
  match of with
  | .of0 => Of0.rpl_of0_neighbour_acceptable etx n
  | .mrhof => Mrhof.rpl_mrhof_neighbour_acceptable policy etx n

/-- Delete the neighbours, in the order of the list, for which `gone` holds. -/
def deleteWhere (gone : Instance → Neighbour → Except Fault Bool) : Except Fault Instance :=
  s.candidateNeighbours.foldlM (fun t n => do
    if ← gone t n then t.rpl_delete_neighbour n.ref else pure t) s

/-- `rpl_instance_set_local_repair`: when a repair ends, what may be in the sub-DODAG is
deleted. -/
def rpl_instance_set_local_repair (repair : Bool) : Except Fault Instance :=
  if s.localRepair = repair then pure s
  else
    let t := { s with localRepair := repair }
    if !repair && t.currentDodagVersion.isSome then
      t.deleteWhere fun t n => do
        let _ ← t.version n.version
        t.possibleSubDodag n.version n.rank
    else pure t

/-- Candidates that were not heard for long are deleted; the others are marked. -/
def startSelection (aged : Neighbour → Bool) : Except Fault Instance := do
  let t ← s.deleteWhere fun t n =>
    if n.dodagParent then pure false else do
      let _ ← t.version n.version
      pure (aged n)
  pure { t with candidateNeighbours := t.candidateNeighbours.map fun n =>
    { n with wasDodagParent := n.dodagParent, dodagParent := false, considered := true } }

/-- The preferred parent ends a repair, and losing it starts one. -/
def controlRepair (poison : Nat) : Except Fault Instance :=
  match s.rpl_instance_preferred_parent with
  | none => do
      let t := { s with poisonCount := max s.poisonCount poison }
      if t.parentWasSelected then
        let t ← t.rpl_instance_set_local_repair true
        pure { t with parentWasSelected := false }
      else pure t
  | some _ => do
      let t ← s.rpl_instance_set_local_repair false
      match ← t.current with
      | none => throw .null
      | some _ => pure { t with parentWasSelected := true }

/-- The last comparison, which decides on the consistency of the Trickle timer. -/
def compareRanks (original : Instance) (changed : Bool) : Except Fault PUnit := do
  if s.currentDodagVersion ≠ original.currentDodagVersion ∨ changed then pure ⟨⟩
  else
    match ← s.current with
    | none => pure ⟨⟩
    | some (d, _) => do
        let _ ← rpl_rank_compare d.config.minHopRankIncrease original.currentRank s.currentRank
        pure ⟨⟩

/-- The parent selection proper and what follows from it.  The flag tells of a rank
excess. -/
def selectParents (policy : Policy) (etx : Neighbour → UInt16) (aged : Neighbour → Bool)
    (poison : Nat) (of : Objective) : Except Fault (Instance × Bool) := do
  let marked ← s.startSelection aged
  let (t, excess) ← marked.parentSelection policy etx of
  let changed := t.candidateNeighbours.any fun n => n.wasDodagParent ≠ n.dodagParent
  let t : Instance := { t with
    candidateNeighbours := t.candidateNeighbours.map fun n => { n with wasDodagParent := false } }
  let preferred := t.rpl_instance_preferred_parent.map (·.ref)
  let original := marked.rpl_instance_preferred_parent.map (·.ref)
  let t ← t.controlRepair poison
  let t ← t.deleteWhere (fun _ n =>
    pure (!n.dodagParent && !neighbourAcceptable policy etx of n))
  t.compareRanks s (changed || original ≠ preferred)
  pure (t, excess)

/-- `rpl_instance_run_parent_selection`. -/
def rpl_instance_run_parent_selection (policy : Policy) (etx : Neighbour → UInt16)
    (aged : Neighbour → Bool) (poison : Nat) : Except Fault (Instance × Bool) := do
  match s.of with
  | none => pure (s, false)
  | some of => do
      match ← s.current with
      | some (d, _) =>
          if d.root || d.wasRoot then pure (s, false)
          else s.selectParents policy etx aged poison of
      | none => s.selectParents policy etx aged poison of

/-! ## DIO transmission -/

/-- The hard limit after `rank` was advertised as the lowest. -/
def hardLimit (conf : Conf) (rank : UInt16) : Except Fault UInt16 := do
  let dagrank ← nrpl_dag_rank conf.minHopRankIncrease rank
  let dagmaxinc ← nrpl_dag_rank conf.minHopRankIncrease conf.dagMaxRankIncrease
  let dagmax := rpl_rank_add dagrank dagmaxinc
  pure (if dagmax = infinite then infinite else nrpl_rank conf.minHopRankIncrease (1 + dagmax) - 1)

/-- `rpl_dodag_version_limit_greediness`. -/
def limitGreediness (minHop : UInt16) (v : Version) (rank : UInt16) : Except Fault Version := do
  if rank ≠ infinite ∧ v.greedinessRankLimit = infinite then
    let limit ← rpl_rank_max_at_level minHop rank
    pure { v with greedinessRankLimit := limit }
  else pure v

/-- A version with the ranks of another. -/
def withRanks (v ranks : Version) : Version :=
  { v with
    lowestAdvertisedRank := ranks.lowestAdvertisedRank
    lastAdvertisedRank := ranks.lastAdvertisedRank
    hardRankLimit := ranks.hardRankLimit
    greedinessRankLimit := ranks.greedinessRankLimit }

/-- A new lowest rank renews the hard limit. -/
def lowerLimit (conf : Conf) (v : Version) (rank : UInt16) : Except Fault Version :=
  if rank < v.lowestAdvertisedRank ∧ conf.dagMaxRankIncrease ≠ 0 then do
    let limit ← hardLimit conf rank
    pure { v with lowestAdvertisedRank := rank, hardRankLimit := limit }
  else pure v

/-- What a multicast DIO of this rank leaves in its version. -/
def advertised (conf : Conf) (v : Version) (rank : UInt16) : Except Fault Version := do
  let v ← lowerLimit conf { v with lastAdvertisedRank := rank } rank
  limitGreediness conf.minHopRankIncrease v rank

/-- The version a DIO is sent for: the current one, or when poisoning any. -/
def advertisedVersion : Except Fault (Option (Dodag × Version)) := do
  match ← s.current with
  | some dv => pure (some dv)
  | none =>
      if s.poisonCount = 0 then pure none
      else pure (s.dodags.head?.bind fun d => d.versions.head?.map (d, ·))

/-- What a DIO that is sent says. -/
structure Sent where
  dodagId : Nat
  versionNumber : UInt8
  rank : UInt16
deriving DecidableEq, Repr

/-- `rpl_instance_dio_trigger`, with the DIO that it sends.  `parentSelected` is
`rpl_instance_parent_selected`, which a unicast asks for. -/
def rpl_instance_dio_trigger (unicast parentSelected : Bool) :
    Except Fault (Instance × Option Sent) := do
  match ← s.advertisedVersion with
  | none => pure (s, none)
  | some (d, v) => do
      let rank := if s.poisonCount = 0 then s.currentRank else infinite
      let s := { s with poisonCount := s.poisonCount - 1 }
      if unicast then
        pure (s, some ⟨d.id, v.number, if parentSelected then rank else infinite⟩)
      else
        let v' ← advertised d.config v rank
        pure (s.updateVersion v.ref fun w => withRanks w v', some ⟨d.id, v.number, rank⟩)

/-! ## Forwarded packets -/

/-- A packet with the RPL option on its way, as `rpl_data_exthdr_provider_hbh_2` sees it. -/
structure Forwarded where
  routedUp : Bool
  /-- The Down flag of the option. -/
  down : Bool
  /-- The Rank-Error flag is set already. -/
  rankError : Bool
  senderRank : UInt16
  /-- It does not go up into another version. -/
  sameVersion : Bool

/-- Whether a packet is dropped for a second rank error. -/
def dropsForRank (d : Dodag) (p : Forwarded) : Except Fault Bool :=
  if p.routedUp && p.senderRank ≠ 0 then do
    let cmp ← rpl_rank_compare_dagrank_rank d.config.minHopRankIncrease p.senderRank s.currentRank
    pure (cmp ≠ (if p.down then .less else .greater) && p.rankError)
  else pure false

/-- The SenderRank that `rpl_data_exthdr_provider_hbh_2` writes, unless the packet is
dropped. -/
def senderRank (p : Forwarded) : Except Fault (Option UInt16) := do
  match ← s.current with
  | none => pure none
  | some (d, _) => do
      if ← s.dropsForRank d p then pure none
      else if p.sameVersion then some <$> nrpl_dag_rank d.config.minHopRankIncrease s.currentRank
      else pure (some infinite)

end Instance

end Rpl
