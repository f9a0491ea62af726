import WisunModem.RplRecords

/-!
# Parent selection by MRHOF

`rpl_mrhof.c`: the parent with the lowest path cost, then backups in the same DODAG
version that do not raise the rank beyond a stretched limit.  The candidates of an
instance are put back with the parents in front.
-/

namespace Rpl

/-- What `rpl_policy.c` and the libraries answer to the objective functions. -/
structure Policy where
  mrhofMaxLinkMetric : UInt16
  mrhofParentSwitchThreshold : UInt16
  mrhofMoreSuccessors : Nat
  mrhofMaxRankStretch : UInt16
  of0RankFactor : UInt8
  of0StretchOfRank : UInt8
  of0MaxBackupSuccessors : Nat
  of0PreferenceSupersedesGrounded : Bool
  /-- `common_serial_number_greater_32`. -/
  serialGreater : UInt32 → UInt32 → Bool

/-- `RPL_GROUNDED`. -/
def grounded (gMopPrf : UInt8) : UInt8 := gMopPrf &&& 0x80

/-- `rpl_dodag_pref_compare`. -/
def rpl_dodag_pref_compare (a b : Dodag) : Cmp :=
  let prefA := a.gMopPrf &&& 0x07
  let prefB := b.gMopPrf &&& 0x07
  if prefA = prefB then .equal else if prefA < prefB then .less else .greater

namespace Mrhof

/-- The ETX of a link in RFC 6551 form from what `etx_read` gives. -/
def linkMetric (etx88 : UInt16) : UInt16 :=
  if etx88 = 0 then 2 * 128
  else if etx88 = 1 then 128
  else if etx88 = 0xffff then infinite
  else etx88 >>> 1

section

variable (policy : Policy) (etx : Neighbour → UInt16)

def rpl_mrhof_path_cost_through_neighbour (n : Neighbour) : UInt16 :=
  rpl_rank_add n.rank (linkMetric (etx n))

def rpl_mrhof_neighbour_acceptable (n : Neighbour) : Bool :=
  linkMetric (etx n) ≤ policy.mrhofMaxLinkMetric

/-- The rank through a candidate: the path cost, at least a hop more than the candidate,
and infinite behind the hard limit. -/
def rankThrough (d : Dodag) (v : Version) (n : Neighbour) : UInt16 :=
  let pathCost := rpl_mrhof_path_cost_through_neighbour etx n
  let minRank := rpl_rank_add n.rank d.config.minHopRankIncrease
  let rank := if pathCost < minRank then minRank else pathCost
  if v.hardRankLimit < rank then infinite else rank

/-- The best candidate so far, with its records. -/
structure Best where
  neighbour : Neighbour
  dodag : Dodag
  rank : UInt16

/-- Whether candidate `c` takes the place of the best one. -/
def prefers (prevPreferred : Option Nat) (prevPathCost : UInt16) (d : Dodag) (c : Neighbour)
    (best : Best) : Bool :=
  let metric := linkMetric (etx c)
  let bestMetric := linkMetric (etx best.neighbour)
  let pathCost := rpl_mrhof_path_cost_through_neighbour etx c
  let bestPathCost := rpl_mrhof_path_cost_through_neighbour etx best.neighbour
  if metric ≤ policy.mrhofMaxLinkMetric ∧ policy.mrhofMaxLinkMetric < bestMetric then true
  else if policy.mrhofMaxLinkMetric < metric ∧ bestMetric ≤ policy.mrhofMaxLinkMetric then false
  else if grounded d.gMopPrf ≠ grounded best.dodag.gMopPrf then grounded d.gMopPrf ≠ 0
  else if rpl_dodag_pref_compare d best.dodag = .greater then true
  else if rpl_dodag_pref_compare d best.dodag = .less then false
  else if some best.neighbour.ref = prevPreferred then
    rpl_rank_add pathCost policy.mrhofParentSwitchThreshold ≤ prevPathCost
  else if pathCost < bestPathCost then true
  else if bestPathCost < pathCost then false
  else if c.dioTimestamp ≠ best.neighbour.dioTimestamp then
    policy.serialGreater c.dioTimestamp best.neighbour.dioTimestamp
  else true

/-- The path cost the previous preferred parent is held to, infinite behind the hard
limit. -/
def previousPathCost (s : Instance) : Option Neighbour → Except Fault UInt16
  | none => pure infinite
  | some n => do
      let (_, v) ← s.version n.version
      let pathCost := rpl_mrhof_path_cost_through_neighbour etx n
      pure (if v.hardRankLimit < pathCost then infinite else pathCost)

/-- One candidate of the search for the preferred parent. -/
def considerBest (s : Instance) (prevPreferred : Option Nat) (prevPathCost : UInt16)
    (best : Option Best) (c : Neighbour) : Except Fault (Option Best) := do
  let (d, v) ← s.version c.version
  if linkMetric (etx c) = infinite then pure best
  else
    let candidate : Best := ⟨c, d, rankThrough etx d v c⟩
    match best with
    | none => pure (some candidate)
    | some b =>
        pure (some (if prefers policy etx prevPreferred prevPathCost d c b then candidate else b))

def rpl_mrhof_select_best_parent (s : Instance) (prevPreferred : Option Neighbour) :
    Except Fault (Option Best) := do
  let prevPathCost ← previousPathCost etx s prevPreferred
  s.candidateNeighbours.foldlM
    (considerBest policy etx s (prevPreferred.map (·.ref)) prevPathCost) none

/-- The rank a backup asks for: behind its own level, and its path cost less
`DAGMaxRankIncrease`. -/
def backupRank (d : Dodag) (n : Neighbour) : Except Fault UInt16 := do
  let rule2 ← rpl_rank_next_level d.config.minHopRankIncrease n.rank
  let rule3 := rpl_rank_sub (rpl_mrhof_path_cost_through_neighbour etx n)
    d.config.dagMaxRankIncrease
  pure (if rule3 < rule2 then rule2 else rule3)

/-- One candidate of the search for a backup in the version of the preferred parent. -/
def considerBackup (s : Instance) (pref : Neighbour) (maxRank : UInt16)
    (best : Option (Neighbour × UInt16)) (c : Neighbour) :
    Except Fault (Option (Neighbour × UInt16)) := do
  if c.ref = pref.ref ∨ c.dodagParent ∨ c.version ≠ pref.version then pure best
  else
    let (d, _) ← s.version c.version
    if policy.mrhofMaxLinkMetric < linkMetric (etx c) then pure best
    else
      let rank ← backupRank etx d c
      if maxRank < rank then pure best
      else
        match best with
        | none => pure (some (c, rank))
        | some (b, _) =>
            pure (if rpl_mrhof_path_cost_through_neighbour etx c <
                rpl_mrhof_path_cost_through_neighbour etx b then some (c, rank) else best)

def rpl_mrhof_select_backup_parent (s : Instance) (pref : Neighbour) (maxRank : UInt16) :
    Except Fault (Option (Neighbour × UInt16)) :=
  s.candidateNeighbours.foldlM (considerBackup policy etx s pref maxRank) none

/-- `rpl_dodag_version_raise_greediness`. -/
def rpl_dodag_version_raise_greediness (s : Instance) (version : Nat) (prefRank : UInt16) :
    Except Fault Instance := do
  let (d, v) ← s.version version
  if v.greedinessRankLimit < prefRank then do
    let limit ← rpl_rank_max_at_level d.config.minHopRankIncrease prefRank
    pure (s.updateVersion version fun v => { v with greedinessRankLimit := limit })
  else pure s

def rpl_mrhof_max_stretched_rank (v : Version) (baseRank : UInt16) : UInt16 :=
  let stretched := rpl_rank_add baseRank policy.mrhofMaxRankStretch
  if v.greedinessRankLimit < stretched then v.greedinessRankLimit else stretched

/-- A selection in progress: what is left of the candidates is in `inst`. -/
structure Selection where
  inst : Instance
  parents : List Neighbour
  rank : UInt16
  lastPref : Nat
  lastCost : UInt16
  /-- The branch "Rank excess during stretch" was taken. -/
  excess : Bool

/-- Move a candidate to the end of the parent list. -/
def Selection.take (sel : Selection) (n : Neighbour) (pref : Nat) : Selection :=
  { sel with
    inst := { sel.inst with candidateNeighbours :=
      sel.inst.candidateNeighbours.filter (·.ref ≠ n.ref) }
    parents := sel.parents ++ [{ n with dodagParent := true, dodagPref := pref }] }

/-- The loop over more successors. -/
def selectBackups (pref : Neighbour) (v : Version) (maxRank : UInt16) :
    Nat → Selection → Except Fault Selection
  | 0, sel => pure sel
  | more + 1, sel => do
      match ← rpl_mrhof_select_backup_parent policy etx sel.inst pref maxRank with
      | none => pure sel
      | some (backup, backupRank) =>
          let rank := if sel.rank < backupRank then backupRank else sel.rank
          if rank ≠ infinite ∧ v.greedinessRankLimit < rank then
            pure { sel with rank := v.greedinessRankLimit, excess := true }
          else
            let cost := rpl_mrhof_path_cost_through_neighbour etx backup
            let worse := decide (sel.lastCost < cost ∧ sel.lastPref < 15)
            let lastPref := if worse then sel.lastPref + 1 else sel.lastPref
            selectBackups pref v maxRank more
              { sel.take backup lastPref with
                rank := rank
                lastPref := lastPref
                lastCost := if worse then cost else sel.lastCost }

/-- `rpl_mrhof_parent_selection`; the flag is that of the selection. -/
def rpl_mrhof_parent_selection (s : Instance) : Except Fault (Instance × Bool) := do
  match ← rpl_mrhof_select_best_parent policy etx s s.rpl_instance_preferred_parent with
  | none => do
      let t ← s.rpl_instance_set_dodag_version none infinite
      pure (t, false)
  | some best => do
      let pref := best.neighbour
      let s ← rpl_dodag_version_raise_greediness s pref.version best.rank
      let (_, v) ← s.version pref.version
      let start : Selection := {
        inst := s
        parents := []
        rank := best.rank
        lastPref := 0
        lastCost := rpl_mrhof_path_cost_through_neighbour etx pref
        excess := false }
      let maxRank := rpl_mrhof_max_stretched_rank policy v best.rank
      let sel ← selectBackups policy etx pref v maxRank policy.mrhofMoreSuccessors
        (start.take pref 0)
      let t := { sel.inst with candidateNeighbours :=
        sel.parents ++ sel.inst.candidateNeighbours }
      let t ← t.rpl_instance_set_dodag_version (some pref.version) sel.rank
      pure (t, sel.excess)

end

end Mrhof

end Rpl
