import WisunModem.RplMrhof

/-!
# Parent selection by OF0

`rpl_of0.c`: the preferred parent goes by link quality, grounded DODAGs, preference,
version and rank, and a backup is a neighbour of lower DAGRank in the same DODAG.
-/

namespace Rpl

namespace Of0

/-- The thresholds of the steps of rank. -/
def etxThresholds : List UInt16 :=
  [0x100, 0x108, 0x110, 0x120, 0x140, 0x180, 0x200, 0x400, 0xfffe]

/-- `rpl_of0_step_of_rank`: 3 where the ETX is not known, 10 where it is infinite. -/
def stepOfRank (etx88 : UInt16) : UInt8 :=
  if etx88 < 0x100 then 3 else UInt8.ofNat (1 + (etxThresholds.takeWhile (· < etx88)).length)

/-- `MAXIMUM_STEP_OF_RANK`. -/
def maximumStep : UInt8 := 9

/-- `SUITABLE_STEP_OF_RANK`. -/
def suitableStep : UInt8 := 8

section

variable (policy : Policy) (etx : Neighbour → UInt16)

def rpl_of0_neighbour_acceptable (n : Neighbour) : Bool := stepOfRank (etx n) ≤ suitableStep

def rpl_of0_rank_increase (d : Dodag) (n : Neighbour) : UInt16 :=
  let step := stepOfRank (etx n)
  if maximumStep < step then infinite
  else policy.of0RankFactor.toUInt16 * step.toUInt16 * d.config.minHopRankIncrease

def rpl_of0_rank_through_neighbour (d : Dodag) (n : Neighbour) : UInt16 :=
  rpl_rank_add n.rank (rpl_of0_rank_increase policy etx d n)

def rpl_of0_max_stretched_rank (d : Dodag) (v : Version) (pref : Neighbour) : UInt16 :=
  let stretched := rpl_rank_add (rpl_of0_rank_through_neighbour policy etx d pref)
    (policy.of0StretchOfRank.toUInt16 * d.config.minHopRankIncrease)
  if v.greedinessRankLimit < stretched then v.greedinessRankLimit else stretched

/-- Whether candidate `c` takes the place of the best backup. -/
def prefersBackup (d : Dodag) (c best : Neighbour) : Except Fault Bool := do
  let cmp ← rpl_rank_compare d.config.minHopRankIncrease c.rank best.rank
  if cmp = .less then pure true
  else if cmp = .greater then pure false
  else
    let step := stepOfRank (etx c)
    let bestStep := stepOfRank (etx best)
    if step ≤ suitableStep ∧ suitableStep < bestStep then pure true
    else if suitableStep < step ∧ bestStep ≤ suitableStep then pure false
    else pure (c.wasDodagParent && !best.wasDodagParent)

/-- One candidate of the search for a backup. -/
def considerBackup (s : Instance) (pref : Neighbour) (maxRank : UInt16) (best : Option Neighbour)
    (c : Neighbour) : Except Fault (Option Neighbour) := do
  if c.ref = pref.ref ∨ c.dodagParent then pure best
  else
    let (d, v) ← s.version c.version
    let (dPref, vPref) ← s.version pref.version
    if d.ref ≠ dPref.ref then pure best
    else
      let order := rpl_seq_compare v.number vPref.number
      if order ≠ .greater ∧ order ≠ .equal then pure best
      else
        let cmp ← rpl_rank_compare d.config.minHopRankIncrease c.rank maxRank
        if cmp ≠ .less then pure best
        else if maximumStep < stepOfRank (etx c) then pure best
        else
          match best with
          | none => pure (some c)
          | some b => do
              let takes ← prefersBackup etx d c b
              pure (if takes then some c else best)

def rpl_of0_select_backup_parent (s : Instance) (pref : Neighbour) (maxRank : UInt16) :
    Except Fault (Option Neighbour) :=
  s.candidateNeighbours.foldlM (considerBackup etx s pref maxRank) none

/-- The best candidate so far, with its records. -/
structure Best where
  neighbour : Neighbour
  dodag : Dodag
  version : Version
  rank : UInt16
  backup : Option Neighbour

/-- The order of two DODAGs by preference and by being grounded: whether the candidate's
comes first, or last. -/
def compareDodags (d best : Dodag) : Option Bool :=
  let cmp := rpl_dodag_pref_compare d best
  let byPref := if cmp = .greater then some true else if cmp = .less then some false else none
  let byGround :=
    if grounded d.gMopPrf ≠ grounded best.gMopPrf then some (decide (grounded d.gMopPrf ≠ 0))
    else none
  if policy.of0PreferenceSupersedesGrounded then byPref <|> byGround else byGround <|> byPref

/-- Rules 8 to 11: rank, backup, the previous parent and the latest DIO. -/
def prefersByRank (prevPreferred : Option Nat) (c best : Best) : Except Fault Bool := do
  let cmp ← rpl_rank_compare c.dodag.config.minHopRankIncrease c.rank best.rank
  if cmp = .less then pure true
  else if cmp = .greater then pure false
  else if c.backup.isSome && best.backup.isNone then pure true
  else if c.backup.isNone && best.backup.isSome then pure false
  else if some c.neighbour.ref = prevPreferred then pure true
  else if some best.neighbour.ref = prevPreferred then pure false
  else if c.neighbour.dioTimestamp ≠ best.neighbour.dioTimestamp then
    pure (policy.serialGreater c.neighbour.dioTimestamp best.neighbour.dioTimestamp)
  else pure true

/-- Whether candidate `c` takes the place of the best one. -/
def prefers (prevPreferred : Option Nat) (c best : Best) : Except Fault Bool :=
  let step := stepOfRank (etx c.neighbour)
  let bestStep := stepOfRank (etx best.neighbour)
  if step ≤ suitableStep ∧ suitableStep < bestStep then pure true
  else if suitableStep < step ∧ bestStep ≤ suitableStep then pure false
  else
    match compareDodags policy c.dodag best.dodag with
    | some answer => pure answer
    | none =>
        let order := rpl_seq_compare c.version.number best.version.number
        if c.dodag.ref = best.dodag.ref ∧ order = .greater then pure true
        else if c.dodag.ref = best.dodag.ref ∧ order = .less then pure false
        else prefersByRank policy prevPreferred c best

/-- One candidate of the search for the preferred parent. -/
def considerBest (s : Instance) (prevPreferred : Option Nat) (best : Option Best)
    (c : Neighbour) : Except Fault (Option Best) := do
  let (d, v) ← s.version c.version
  if maximumStep < stepOfRank (etx c) then pure best
  else
    let through := rpl_of0_rank_through_neighbour policy etx d c
    let backup ← rpl_of0_select_backup_parent etx s c (rpl_of0_max_stretched_rank policy etx d v c)
    let candidate : Best :=
      ⟨c, d, v, if v.hardRankLimit < through then infinite else through, backup⟩
    match best with
    | none => pure (some candidate)
    | some b => do
        let takes ← prefers policy etx prevPreferred candidate b
        pure (some (if takes then candidate else b))

def rpl_of0_select_preferred_parent (s : Instance) (prevPreferred : Option Neighbour) :
    Except Fault (Option Best) :=
  s.candidateNeighbours.foldlM
    (considerBest policy etx s (prevPreferred.map (·.ref))) none

/-- The rank with a backup, which compares as `cmp` with the rank so far: behind the level
of the backup unless it is less. -/
def rankWith (d : Dodag) (backupRank : UInt16) (cmp : Cmp) (rank : UInt16) :
    Except Fault UInt16 :=
  if cmp = .greater ∨ cmp = .equal then
    rpl_rank_next_level d.config.minHopRankIncrease backupRank
  else pure rank

/-- The loop over backups; `more` counts down as `more_successors` does. -/
def takeBackups (pref : Neighbour) (d : Dodag) (v : Version) (maxRank : UInt16) :
    Nat → Option Neighbour → Mrhof.Selection → Except Fault Mrhof.Selection
  | 0, _, sel => pure sel
  | _ + 1, none, sel => pure sel
  | more + 1, some backup, sel => do
      let cmp ← rpl_rank_compare d.config.minHopRankIncrease backup.rank sel.rank
      let rank ← rankWith d backup.rank cmp sel.rank
      if (cmp = .greater ∨ cmp = .equal) ∧ rank ≠ infinite ∧ v.greedinessRankLimit < rank then
        pure { sel with rank := v.greedinessRankLimit, excess := true }
      else
        let cost := rpl_of0_rank_through_neighbour policy etx d backup
        let differs := decide (cost ≠ sel.lastCost ∧ sel.lastPref < 15)
        let lastPref := if differs then sel.lastPref + 1 else sel.lastPref
        let sel := { sel.take backup lastPref with
          rank := rank
          lastPref := lastPref
          lastCost := if differs then cost else sel.lastCost }
        if more = 0 then pure sel
        else
          let next ← rpl_of0_select_backup_parent etx sel.inst pref maxRank
          takeBackups pref d v maxRank more next sel

/-- `rpl_of0_parent_selection`. -/
def rpl_of0_parent_selection (s : Instance) : Except Fault (Instance × Bool) := do
  match ← rpl_of0_select_preferred_parent policy etx s s.rpl_instance_preferred_parent with
  | none => do
      let t ← s.rpl_instance_set_dodag_version none infinite
      pure (t, false)
  | some best => do
      let pref := best.neighbour
      let s ← Mrhof.rpl_dodag_version_raise_greediness s pref.version best.rank
      let (d, v) ← s.version pref.version
      let start : Mrhof.Selection := {
        inst := s
        parents := []
        rank := best.rank
        lastPref := 0
        lastCost := best.rank
        excess := false }
      let maxRank := rpl_of0_max_stretched_rank policy etx d v pref
      let sel ← takeBackups policy etx pref d v maxRank policy.of0MaxBackupSuccessors
        best.backup (start.take pref 0)
      let t := { sel.inst with candidateNeighbours :=
        sel.parents ++ sel.inst.candidateNeighbours }
      let t ← t.rpl_instance_set_dodag_version (some pref.version) sel.rank
      pure (t, sel.excess)

end

end Of0

end Rpl
