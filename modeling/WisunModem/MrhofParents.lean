import WisunModem.MrhofChoice
import WisunModem.RplLimits
import Mathlib.Data.List.MinMax

/-!
# The parents MRHOF selects

`rpl_mrhof_parent_selection` as a whole: the preferred parent is the choice among the
candidates that can be reached, and the backups are the cheapest of its version, one after
another.  A rank behind the hard limit of a version is infinite, but it is never compared:
the cheapest candidate is preferred even where another one gives a finite rank.
-/

namespace Rpl

namespace Mrhof

open Faults Instance

section

variable (policy : Policy) (etx : Neighbour → UInt16)

/-! ## The search for the preferred parent -/

/-- The path cost the previous preferred parent is held to. -/
def heldTo (s : Instance) : Option Neighbour → UInt16
  | none => infinite
  | some p =>
      match s.version p.version with
      | .ok (_, v) =>
          if v.hardRankLimit < rpl_mrhof_path_cost_through_neighbour etx p then infinite
          else rpl_mrhof_path_cost_through_neighbour etx p
      | .error _ => infinite

/-- The preferred parent to be. -/
def chosen (s : Instance) : Option Best :=
  choice policy etx (s.rpl_instance_preferred_parent.map (·.ref))
    (heldTo etx s s.rpl_instance_preferred_parent) (reachables etx s)

/-! ## The search for backups -/

/-- A candidate that may be a backup of `pref`. -/
def eligible (pref c : Neighbour) : Bool :=
  c.ref ≠ pref.ref ∧ c.version = pref.version ∧ rpl_mrhof_neighbour_acceptable policy etx c

/-- What a backup asks for. -/
def asks (d : Dodag) (c : Neighbour) : UInt16 :=
  match backupRank etx d c with
  | .ok rank => rank
  | .error _ => infinite

/-- A backup of `pref` that keeps the rank within a limit. -/
def backs (d : Dodag) (pref : Neighbour) (maxRank : UInt16) (c : Neighbour) : Bool :=
  eligible policy etx pref c && decide (asks etx d c ≤ maxRank)

/-- The path cost as a number. -/
def pathCost (c : Neighbour) : Nat := (rpl_mrhof_path_cost_through_neighbour etx c).toNat

/-- The cheapest ones, one after another. -/
def cheapest : Nat → List Neighbour → List Neighbour
  | 0, _ => []
  | more + 1, l =>
      match l.argmin (pathCost etx) with
      | none => []
      | some b => b :: cheapest more (l.filter (·.ref ≠ b.ref))

end

variable {policy : Policy} {etx : Neighbour → UInt16} {s t : Instance}

theorem foldlM_ok {α β ε : Type} {f : β → α → Except ε β} {g : β → α → β} {l : List α}
    (h : ∀ a ∈ l, ∀ b, f b a = .ok (g b a)) (b : β) : l.foldlM f b = .ok (l.foldl g b) := by
  induction l generalizing b with
  | nil => rfl
  | cons a l ih =>
    rw [List.foldlM_cons, h a List.mem_cons_self b]
    exact ih (fun a' ha' => h a' (List.mem_cons_of_mem _ ha')) (g b a)

theorem Sound.version_ok (hs : Sound (fun _ => False) s) {c : Neighbour}
    (hc : c ∈ s.candidateNeighbours) :
    ∃ d v, s.version c.version = .ok (d, v) ∧ d.config.minHopRankIncrease ≠ 0 := by
  have hmem := (hs.neighbours c hc).resolve_left id
  cases hv : s.version c.version with
  | error e => exact absurd hmem (version_eq_error hv).2
  | ok dv => exact ⟨dv.1, dv.2, rfl, (hs.divides_of_version hv).resolve_left id⟩

theorem previousPathCost_eq (hs : Sound (fun _ => False) s) {prev : Option Neighbour}
    (hprev : ∀ p ∈ prev, p ∈ s.candidateNeighbours) :
    previousPathCost etx s prev = .ok (heldTo etx s prev) := by
  cases prev with
  | none => rfl
  | some p =>
    obtain ⟨d, v, hv, -⟩ := Sound.version_ok hs (hprev p rfl)
    simp only [previousPathCost, heldTo, hv]
    rfl

/-- One candidate of the search. -/
theorem considerBest_eq (hs : Sound (fun _ => False) s) {c : Neighbour}
    (hc : c ∈ s.candidateNeighbours) (prevPreferred : Option Nat) (prevPathCost : UInt16)
    (best : Option Best) :
    considerBest policy etx s prevPreferred prevPathCost best c
      = .ok (match reachable etx s c with
        | none => best
        | some b => pick policy etx prevPreferred prevPathCost best b) := by
  obtain ⟨d, v, hv, -⟩ := Sound.version_ok hs hc
  unfold considerBest reachable
  rw [hv]
  change (if linkMetric (etx c) = infinite then pure best else _) = _
  dsimp only
  by_cases hinf : linkMetric (etx c) = infinite
  · rw [if_pos hinf, if_pos hinf]
    rfl
  · rw [if_neg hinf, if_neg hinf]
    cases best with
    | none => rfl
    | some b => rfl

/-- Candidates are told apart by their numbers. -/
theorem reachable_ref {c : Neighbour} {b : Best} (h : reachable etx s c = some b) :
    b.neighbour = c := by
  unfold reachable at h
  split at h
  · split at h
    · cases h
    · cases h
      rfl
  · cases h

theorem previousFirst_reachables (hs : Sound (fun _ => False) s) :
    PreviousFirst (s.rpl_instance_preferred_parent.map (·.ref)) (reachables etx s) := by
  intro b hb
  have hdistinct := hs.distinct.resolve_left id
  unfold reachables at hb
  unfold isPrevious rpl_instance_preferred_parent
  cases hlist : s.candidateNeighbours with
  | nil => 
    rw [hlist] at hb
    cases hb
  | cons n rest =>
    rw [hlist] at hb hdistinct
    have hrest : ∃ c ∈ rest, reachable etx s c = some b := by
      rw [List.filterMap_cons] at hb
      split at hb
      · exact List.mem_filterMap.mp (List.mem_of_mem_tail hb)
      · exact List.mem_filterMap.mp hb
    obtain ⟨c, hc, hreach⟩ := hrest
    rw [List.map_cons, List.nodup_cons] at hdistinct
    have hne : c.ref ≠ n.ref := fun heq => hdistinct.1 (heq ▸ List.mem_map_of_mem hc)
    rw [reachable_ref hreach, List.head?_cons]
    cases hparent : n.dodagParent || n.wasDodagParent with
    | false => simp [Option.filter, hparent]
    | true => simpa [Option.filter, hparent] using hne

/-- **The search ends with the choice.** -/
theorem rpl_mrhof_select_best_parent_eq (hs : Sound (fun _ => False) s) :
    rpl_mrhof_select_best_parent policy etx s s.rpl_instance_preferred_parent
      = .ok (chosen policy etx s) := by
  unfold rpl_mrhof_select_best_parent
  rw [previousPathCost_eq hs fun p hp => rpl_instance_preferred_parent_mem hp]
  refine (foldlM_ok (fun c hc best => considerBest_eq hs hc _ _ best) none).trans ?_
  unfold chosen
  rw [← foldl_pick_eq_choice (previousFirst_reachables hs), reachables, List.foldl_filterMap]
  refine congrArg Except.ok (congrArg (List.foldl · none s.candidateNeighbours) ?_)
  funext best c
  cases reachable etx s c <;> rfl

/-! ## Backups -/

theorem backupRank_eq {d : Dodag} (hm : d.config.minHopRankIncrease ≠ 0) (c : Neighbour) :
    backupRank etx d c = .ok (asks etx d c) := by
  have hmeets : Meets (fun _ => False) (backupRank etx d c) _ := meets_backupRank (.inr hm) c
  unfold asks
  cases hrank : backupRank etx d c with
  | ok rank => rfl
  | error e => exact (hmeets.allowed_of_eq hrank).elim

/-- One candidate of the search for a backup. -/
def takeBackup (policy : Policy) (etx : Neighbour → UInt16) (d : Dodag) (pref : Neighbour)
    (maxRank : UInt16) (best : Option (Neighbour × UInt16)) (c : Neighbour) :
    Option (Neighbour × UInt16) :=
  if backs policy etx d pref maxRank c then
    match best with
    | none => some (c, asks etx d c)
    | some b => if pathCost etx c < pathCost etx b.1 then some (c, asks etx d c) else best
  else best

theorem considerBackup_eq {d : Dodag} {v : Version} {pref c : Neighbour}
    (hv : s.version pref.version = .ok (d, v)) (hm : d.config.minHopRankIncrease ≠ 0)
    (hmark : c.dodagParent = false) (maxRank : UInt16) (best : Option (Neighbour × UInt16)) :
    considerBackup policy etx s pref maxRank best c
      = .ok (takeBackup policy etx d pref maxRank best c) := by
  unfold considerBackup takeBackup backs eligible rpl_mrhof_neighbour_acceptable
  by_cases hother : c.ref = pref.ref ∨ c.dodagParent = true ∨ c.version ≠ pref.version
  · have hnot : ¬ (c.ref ≠ pref.ref ∧ c.version = pref.version ∧
        linkMetric (etx c) ≤ policy.mrhofMaxLinkMetric) := by
      rintro ⟨href, hversion, -⟩
      rcases hother with h | h | h
      · exact href h
      · rw [hmark] at h
        cases h
      · exact h hversion
    rw [if_pos hother]
    simp [hnot]
    rfl
  push Not at hother
  obtain ⟨href, -, hversion⟩ := hother
  rw [if_neg (by simp [href, hmark, hversion]), hversion, hv]
  change (if policy.mrhofMaxLinkMetric < linkMetric (etx c) then pure best else _) = _
  by_cases hmetric : policy.mrhofMaxLinkMetric < linkMetric (etx c)
  · have hnot : ¬ linkMetric (etx c) ≤ policy.mrhofMaxLinkMetric := UInt16.not_le.mpr hmetric
    rw [if_pos hmetric]
    simp [hnot]
    rfl
  rw [if_neg hmetric, backupRank_eq hm c]
  change (if maxRank < asks etx d c then pure best else _) = _
  have hle : linkMetric (etx c) ≤ policy.mrhofMaxLinkMetric := UInt16.not_lt.mp hmetric
  by_cases hrank : maxRank < asks etx d c
  · have hnot : ¬ asks etx d c ≤ maxRank := UInt16.not_le.mpr hrank
    rw [if_pos hrank]
    simp [hnot]
    rfl
  · have hwithin : asks etx d c ≤ maxRank := UInt16.not_lt.mp hrank
    rw [if_neg hrank]
    cases best with
    | none => simp [href, hle, hwithin]; rfl
    | some b => simp [href, hle, hwithin, pathCost, UInt16.lt_iff_toNat_lt]; rfl

/-- **The search for a backup** ends with the first of the cheapest. -/
theorem rpl_mrhof_select_backup_parent_eq {d : Dodag} {v : Version} {pref : Neighbour}
    (hv : s.version pref.version = .ok (d, v)) (hm : d.config.minHopRankIncrease ≠ 0)
    (hmarks : ∀ c ∈ s.candidateNeighbours, c.dodagParent = false) (maxRank : UInt16) :
    rpl_mrhof_select_backup_parent policy etx s pref maxRank
      = .ok (((s.candidateNeighbours.filter (backs policy etx d pref maxRank)).argmin
        (pathCost etx)).map fun c => (c, asks etx d c)) := by
  unfold rpl_mrhof_select_backup_parent
  refine (foldlM_ok (fun c hc best => considerBackup_eq hv hm (hmarks c hc) maxRank best) none).trans
    (congrArg Except.ok ?_)
  have hstep : ∀ (best : Option Neighbour) c,
      takeBackup policy etx d pref maxRank (best.map fun c => (c, asks etx d c)) c
        = (if backs policy etx d pref maxRank c then
            List.argAux (fun b c => pathCost etx b < pathCost etx c) best c
          else best).map fun c => (c, asks etx d c) := by
    intro best c
    unfold takeBackup
    cases hbacks : backs policy etx d pref maxRank c with
    | false => rfl
    | true =>
      cases best with
      | none => rfl
      | some b =>
        simp only [Option.map_some, List.argAux, if_true]
        split <;> rfl
  unfold List.argmin
  rw [List.foldl_filter]
  exact @List.foldl_hom _ _ _ _ _ _ s.candidateNeighbours none hstep

end Mrhof

end Rpl
