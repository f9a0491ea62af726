import WisunModem.Greatest
import WisunModem.RplSelecting

/-!
# The parent MRHOF prefers

The scan of `rpl_mrhof_select_best_parent` compares each candidate with the best one so
far.  What it ends with does not depend on the order but for ties: the highest standing
(an acceptable link, a grounded DODAG, its preference), in it the previous preferred
parent unless another one is cheaper by the threshold, else the lowest path cost.
-/

namespace Rpl

namespace Mrhof

open Faults Greatest

section

variable (policy : Policy) (etx : Neighbour → UInt16)

/-- A candidate that can be reached, with its records. -/
def reachable (s : Instance) (c : Neighbour) : Option Best :=
  match s.version c.version with
  | .ok (d, v) => if linkMetric (etx c) = infinite then none else some ⟨c, d, rankThrough etx d v c⟩
  | .error _ => none

/-- The candidates that can be reached. -/
def reachables (s : Instance) : List Best := s.candidateNeighbours.filterMap (reachable etx s)

/-- What counts before the path cost: link, grounded DODAG and preference. -/
def standing (b : Best) : Nat :=
  16 * (decide (linkMetric (etx b.neighbour) ≤ policy.mrhofMaxLinkMetric)).toNat
    + 8 * (decide (grounded b.dodag.gMopPrf ≠ 0)).toNat + (b.dodag.gMopPrf &&& 0x07).toNat

/-- The path cost as a number. -/
def costOf (b : Best) : Nat := (rpl_mrhof_path_cost_through_neighbour etx b.neighbour).toNat

/-- How far the path cost is below the infinite one. -/
def cheapness (b : Best) : Nat := 65535 - costOf etx b

/-- Cheaper than the previous preferred parent by the threshold. -/
def undercuts (prevPathCost : UInt16) (b : Best) : Bool :=
  rpl_rank_add (rpl_mrhof_path_cost_through_neighbour etx b.neighbour)
    policy.mrhofParentSwitchThreshold ≤ prevPathCost

/-- The most recent one, where the later is compared with the one before. -/
def mostRecent (l : List Best) : Option Best :=
  l.foldl (fun w c =>
    match w with
    | none => some c
    | some w =>
        if c.neighbour.dioTimestamp ≠ w.neighbour.dioTimestamp ∧
            !policy.serialGreater c.neighbour.dioTimestamp w.neighbour.dioTimestamp then some w
        else some c) none

variable (prevPreferred : Option Nat) (prevPathCost : UInt16)

/-- The candidate is the previous preferred parent. -/
def isPrevious (b : Best) : Bool := some b.neighbour.ref = prevPreferred

/-- Those of the highest standing without the previous preferred parent. -/
def others (l : List Best) : List Best :=
  (greatest (standing policy etx) l).filter fun b => !isPrevious prevPreferred b

/-- The cheapest of them, and of these the most recent. -/
def challenger (l : List Best) : Option Best :=
  mostRecent policy (greatest (cheapness etx) (others policy etx prevPreferred l))

/-- **The choice** among candidates that can be reached. -/
def choice (l : List Best) : Option Best :=
  match (greatest (standing policy etx) l).find? (isPrevious prevPreferred) with
  | none => challenger policy etx prevPreferred l
  | some p =>
      if (others policy etx prevPreferred l).any (undercuts policy etx prevPathCost) then
        challenger policy etx prevPreferred l
      else some p

/-- One candidate of the scan. -/
def pick (best : Option Best) (c : Best) : Option Best :=
  match best with
  | none => some c
  | some b =>
      some (if prefers policy etx prevPreferred prevPathCost c.dodag c.neighbour b then c else b)

end

variable {policy : Policy} {etx : Neighbour → UInt16} {prevPreferred : Option Nat}
  {prevPathCost : UInt16} {l : List Best}

/-! ## One comparison -/

set_option maxRecDepth 4000 in
theorem grounded_eq (x : UInt8) : grounded x = 0 ∨ grounded x = 0x80 := by
  have hall : ∀ n < 256, grounded (.ofNat n) = 0 ∨ grounded (.ofNat n) = 0x80 := by decide
  have hx := hall x.toNat x.toNat_lt
  rwa [UInt8.ofNat_toNat] at hx

theorem pref_le (x : UInt8) : (x &&& 0x07).toNat ≤ 7 := by
  rw [UInt8.toNat_and]
  exact Nat.and_le_right

/-- Two candidates whose links are both acceptable or both not. -/
theorem prefers_within (c b : Best)
    (hacc : linkMetric (etx c.neighbour) ≤ policy.mrhofMaxLinkMetric ↔
      linkMetric (etx b.neighbour) ≤ policy.mrhofMaxLinkMetric) :
    prefers policy etx prevPreferred prevPathCost c.dodag c.neighbour b =
      if standing policy etx b < standing policy etx c then true
      else if standing policy etx c < standing policy etx b then false
      else if isPrevious prevPreferred b then undercuts policy etx prevPathCost c
      else if costOf etx c < costOf etx b then true
      else if costOf etx b < costOf etx c then false
      else !(decide (c.neighbour.dioTimestamp ≠ b.neighbour.dioTimestamp) &&
        !policy.serialGreater c.neighbour.dioTimestamp b.neighbour.dioTimestamp) := by
  have hprefc := pref_le c.dodag.gMopPrf
  have hprefb := pref_le b.dodag.gMopPrf
  have hsum : standing policy etx c + 8 * (decide (grounded b.dodag.gMopPrf ≠ 0)).toNat
      + (b.dodag.gMopPrf &&& 0x07).toNat = standing policy etx b
        + 8 * (decide (grounded c.dodag.gMopPrf ≠ 0)).toNat + (c.dodag.gMopPrf &&& 0x07).toNat := by
    simp only [standing, decide_eq_decide.mpr hacc]
    omega
  unfold prefers
  dsimp only
  rw [if_neg fun h => UInt16.not_lt.mpr (hacc.mp h.1) h.2,
    if_neg fun h => UInt16.not_lt.mpr (hacc.mpr h.2) h.1]
  by_cases hground : grounded c.dodag.gMopPrf ≠ grounded b.dodag.gMopPrf
  · -- one of the two DODAGs is grounded
    rw [if_pos hground]
    have hzero : (decide ((0 : UInt8) ≠ 0)).toNat = 0 := by decide
    have hone : (decide ((0x80 : UInt8) ≠ 0)).toNat = 1 := by decide
    rcases grounded_eq c.dodag.gMopPrf with hc | hc <;>
      rcases grounded_eq b.dodag.gMopPrf with hb | hb
    · exact absurd (hc.trans hb.symm) hground
    · rw [hc, hb, hzero, hone] at hsum
      rw [if_neg (by omega), if_pos (by omega), hc]
      rfl
    · rw [hc, hb, hzero, hone] at hsum
      rw [if_pos (by omega), hc]
      rfl
    · exact absurd (hc.trans hb.symm) hground
  rw [if_neg hground]
  rw [not_ne_iff.mp hground] at hsum
  -- the preference of the DODAG
  by_cases heq : c.dodag.gMopPrf &&& 0x07 = b.dodag.gMopPrf &&& 0x07
  · have hcmp : rpl_dodag_pref_compare c.dodag b.dodag = .equal := by
      unfold rpl_dodag_pref_compare
      exact if_pos heq
    rw [heq] at hsum
    have hle : ¬ standing policy etx b < standing policy etx c := by omega
    have hge : ¬ standing policy etx c < standing policy etx b := by omega
    rw [hcmp, if_neg (by decide), if_neg (by decide), if_neg hle, if_neg hge]
    unfold isPrevious undercuts costOf
    by_cases hprev : some b.neighbour.ref = prevPreferred
    · rw [if_pos hprev, if_pos (decide_eq_true hprev)]
    have hnot : ¬ decide (some b.neighbour.ref = prevPreferred) = true := by simpa using hprev
    rw [if_neg hprev, if_neg hnot]
    simp only [UInt16.lt_iff_toNat_lt]
    by_cases htime : c.neighbour.dioTimestamp = b.neighbour.dioTimestamp
    · rw [if_neg (not_not.mpr htime)]
      simp [htime]
    · rw [if_pos htime]
      simp [htime]
  · have hne : (c.dodag.gMopPrf &&& 0x07).toNat ≠ (b.dodag.gMopPrf &&& 0x07).toNat :=
      fun h => heq (UInt8.toNat_inj.mp h)
    by_cases hlt : c.dodag.gMopPrf &&& 0x07 < b.dodag.gMopPrf &&& 0x07
    · have hcmp : rpl_dodag_pref_compare c.dodag b.dodag = .less := by
        unfold rpl_dodag_pref_compare
        dsimp only
        rw [if_neg heq, if_pos hlt]
      rw [UInt8.lt_iff_toNat_lt] at hlt
      rw [hcmp, if_neg (by decide), if_pos rfl, if_neg (by omega), if_pos (by omega)]
    · have hcmp : rpl_dodag_pref_compare c.dodag b.dodag = .greater := by
        unfold rpl_dodag_pref_compare
        dsimp only
        rw [if_neg heq, if_neg hlt]
      rw [UInt8.lt_iff_toNat_lt] at hlt
      rw [hcmp, if_pos rfl, if_pos (by omega)]

/-- A comparison in numbers. -/
theorem prefers_eq (policy : Policy) (etx : Neighbour → UInt16) (prevPreferred : Option Nat)
    (prevPathCost : UInt16) (c b : Best) :
    prefers policy etx prevPreferred prevPathCost c.dodag c.neighbour b =
      if standing policy etx b < standing policy etx c then true
      else if standing policy etx c < standing policy etx b then false
      else if isPrevious prevPreferred b then undercuts policy etx prevPathCost c
      else if costOf etx c < costOf etx b then true
      else if costOf etx b < costOf etx c then false
      else !(decide (c.neighbour.dioTimestamp ≠ b.neighbour.dioTimestamp) &&
        !policy.serialGreater c.neighbour.dioTimestamp b.neighbour.dioTimestamp) := by
  have hprefc := pref_le c.dodag.gMopPrf
  have hprefb := pref_le b.dodag.gMopPrf
  have hgroundedc := (decide (grounded c.dodag.gMopPrf ≠ 0)).toNat_le
  have hgroundedb := (decide (grounded b.dodag.gMopPrf ≠ 0)).toNat_le
  by_cases haccc : linkMetric (etx c.neighbour) ≤ policy.mrhofMaxLinkMetric <;>
    by_cases haccb : linkMetric (etx b.neighbour) ≤ policy.mrhofMaxLinkMetric
  · exact prefers_within c b (iff_of_true haccc haccb)
  · have hlt : standing policy etx b < standing policy etx c := by
      simp only [standing, haccc, haccb, decide_true, decide_false, Bool.toNat_true,
        Bool.toNat_false]
      omega
    unfold prefers
    dsimp only
    rw [if_pos ⟨haccc, UInt16.not_le.mp haccb⟩, if_pos hlt]
  · have hlt : standing policy etx c < standing policy etx b := by
      simp only [standing, haccc, haccb, decide_true, decide_false, Bool.toNat_true,
        Bool.toNat_false]
      omega
    unfold prefers
    dsimp only
    rw [if_neg fun h => haccc h.1, if_pos ⟨UInt16.not_le.mp haccc, haccb⟩, if_neg (by omega),
      if_pos hlt]
  · exact prefers_within c b (iff_of_false haccc haccb)

/-! ## The scan -/

/-- The previous preferred parent is the first of the list, if it is in it. -/
def PreviousFirst (prevPreferred : Option Nat) (l : List Best) : Prop :=
  ∀ b ∈ l.tail, isPrevious prevPreferred b = false

theorem mostRecent_concat (l : List Best) (c : Best) :
    mostRecent policy (l ++ [c])
      = match mostRecent policy l with
        | none => some c
        | some w =>
            if c.neighbour.dioTimestamp ≠ w.neighbour.dioTimestamp ∧
                !policy.serialGreater c.neighbour.dioTimestamp w.neighbour.dioTimestamp then some w
            else some c := by
  unfold mostRecent
  rw [List.foldl_append]
  rfl

theorem mostRecent_singleton (c : Best) : mostRecent policy [c] = some c := rfl

/-- The most recent one is of the list. -/
theorem mostRecent_mem {w : Best} (h : mostRecent policy l = some w) : w ∈ l := by
  induction l using List.reverseRecOn generalizing w with
  | nil => cases h
  | append_singleton l c ih =>
    rw [mostRecent_concat] at h
    cases hl : mostRecent policy l with
    | none =>
      rw [hl] at h
      cases h
      simp
    | some v =>
      rw [hl] at h
      dsimp only at h
      split at h
      · cases h
        exact List.mem_append_left _ (ih hl)
      · cases h
        simp

theorem mostRecent_isSome (hne : l ≠ []) : ∃ w, mostRecent policy l = some w := by
  induction l using List.reverseRecOn with
  | nil => exact absurd rfl hne
  | append_singleton l c _ =>
    rw [mostRecent_concat]
    cases mostRecent policy l with
    | none => exact ⟨c, rfl⟩
    | some v =>
      dsimp only
      split
      · exact ⟨v, rfl⟩
      · exact ⟨c, rfl⟩

/-- The challenger is one of the cheapest others. -/
theorem challenger_mem {w : Best} (h : challenger policy etx prevPreferred l = some w) :
    w ∈ greatest (cheapness etx) (others policy etx prevPreferred l) :=
  mostRecent_mem h

theorem costOf_le (b : Best) : costOf etx b ≤ 65535 := by
  have hlt := (rpl_mrhof_path_cost_through_neighbour etx b.neighbour).toNat_lt
  unfold costOf
  omega

/-- A higher path cost undercuts only if a lower one does. -/
theorem undercuts_mono {b c : Best} (hle : costOf etx c ≤ costOf etx b)
    (h : undercuts policy etx prevPathCost b = true) :
    undercuts policy etx prevPathCost c = true := by
  unfold undercuts costOf at *
  rw [decide_eq_true_eq, UInt16.le_iff_toNat_le, toNat_rank_add] at *
  omega

/-- **One more challenger.**  It is compared by path cost, then by its last DIO. -/
theorem challenger_concat {c w : Best}
    (hothers : others policy etx prevPreferred (l ++ [c]) = others policy etx prevPreferred l ++ [c])
    (hw : challenger policy etx prevPreferred l = some w) :
    challenger policy etx prevPreferred (l ++ [c])
      = if costOf etx c < costOf etx w then some c
        else if costOf etx w < costOf etx c then some w
        else if c.neighbour.dioTimestamp ≠ w.neighbour.dioTimestamp ∧
            !policy.serialGreater c.neighbour.dioTimestamp w.neighbour.dioTimestamp then some w
        else some c := by
  have hmem := challenger_mem hw
  have hlew : costOf etx w ≤ 65535 := costOf_le w
  have hlec : costOf etx c ≤ 65535 := costOf_le c
  unfold challenger at hw ⊢
  rw [hothers, greatest_concat hmem]
  by_cases hless : costOf etx c < costOf etx w
  · rw [if_pos hless, if_pos (by unfold cheapness; omega), mostRecent_singleton]
  rw [if_neg hless, if_neg (by unfold cheapness; omega)]
  by_cases hmore : costOf etx w < costOf etx c
  · rw [if_pos hmore, if_neg (by unfold cheapness; omega), hw]
  · rw [if_neg hmore, if_pos (by unfold cheapness; omega), mostRecent_concat, hw]

/-- Where there are others, one of them is the challenger. -/
theorem challenger_isSome (hne : others policy etx prevPreferred l ≠ []) :
    ∃ w, challenger policy etx prevPreferred l = some w := by
  refine mostRecent_isSome ?_
  rwa [ne_eq, greatest_eq_nil_iff]

/-- The challenger is of the highest standing and not the previous preferred parent. -/
theorem challenger_spec {w : Best} (h : challenger policy etx prevPreferred l = some w) :
    w ∈ greatest (standing policy etx) l ∧ isPrevious prevPreferred w = false := by
  have hmem := (mem_greatest.mp (challenger_mem h)).1
  unfold others at hmem
  obtain ⟨htop, hnot⟩ := List.mem_filter.mp hmem
  exact ⟨htop, by simpa using hnot⟩

/-- The choice is of the highest standing. -/
theorem choice_mem_greatest {w : Best}
    (h : choice policy etx prevPreferred prevPathCost l = some w) :
    w ∈ greatest (standing policy etx) l := by
  unfold choice at h
  split at h
  · exact (challenger_spec h).1
  · next p hfind =>
    split at h
    · exact (challenger_spec h).1
    · obtain rfl : p = w := Option.some.inj h
      exact List.mem_of_find?_eq_some hfind

/-- A candidate alone is chosen. -/
theorem choice_singleton (policy : Policy) (etx : Neighbour → UInt16)
    (prevPreferred : Option Nat) (prevPathCost : UInt16) (c : Best) :
    choice policy etx prevPreferred prevPathCost [c] = some c := by
  unfold choice challenger others
  rw [greatest_singleton]
  cases hprev : isPrevious prevPreferred c with
  | true => simp [hprev]
  | false => simp [hprev, mostRecent_singleton]

/-- A candidate of a standing of its own is chosen. -/
theorem choice_of_greatest {c : Best} (htop : greatest (standing policy etx) l = [c]) :
    choice policy etx prevPreferred prevPathCost l = some c := by
  have hone := choice_singleton policy etx prevPreferred prevPathCost c
  unfold choice challenger others at *
  rw [greatest_singleton] at hone
  rw [htop]
  exact hone

/-- Where there is a candidate, one is chosen. -/
theorem choice_isSome (policy : Policy) (etx : Neighbour → UInt16) (prevPreferred : Option Nat)
    (prevPathCost : UInt16) (hne : l ≠ []) :
    ∃ w, choice policy etx prevPreferred prevPathCost l = some w := by
  obtain ⟨b, hb⟩ := exists_mem_greatest (f := standing policy etx) hne
  unfold choice
  cases hprev : (greatest (standing policy etx) l).find? (isPrevious prevPreferred) with
  | none =>
    refine challenger_isSome (List.ne_nil_of_mem (a := b) ?_)
    unfold others
    refine List.mem_filter.mpr ⟨hb, ?_⟩
    have hnot := List.find?_eq_none.mp hprev b hb
    simpa using hnot
  | some p =>
    dsimp only
    by_cases hany : (others policy etx prevPreferred l).any (undercuts policy etx prevPathCost) = true
    · rw [if_pos hany]
      refine challenger_isSome fun hnil => ?_
      rw [hnil] at hany
      cases hany
    · rw [if_neg hany]
      exact ⟨p, rfl⟩

/-- Candidates below the highest standing do not count. -/
theorem choice_congr {l' : List Best}
    (htop : greatest (standing policy etx) l' = greatest (standing policy etx) l) :
    choice policy etx prevPreferred prevPathCost l'
      = choice policy etx prevPreferred prevPathCost l := by
  unfold choice challenger others
  rw [htop]

/-- A candidate that is compared with a challenger of its standing. -/
theorem pick_challenger {c w : Best}
    (hsame : standing policy etx c = standing policy etx w)
    (hothers : others policy etx prevPreferred (l ++ [c]) = others policy etx prevPreferred l ++ [c])
    (hw : challenger policy etx prevPreferred l = some w) :
    pick policy etx prevPreferred prevPathCost (some w) c
      = challenger policy etx prevPreferred (l ++ [c]) := by
  have hnot := (challenger_spec hw).2
  have hprefers := prefers_eq policy etx prevPreferred prevPathCost c w
  rw [if_neg (by omega), if_neg (by omega), hnot, if_neg (by decide)] at hprefers
  rw [challenger_concat hothers hw, pick, hprefers]
  by_cases hless : costOf etx c < costOf etx w
  · rw [if_pos hless, if_pos hless, if_pos rfl]
  by_cases hmore : costOf etx w < costOf etx c
  · rw [if_neg hless, if_pos hmore, if_neg hless, if_pos hmore, if_neg (by decide)]
  rw [if_neg hless, if_neg hmore, if_neg hless, if_neg hmore]
  by_cases htime : c.neighbour.dioTimestamp ≠ w.neighbour.dioTimestamp ∧
      !policy.serialGreater c.neighbour.dioTimestamp w.neighbour.dioTimestamp
  · rw [if_pos htime]
    simp [htime]
  · rw [if_neg htime]
    have hflag : (!(decide (c.neighbour.dioTimestamp ≠ w.neighbour.dioTimestamp) &&
        !policy.serialGreater c.neighbour.dioTimestamp w.neighbour.dioTimestamp)) = true := by
      simpa [or_iff_not_imp_left] using htime
    rw [hflag, if_pos rfl]

/-- **One more candidate** behind the first. -/
theorem choice_concat {c w : Best} (hc : isPrevious prevPreferred c = false)
    (hw : choice policy etx prevPreferred prevPathCost l = some w) :
    choice policy etx prevPreferred prevPathCost (l ++ [c])
        = pick policy etx prevPreferred prevPathCost (some w) c := by
  have htop := choice_mem_greatest hw
  have hconcat := greatest_concat htop c
  have hprefers := prefers_eq policy etx prevPreferred prevPathCost c w
  by_cases hhigher : standing policy etx w < standing policy etx c
  · rw [if_pos hhigher] at hconcat hprefers
    rw [choice_of_greatest hconcat, pick, hprefers, if_pos rfl]
  rw [if_neg hhigher] at hconcat hprefers
  by_cases hsame : standing policy etx c = standing policy etx w
  · rw [if_pos hsame] at hconcat
    rw [if_neg (by omega)] at hprefers
    have hothers : others policy etx prevPreferred (l ++ [c])
        = others policy etx prevPreferred l ++ [c] := by
      unfold others
      rw [hconcat, List.filter_append]
      simp [hc]
    have hfind : (greatest (standing policy etx) (l ++ [c])).find? (isPrevious prevPreferred)
        = (greatest (standing policy etx) l).find? (isPrevious prevPreferred) := by
      rw [hconcat, List.find?_append]
      simp [hc]
    unfold choice at hw ⊢
    rw [hfind]
    cases hprev : (greatest (standing policy etx) l).find? (isPrevious prevPreferred) with
    | none =>
      rw [hprev] at hw
      exact (pick_challenger hsame hothers hw).symm
    | some p =>
      rw [hprev] at hw
      dsimp only at hw ⊢
      rw [hothers, List.any_append]
      by_cases hany : (others policy etx prevPreferred l).any (undercuts policy etx prevPathCost) = true
      · rw [if_pos hany] at hw
        rw [hany, Bool.true_or, if_pos rfl]
        exact (pick_challenger hsame hothers hw).symm
      -- the previous preferred parent was kept so far
      rw [if_neg hany] at hw
      obtain rfl : p = w := Option.some.inj hw
      have hp : isPrevious prevPreferred p = true := List.find?_some hprev
      rw [if_pos hp] at hprefers
      rw [pick, hprefers, Bool.eq_false_of_not_eq_true hany, Bool.false_or]
      cases hunder : undercuts policy etx prevPathCost c with
      | false => simp [hunder]
      | true =>
        have hnew : challenger policy etx prevPreferred (l ++ [c]) = some c := by
          by_cases hnil : others policy etx prevPreferred l = []
          · unfold challenger
            rw [hothers, hnil, List.nil_append, greatest_singleton, mostRecent_singleton]
          · obtain ⟨v, hv⟩ := challenger_isSome hnil
            have hless : costOf etx c < costOf etx v := by
              by_contra hle
              have hvunder := undercuts_mono (Nat.le_of_not_lt hle) hunder
              have hvmem := (mem_greatest.mp (challenger_mem hv)).1
              exact hany (List.any_eq_true.mpr ⟨v, hvmem, hvunder⟩)
            rw [challenger_concat hothers hv, if_pos hless]
        simp [hunder, hnew]
  · rw [if_neg hsame] at hconcat
    rw [if_pos (by omega)] at hprefers
    rw [choice_congr hconcat, hw, pick, hprefers, if_neg (by decide)]

/-- **The scan ends with the choice.** -/
theorem foldl_pick_eq_choice (hfirst : PreviousFirst prevPreferred l) :
    l.foldl (pick policy etx prevPreferred prevPathCost) none
      = choice policy etx prevPreferred prevPathCost l := by
  induction l using List.reverseRecOn with
  | nil => rfl
  | append_singleton l c ih =>
    by_cases hnil : l = []
    · subst hnil
      exact (choice_singleton policy etx prevPreferred prevPathCost c).symm
    have hc : isPrevious prevPreferred c = false := by
      refine hfirst c ?_
      rw [List.tail_append_of_ne_nil hnil]
      exact List.mem_append_right _ (List.mem_singleton_self c)
    have hfirst' : PreviousFirst prevPreferred l := by
      intro b hb
      refine hfirst b ?_
      rw [List.tail_append_of_ne_nil hnil]
      exact List.mem_append_left _ hb
    obtain ⟨w, hw⟩ := choice_isSome policy etx prevPreferred prevPathCost hnil
    rw [List.foldl_append, ih hfirst', hw, choice_concat hc hw]
    rfl

end Mrhof

end Rpl
