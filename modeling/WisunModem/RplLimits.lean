import WisunModem.RplLevels

/-!
# Limits in a selection of MRHOF

What a parent selection by MRHOF makes of the rank: more than the DAGRank of each parent,
no less than the path cost, and no more than the hard limit as long as no candidate slips
through between the hard limit and the greediness limit.
-/

namespace Rpl

open Faults Instance

/-- A version without its greediness limit. -/
def Version.ungreedy (v : Version) : Version := { v with greedinessRankLimit := 0 }

def Dodag.ungreedy (d : Dodag) : Dodag := { d with versions := d.versions.map Version.ungreedy }

namespace Instance

variable {s : Instance}

/-! ## A version that was changed -/

/-- A DODAG with a version changed. -/
def changed (ref : Nat) (f : Version → Version) (d : Dodag) : Dodag :=
  { d with versions := d.versions.map fun v => if v.ref = ref then f v else v }

/-- What a pointer leads to, with a version changed. -/
def changedPair (ref : Nat) (f : Version → Version) (dv : Dodag × Version) : Dodag × Version :=
  (changed ref f dv.1, if dv.2.ref = ref then f dv.2 else dv.2)

theorem versionIn_changed {ref r : Nat} {f : Version → Version} (hf : ∀ v, (f v).ref = v.ref)
    (d : Dodag) : versionIn r (changed ref f d) = (versionIn r d).map (changedPair ref f) := by
  have hpred : ((fun v : Version => decide (v.ref = r)) ∘
      fun v => if v.ref = ref then f v else v) = fun v => decide (v.ref = r) := by
    funext v
    rw [Function.comp_apply]
    split
    · rw [hf]
    · rfl
  unfold versionIn changed
  rw [List.find?_map, hpred, Option.map_map, Option.map_map]
  rfl

/-- A version is found where it was when versions change. -/
theorem version_updateVersion {ref r : Nat} {f : Version → Version}
    (hf : ∀ v, (f v).ref = v.ref) {dv : Dodag × Version} (h : s.version r = .ok dv) :
    (s.updateVersion ref f).version r = .ok (changedPair ref f dv) := by
  have hfind : s.dodags.findSome? (versionIn r) = some dv := by
    unfold version at h
    split at h
    case h_1 dv hdv =>
      cases h
      exact hdv
    case h_2 => cases h
  have hcomp : versionIn r ∘ changed ref f = Option.map (changedPair ref f) ∘ versionIn r :=
    funext fun d => versionIn_changed hf d
  have hchanged : (s.updateVersion ref f).dodags.findSome? (versionIn r) =
      some (changedPair ref f dv) := by
    change (s.dodags.map (changed ref f)).findSome? (versionIn r) = _
    rw [List.findSome?_map, hcomp, ← List.map_findSome?, hfind]
    rfl
  unfold version
  rw [hchanged]

theorem updateVersion_ungreedy (s : Instance) (ref : Nat) (limit : UInt16) :
    (s.updateVersion ref fun v => { v with greedinessRankLimit := limit }).dodags.map
      Dodag.ungreedy = s.dodags.map Dodag.ungreedy := by
  unfold updateVersion
  rw [List.map_map]
  refine List.map_congr_left fun d _ => ?_
  simp only [Function.comp_apply, Dodag.ungreedy, List.map_map]
  congr 1
  refine List.map_congr_left fun v _ => ?_
  rw [Function.comp_apply]
  split <;> rfl

theorem version_congr {t : Instance} (h : t.dodags = s.dodags) (ref : Nat) :
    t.version ref = s.version ref := by
  unfold version
  rw [h]

end Instance

namespace Mrhof

variable {allowed : Fault → Prop} {policy : Policy} {etx : Neighbour → UInt16}
  {s t : Instance}

/-! ## Limits -/

/-- A limit admits the finite ranks up to some DAGRank. -/
def LevelClosed (minHop limit : UInt16) : Prop :=
  ∃ level, ∀ r, r ≠ infinite → (r ≤ limit ↔ dagRank minHop r ≤ level)

/-- No candidate for a backup in this version asks for a finite rank between its hard limit
and its greediness limit. -/
def Capped (policy : Policy) (etx : Neighbour → UInt16) (ns : List Neighbour) (d : Dodag)
    (v : Version) : Prop :=
  ∀ n ∈ ns, n.version = v.ref → rpl_mrhof_neighbour_acceptable policy etx n →
    ∀ rank, backupRank etx d n = .ok rank → rank ≠ infinite →
      rank ≤ v.greedinessRankLimit → rank ≤ v.hardRankLimit

/-! ## The preferred parent -/

/-- The rank through a candidate before the hard limit is looked at. -/
theorem rankThrough_eq (etx : Neighbour → UInt16) (d : Dodag) (v : Version) (n : Neighbour) :
    ∃ rank, rpl_mrhof_path_cost_through_neighbour etx n ≤ rank ∧
      rpl_rank_add n.rank d.config.minHopRankIncrease ≤ rank ∧
      rankThrough etx d v n = if v.hardRankLimit < rank then infinite else rank := by
  refine ⟨_, ?_, ?_, rfl⟩
  all_goals split
  case refine_1.isTrue h => exact UInt16.le_of_lt h
  case refine_1.isFalse => exact UInt16.le_refl _
  case refine_2.isTrue => exact UInt16.le_refl _
  case refine_2.isFalse h => exact UInt16.not_lt.mp h

theorem le_rankThrough (etx : Neighbour → UInt16) (d : Dodag) (v : Version) (n : Neighbour) :
    rpl_mrhof_path_cost_through_neighbour etx n ≤ rankThrough etx d v n ∧
      rpl_rank_add n.rank d.config.minHopRankIncrease ≤ rankThrough etx d v n := by
  obtain ⟨rank, hcost, hmin, heq⟩ := rankThrough_eq etx d v n
  rw [heq]
  split
  · exact ⟨le_infinite _, le_infinite _⟩
  · exact ⟨hcost, hmin⟩

theorem rankThrough_le_hard {d : Dodag} {v : Version} {n : Neighbour}
    (h : rankThrough etx d v n ≠ infinite) : rankThrough etx d v n ≤ v.hardRankLimit := by
  obtain ⟨rank, -, -, heq⟩ := rankThrough_eq etx d v n
  rw [heq] at h ⊢
  split
  case isTrue hlt =>
    rw [if_pos hlt] at h
    exact absurd rfl h
  case isFalse hle => exact UInt16.not_lt.mp hle

/-! ## Backups -/

/-- What a backup asks for is behind its own level. -/
theorem dagRank_lt_backupRank {d : Dodag} {n : Neighbour} {rank : UInt16}
    (hm : d.config.minHopRankIncrease ≠ 0) (h : backupRank etx d n = .ok rank)
    (hfinite : rank ≠ infinite) :
    dagRank d.config.minHopRankIncrease n.rank < dagRank d.config.minHopRankIncrease rank := by
  obtain ⟨rule2, hrule2, -⟩ := rpl_rank_next_level_eq hm n.rank
  have hle : rule2 ≤ rank := by
    unfold backupRank at h
    rw [hrule2] at h
    change Except.ok _ = Except.ok rank at h
    cases h
    split
    · exact UInt16.le_refl _
    case isFalse hnot => exact UInt16.not_lt.mp hnot
  exact (dagRank_lt_next_level hm hrule2 (ne_infinite_of_le hle hfinite)).trans_le
    (dagRank_mono hle)

/-! ## The greediness limit -/

/-- The greediness limit of a version was raised to the level of a rank, if that is behind
it. -/
structure Raised (s : Instance) (ref : Nat) (rank : UInt16) (d : Dodag) (v : Version)
    (t : Instance) : Prop where
  dodags : t.dodags.map Dodag.ungreedy = s.dodags.map Dodag.ungreedy
  candidates : t.candidateNeighbours = s.candidateNeighbours
  of : t.of = s.of
  found : ∃ d' v', t.version ref = .ok (d', v') ∧ d'.config = d.config ∧
    v'.hardRankLimit = v.hardRankLimit ∧ (rank ≠ infinite → rank ≤ v'.greedinessRankLimit ∧
      ∀ r, r ≠ infinite → r ≤ v'.greedinessRankLimit → r ≤ v.greedinessRankLimit ∨
        dagRank d.config.minHopRankIncrease r ≤ dagRank d.config.minHopRankIncrease rank)

theorem meets_raised {ref : Nat} {rank : UInt16} {d : Dodag} {v : Version}
    (hv : s.version ref = .ok (d, v)) (hm : d.config.minHopRankIncrease ≠ 0) :
    Meets allowed (rpl_dodag_version_raise_greediness s ref rank) (Raised s ref rank d v) := by
  unfold rpl_dodag_version_raise_greediness
  rw [hv, meets_bind, meets_ok]
  dsimp only
  split
  case isFalse hle =>
    exact ⟨rfl, rfl, rfl, d, v, hv, rfl, rfl, fun _ =>
      ⟨UInt16.not_lt.mp hle, fun r _ hr => .inl hr⟩⟩
  case isTrue =>
    have hfound : ∀ limit, (s.updateVersion ref fun v =>
        { v with greedinessRankLimit := limit }).version ref =
          .ok (changed ref (fun v => { v with greedinessRankLimit := limit }) d,
            { v with greedinessRankLimit := limit }) := by
      intro limit
      have hchanged := @version_updateVersion s ref ref
        (fun v => { v with greedinessRankLimit := limit }) (fun _ => rfl) _ hv
      rwa [changedPair, if_pos (version_spec hv).2.2] at hchanged
    by_cases hrank : rank = infinite
    · rw [hrank, max_at_level_infinite hm, meets_bind, meets_ok]
      exact ⟨updateVersion_ungreedy .., rfl, rfl, _, _, hfound _, rfl, rfl, fun hne => absurd rfl hne⟩
    · obtain ⟨limit, hlimit, hle, hlevel⟩ := max_at_level_spec hm hrank
      rw [hlimit, meets_bind, meets_ok]
      exact ⟨updateVersion_ungreedy .., rfl, rfl, _, _, hfound _, rfl, rfl, fun _ =>
        ⟨hle, fun r hfinite hr => .inr ((hlevel r hfinite).mp hr)⟩⟩

/-! ## The loop over backups -/

/-- What holds of a selection of parents in version `v`. -/
structure Within (t : Instance) (d : Dodag) (v : Version) (pref : Neighbour) (base : UInt16)
    (sel : Selection) : Prop where
  dodags : sel.inst.dodags = t.dodags
  of : sel.inst.of = t.of
  candidates : ∀ n ∈ sel.inst.candidateNeighbours, n ∈ t.candidateNeighbours
  head : sel.parents.head? = some { pref with dodagParent := true, dodagPref := 0 }
  base : base ≤ sel.rank
  lower : sel.rank ≠ infinite → ∀ n ∈ sel.parents,
    dagRank d.config.minHopRankIncrease n.rank < dagRank d.config.minHopRankIncrease sel.rank
  greedy : sel.rank ≠ infinite → sel.rank ≤ v.greedinessRankLimit
  hard : sel.rank ≠ infinite → sel.rank ≤ v.hardRankLimit
  noExcess : sel.excess = false

theorem le_raised (sel : Selection) (rank : UInt16) :
    sel.rank ≤ raised sel rank ∧ rank ≤ raised sel rank := by
  unfold raised
  split
  case isTrue hlt => exact ⟨UInt16.le_of_lt hlt, UInt16.le_refl _⟩
  case isFalse hnot => exact ⟨UInt16.le_refl _, UInt16.not_lt.mp hnot⟩

theorem raised_le {sel : Selection} {rank limit : UInt16} (h : sel.rank ≤ limit)
    (h' : rank ≤ limit) : raised sel rank ≤ limit := by
  unfold raised
  split
  · exact h'
  · exact h

/-- A backup that is taken leaves the rank within the limits. -/
theorem Within.take {d : Dodag} {v : Version} {pref : Neighbour} {base maxRank : UInt16}
    {sel : Selection} {b : Neighbour × UInt16} (h : Within t d v pref base sel)
    (hm : d.config.minHopRankIncrease ≠ 0) (hv : t.version pref.version = .ok (d, v))
    (hmax : maxRank ≤ v.greedinessRankLimit)
    (hcapped : base ≠ infinite → Capped policy etx t.candidateNeighbours d v)
    (hb : Backup policy etx sel.inst pref maxRank b) (lastPref : Nat) (lastCost : UInt16) :
    Within t d v pref base { sel.take b.1 lastPref with
      rank := raised sel b.2, lastPref := lastPref, lastCost := lastCost } := by
  obtain ⟨d', v', hv', hrank⟩ := hb.rank
  rw [hb.version, version_congr h.dodags, hv] at hv'
  cases hv'
  obtain ⟨hself, hbackup⟩ := le_raised sel b.2
  have hmem := h.candidates b.1 hb.mem
  have hgreedy : b.2 ≤ v.greedinessRankLimit := UInt16.le_trans hb.le hmax
  have hversion : b.1.version = v.ref := hb.version.trans (version_spec hv).2.2.symm
  constructor
  case dodags => exact h.dodags
  case of => exact h.of
  case candidates => exact fun n hn => h.candidates n (List.mem_of_mem_filter hn)
  case head =>
    change (sel.parents ++ _).head? = _
    rw [List.head?_append, h.head]
    rfl
  case base => exact UInt16.le_trans h.base hself
  case lower =>
    intro hfinite n hn
    rcases List.mem_append.mp hn with hn | hn
    · exact (h.lower (ne_infinite_of_le hself hfinite) n hn).trans_le (dagRank_mono hself)
    · obtain rfl := List.mem_singleton.mp hn
      exact (dagRank_lt_backupRank hm hrank (ne_infinite_of_le hbackup hfinite)).trans_le
        (dagRank_mono hbackup)
  case greedy => exact fun hfinite => raised_le (h.greedy (ne_infinite_of_le hself hfinite)) hgreedy
  case hard =>
    intro hfinite
    have hsel := ne_infinite_of_le hself hfinite
    exact raised_le (h.hard hsel) (hcapped (ne_infinite_of_le h.base hsel) b.1 hmem hversion
      hb.acceptable b.2 hrank (ne_infinite_of_le hbackup hfinite) hgreedy)
  case noExcess => exact h.noExcess

/-- A backup within the greediness limit does not raise the rank behind it. -/
theorem Within.not_excess {d : Dodag} {v : Version} {pref : Neighbour} {base maxRank : UInt16}
    {sel : Selection} {b : Neighbour × UInt16} (h : Within t d v pref base sel)
    (hmax : maxRank ≤ v.greedinessRankLimit) (hb : Backup policy etx sel.inst pref maxRank b)
    (hfinite : raised sel b.2 ≠ infinite) : ¬v.greedinessRankLimit < raised sel b.2 :=
  UInt16.not_lt.mpr (raised_le (h.greedy (ne_infinite_of_le (le_raised sel b.2).1 hfinite))
    (UInt16.le_trans hb.le hmax))

/-! ## The selection -/

theorem max_stretched_le_greediness (policy : Policy) (v : Version) (base : UInt16) :
    rpl_mrhof_max_stretched_rank policy v base ≤ v.greedinessRankLimit := by
  unfold rpl_mrhof_max_stretched_rank
  dsimp only
  split
  · exact UInt16.le_refl _
  case isFalse hnot => exact UInt16.not_lt.mp hnot

/-- A node that is no root moves to a version. -/
theorem set_dodag_version_of_not_root {ref : Nat} {rank : UInt16} {d : Dodag} {v : Version}
    (hv : s.version ref = .ok (d, v)) (hroot : d.root = false) :
    s.rpl_instance_set_dodag_version (some ref) rank =
      .ok { s with
        currentRank := if s.rpl_dodag_am_leaf d then infinite else rank
        currentDodagVersion := some ref } := by
  unfold rpl_instance_set_dodag_version
  dsimp only
  rw [hv]
  change (if s.currentDodagVersion = some ref then _ else _) = _
  split
  case isTrue hsame =>
    rw [← hsame]
    rfl
  case isFalse =>
    rw [hroot]
    rfl

/-- What a selection leaves that ends in a version. -/
structure Picked (etx : Neighbour → UInt16) (s : Instance) (r : Instance × Bool) : Prop where
  noExcess : r.2 = false
  dodags : r.1.dodags.map Dodag.ungreedy = s.dodags.map Dodag.ungreedy
  of : r.1.of = s.of
  current : ∀ ref ∈ r.1.currentDodagVersion, ∃ pref d v, r.1.version ref = .ok (d, v) ∧
    r.1.candidateNeighbours.head? = some { pref with dodagParent := true, dodagPref := 0 } ∧
    (r.1.currentRank ≠ infinite → r.1.currentRank ≤ v.hardRankLimit ∧
      rpl_mrhof_path_cost_through_neighbour etx pref ≤ r.1.currentRank ∧
      ∀ n ∈ r.1.candidateNeighbours, n.dodagParent →
        dagRank d.config.minHopRankIncrease n.rank <
          dagRank d.config.minHopRankIncrease r.1.currentRank)

/-- Capped candidates stay so when the greediness limit is raised to a rank below the hard
limit. -/
theorem Raised.capped {ref : Nat} {rank : UInt16} {d d' : Dodag} {v v' : Version}
    (hlevel : LevelClosed d.config.minHopRankIncrease v.hardRankLimit)
    (hrank : rank ≠ infinite → rank ≤ v.hardRankLimit)
    (hv : v.ref = ref) (hv' : v'.ref = ref) (hconfig : d'.config = d.config)
    (hhard : v'.hardRankLimit = v.hardRankLimit)
    (hgreedy : ∀ r, r ≠ infinite → r ≤ v'.greedinessRankLimit → r ≤ v.greedinessRankLimit ∨
      dagRank d.config.minHopRankIncrease r ≤ dagRank d.config.minHopRankIncrease rank)
    (h : Capped policy etx s.candidateNeighbours d v) (hfinite : rank ≠ infinite) :
    Capped policy etx s.candidateNeighbours d' v' := by
  intro n hn hversion hacceptable r hr hne hle
  have hr' : backupRank etx d n = .ok r := by
    unfold backupRank at hr ⊢
    rwa [hconfig] at hr
  rw [hhard]
  rcases hgreedy r hne hle with hold | hbelow
  · exact h n hn (hversion.trans (hv'.trans hv.symm)) hacceptable r hr' hne hold
  · obtain ⟨level, hlevel⟩ := hlevel
    exact (hlevel r hne).mpr (hbelow.trans ((hlevel rank hfinite).mp (hrank hfinite)))

/-- The root flag is not touched by limits. -/
theorem root_of_ungreedy (h : t.dodags.map Dodag.ungreedy = s.dodags.map Dodag.ungreedy)
    (hroot : ∀ d ∈ s.dodags, d.root = false) : ∀ d ∈ t.dodags, d.root = false := by
  intro d hd
  have hmem := List.mem_map_of_mem (f := Dodag.ungreedy) hd
  rw [h] at hmem
  obtain ⟨e, he, heq⟩ := List.mem_map.mp hmem
  have hsame : e.ungreedy.root = d.ungreedy.root := congrArg Dodag.root heq
  exact hsame.symm.trans (hroot e he)

theorem sound_of_all (s : Instance) : Sound (fun _ => True) s where
  distinct := .inl trivial
  neighbours := fun _ _ => .inl trivial
  current := fun _ _ => .inl trivial
  divides := fun _ _ _ => .inl trivial

/-- **Ranks of a selection.**  Where no candidate slips through between the limits, the rank
is within both. -/
theorem meets_picked (hmark : ∀ n ∈ s.candidateNeighbours, n.dodagParent = false)
    (hroot : ∀ d ∈ s.dodags, d.root = false)
    (hm : ∀ d ∈ s.dodags, d.versions ≠ [] → d.config.minHopRankIncrease ≠ 0)
    (hlevel : ∀ d ∈ s.dodags, ∀ v ∈ d.versions,
      LevelClosed d.config.minHopRankIncrease v.hardRankLimit)
    (hcapped : ∀ d ∈ s.dodags, ∀ v ∈ d.versions, Capped policy etx s.candidateNeighbours d v) :
    Meets (fun _ => True) (rpl_mrhof_parent_selection policy etx s) (Picked etx s) := by
  unfold rpl_mrhof_parent_selection
  rw [meets_bind]
  refine (meets_rpl_mrhof_select_best_parent (sound_of_all s)).mono fun found hfound => ?_
  cases found with
  | none => exact ⟨rfl, rfl, rfl, by rintro ref ⟨⟩⟩
  | some best =>
      obtain ⟨v, hv, hrank⟩ := (hfound best rfl).rank
      obtain ⟨hd, hvmem, hvref⟩ := version_spec hv
      have hm' := hm _ hd (List.ne_nil_of_mem hvmem)
      have hlimit : best.rank ≠ infinite → best.rank ≤ v.hardRankLimit := by
        rw [hrank]
        exact rankThrough_le_hard
      dsimp only
      rw [meets_bind]
      refine (meets_raised hv hm').mono fun t ht => ?_
      obtain ⟨d', v', hv', hconfig, hhard, hgreedy⟩ := ht.found
      rw [hv', meets_bind, meets_ok]
      dsimp only
      have hmax := max_stretched_le_greediness policy v' best.rank
      have hmd : d'.config.minHopRankIncrease ≠ 0 := hconfig ▸ hm'
      have hcap : best.rank ≠ infinite → Capped policy etx t.candidateNeighbours d' v' := by
        intro hfinite
        rw [ht.candidates]
        exact Raised.capped (hlevel _ hd _ hvmem) hlimit hvref (version_spec hv').2.2 hconfig hhard
          (hgreedy hfinite).2 (hcapped _ hd _ hvmem) hfinite
      have hstart : Within t d' v' best.neighbour best.rank
          (Selection.take ⟨t, [], best.rank, 0,
            rpl_mrhof_path_cost_through_neighbour etx best.neighbour, false⟩ best.neighbour 0) := by
        constructor
        case dodags => rfl
        case of => rfl
        case candidates => exact fun n hn => List.mem_of_mem_filter hn
        case head => rfl
        case base => exact UInt16.le_refl _
        case lower =>
          intro hfinite n hn
          obtain rfl := List.mem_singleton.mp hn
          have hle := (le_rankThrough etx best.dodag v best.neighbour).2
          rw [← hrank, ← hconfig] at hle
          exact dagRank_lt_of_add_le hmd hfinite hle
        case greedy => exact fun hfinite => (hgreedy hfinite).1
        case hard => exact fun hfinite => hhard ▸ hlimit hfinite
        case noExcess => rfl
      rw [meets_bind]
      refine (meets_selectBackups (Within t d' v' best.neighbour best.rank)
        (fun sel _ => sound_of_all sel.inst)
        (fun sel b h hb hfinite hexcess => absurd hexcess (h.not_excess hmax hb hfinite))
        (fun sel b lastPref lastCost h hb => h.take hmd hv' hmax hcap hb lastPref lastCost)
        _ _ hstart).mono fun sel hsel => ?_
      have hwhole : sel.whole.version best.neighbour.version = .ok (d', v') :=
        (version_congr hsel.dodags _).trans hv'
      have hroot' := root_of_ungreedy ht.dodags hroot d' (version_spec hv').1
      rw [meets_bind]
      change Meets _ (sel.whole.rpl_instance_set_dodag_version _ _) _
      rw [set_dodag_version_of_not_root hwhole hroot', meets_ok, meets_pure]
      refine ⟨hsel.noExcess, (congrArg _ hsel.dodags).trans ht.dodags, hsel.of.trans ht.of, ?_⟩
      rintro ref ⟨⟩
      refine ⟨best.neighbour, d', v', hwhole, ?_, ?_⟩
      · change (sel.parents ++ _).head? = _
        rw [List.head?_append, hsel.head]
        rfl
      dsimp only
      split
      · exact fun hfinite => absurd rfl hfinite
      intro hfinite
      refine ⟨hsel.hard hfinite, ?_, fun n hn hparent => ?_⟩
      · have hcost := (le_rankThrough etx best.dodag v best.neighbour).1
        rw [← hrank] at hcost
        exact UInt16.le_trans hcost hsel.base
      · rcases List.mem_append.mp hn with hn | hn
        · exact hsel.lower hfinite n hn
        · have hmem := hsel.candidates n hn
          rw [ht.candidates] at hmem
          rw [hmark n hmem] at hparent
          cases hparent

end Mrhof

end Rpl
