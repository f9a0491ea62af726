import WisunModem.MrhofSelection

/-!
# What a selection by MRHOF is for

The candidates come out with the parents in front; the parents share a version and have
acceptable links, the previous preferred parent is kept within the hysteresis, and the rank
is finite where a candidate gives one.  The last fails where the preferred parent is the
cheapest one but its rank is behind the hard limit of its version.
-/

namespace Rpl

namespace Mrhof

open Faults Greatest Instance

/-- The state in which `rpl_instance_run_parent_selection` enters the selection: pointers
lead to records, and the parents are those of before. -/
structure Ready (s : Instance) : Prop where
  sound : Sound (fun _ => False) s
  unmarked : ∀ n ∈ s.candidateNeighbours, n.dodagParent = false

section

variable (policy : Policy) (etx : Neighbour → UInt16) (s : Instance)

/-- The previous preferred parent `p` may be left: it cannot be reached, one of a higher
standing can be, one of its standing is cheaper by the threshold, or its own path cost is
infinite or behind the hard limit of its version. -/
def MayLeave (p : Neighbour) : Prop :=
  ∀ b, reachable etx s p = some b →
    (∃ c ∈ reachables etx s, standing policy etx b < standing policy etx c) ∨
    (∃ c ∈ reachables etx s, c.neighbour.ref ≠ p.ref ∧
      standing policy etx c = standing policy etx b ∧
      costOf etx c + policy.mrhofParentSwitchThreshold.toNat ≤ costOf etx b) ∨
    rpl_mrhof_path_cost_through_neighbour etx p = infinite ∨
    ∃ d v, s.version p.version = .ok (d, v) ∧
      v.hardRankLimit < rpl_mrhof_path_cost_through_neighbour etx p

/-- A candidate with an acceptable link and a rank within the hard limit of its version. -/
def Fits (c : Neighbour) : Prop :=
  rpl_mrhof_neighbour_acceptable policy etx c = true ∧
    ∃ d v, s.version c.version = .ok (d, v) ∧ rankThrough etx d v c ≠ infinite

/-- **What a selection is for.**  The rank of a leaf is infinite by design. -/
structure Outcome (t : Instance) : Prop where
  perm : (t.candidateNeighbours.map Neighbour.unmarked).Perm
    (s.candidateNeighbours.map Neighbour.unmarked)
  first : t.candidateNeighbours.filter (·.dodagParent) <+: t.candidateNeighbours
  size : (t.candidateNeighbours.filter (·.dodagParent)).length ≤ policy.mrhofMoreSuccessors + 1
  version : ∀ p ∈ t.candidateNeighbours, p.dodagParent = true →
    ∃ w, t.rpl_instance_preferred_parent = some w ∧ w.dodagParent = true ∧ p.version = w.version
  acceptable : ∀ p ∈ t.candidateNeighbours, p.dodagParent = true →
    rpl_mrhof_neighbour_acceptable policy etx p = true ∨
      t.rpl_instance_preferred_parent = some p ∧
        ∀ c ∈ s.candidateNeighbours, rpl_mrhof_neighbour_acceptable policy etx c = false
  kept : ∀ p, s.rpl_instance_preferred_parent = some p → ¬ MayLeave policy etx s p →
    t.rpl_instance_preferred_parent.map (·.ref) = some p.ref
  rank : (∃ c ∈ s.candidateNeighbours, Fits policy etx s c) → t.currentRank ≠ infinite ∨
    ∃ d v, t.current = .ok (some (d, v)) ∧ t.rpl_dodag_am_leaf d = true

/-- The selection ends with its outcome. -/
def Selects : Prop :=
  ∃ t excess, rpl_mrhof_parent_selection policy etx s = .ok (t, excess) ∧ Outcome policy etx s t

/-- The version with the greediness limit for a preferred parent of this rank. -/
def greedier (d : Dodag) (v : Version) (rank : UInt16) : Version :=
  if v.greedinessRankLimit < rank then
    match rpl_rank_max_at_level d.config.minHopRankIncrease rank with
    | .ok limit => { v with greedinessRankLimit := limit }
    | .error _ => v
  else v

/-- The rank of the preferred parent is finite, and no backup raises it to infinity. -/
def StaysFinite (w : Best) (d : Dodag) (v : Version) : Prop :=
  w.rank ≠ infinite ∧
    ∀ b ∈ cheapest etx policy.mrhofMoreSuccessors (s.candidateNeighbours.filter
      (backs policy etx d w.neighbour
        (rpl_mrhof_max_stretched_rank policy (greedier d v w.rank) w.rank))),
      asks etx d b ≠ infinite

/-- **The condition.**  No candidate fits, or the preferred parent to be has a finite rank
that the cheapest backups leave finite, or the node is a leaf of its DODAG. -/
def RankHolds : Prop :=
  (∀ c ∈ s.candidateNeighbours, ¬ Fits policy etx s c) ∨
    ∃ w d v, chosen policy etx s = some w ∧ s.version w.neighbour.version = .ok (d, v) ∧
      (s.rpl_dodag_am_leaf d = true ∨ StaysFinite policy etx s w d v)

end

variable {policy : Policy} {etx : Neighbour → UInt16} {link : Nat → Nat → UInt16}
  {s : Instance}

/-! ## The preferred parent -/

/-- The preferred parent to be is a candidate of the highest standing. -/
theorem chosen_spec {w : Best} (h : chosen policy etx s = some w) :
    w.neighbour ∈ s.candidateNeighbours ∧ reachable etx s w.neighbour = some w ∧
      ∀ b ∈ reachables etx s, standing policy etx b ≤ standing policy etx w := by
  obtain ⟨hmem, hgreatest⟩ := mem_greatest.mp (choice_mem_greatest h)
  unfold reachables at hmem
  obtain ⟨c, hc, hreach⟩ := List.mem_filterMap.mp hmem
  obtain rfl := reachable_ref hreach
  exact ⟨hc, hreach, hgreatest⟩

theorem reachable_some {b : Best} {c : Neighbour} (h : reachable etx s c = some b) :
    linkMetric (etx c) ≠ infinite ∧
      ∃ d v, s.version c.version = .ok (d, v) ∧ b = ⟨c, d, rankThrough etx d v c⟩ := by
  unfold reachable at h
  split at h
  · next d v hv =>
    split at h
    · cases h
    · next hne => exact ⟨hne, d, v, hv, (Option.some.inj h).symm⟩
  · cases h

/-- A candidate that can be reached is among those that can. -/
theorem exists_reachable (hs : Sound (fun _ => False) s) {c : Neighbour}
    (hc : c ∈ s.candidateNeighbours) (hne : linkMetric (etx c) ≠ infinite) :
    ∃ b ∈ reachables etx s, b.neighbour = c := by
  obtain ⟨d, v, hv, -⟩ := Sound.version_ok hs hc
  have hreach : reachable etx s c = some ⟨c, d, rankThrough etx d v c⟩ := by
    unfold reachable
    rw [hv]
    exact if_neg hne
  exact ⟨_, List.mem_filterMap.mpr ⟨c, hc, hreach⟩, rfl⟩

/-- A candidate that fits can be reached. -/
theorem Fits.reached (c : Neighbour) (h : Fits policy etx s c) : linkMetric (etx c) ≠ infinite := by
  obtain ⟨-, d, v, -, hfinite⟩ := h
  intro hinf
  refine hfinite (UInt16.le_antisymm (le_infinite _) ?_)
  refine UInt16.le_trans ?_ (le_rankThrough etx d v c).1
  rw [UInt16.le_iff_toNat_le, rpl_mrhof_path_cost_through_neighbour, hinf, toNat_rank_add,
    toNat_infinite]
  omega

/-- The link of the preferred parent is acceptable, unless no link is. -/
theorem chosen_acceptable (hs : Sound (fun _ => False) s) {w : Best}
    (h : chosen policy etx s = some w) :
    rpl_mrhof_neighbour_acceptable policy etx w.neighbour = true ∨
      ∀ c ∈ s.candidateNeighbours, rpl_mrhof_neighbour_acceptable policy etx c = false := by
  obtain ⟨-, -, hgreatest⟩ := chosen_spec h
  refine or_iff_not_imp_left.mpr fun hnot c hc => ?_
  unfold rpl_mrhof_neighbour_acceptable at hnot ⊢
  rw [decide_eq_true_eq] at hnot
  rw [decide_eq_false_iff_not]
  intro hacc
  have hne : linkMetric (etx c) ≠ infinite := fun hinf =>
    hnot (UInt16.le_trans (le_infinite _) (hinf ▸ hacc))
  obtain ⟨b, hb, rfl⟩ := exists_reachable hs hc hne
  have hle := hgreatest b hb
  have hprefw := pref_le w.dodag.gMopPrf
  have hgroundedw := (decide (grounded w.dodag.gMopPrf ≠ 0)).toNat_le
  simp only [standing, hacc, hnot, decide_true, decide_false, Bool.toNat_true,
    Bool.toNat_false] at hle
  omega

/-- **The previous preferred parent is kept** unless it may be left. -/
theorem chosen_of_stays {p : Neighbour} (hp : s.rpl_instance_preferred_parent = some p) (hstays : ¬ MayLeave policy etx s p) :
    ∃ w, chosen policy etx s = some w ∧ w.neighbour.ref = p.ref := by
  unfold MayLeave at hstays
  push Not at hstays
  obtain ⟨b, hreach, hhigh, hcheap, hfinite, hlimit⟩ := hstays
  have hpmem := rpl_instance_preferred_parent_mem hp
  obtain ⟨-, d, v, hv, rfl⟩ := reachable_some hreach
  have hb : ⟨p, d, rankThrough etx d v p⟩ ∈ greatest (standing policy etx) (reachables etx s) :=
    mem_greatest.mpr ⟨List.mem_filterMap.mpr ⟨p, hpmem, hreach⟩, hhigh⟩
  have hheld : heldTo etx s (some p) = rpl_mrhof_path_cost_through_neighbour etx p := by
    simp only [heldTo, hv]
    exact if_neg (hlimit d v hv)
  unfold chosen choice
  rw [hp, Option.map_some, hheld]
  cases hfind : (greatest (standing policy etx) (reachables etx s)).find?
      (isPrevious (some p.ref)) with
  | none =>
    have hnot := List.find?_eq_none.mp hfind _ hb
    simp [isPrevious] at hnot
  | some q =>
    have hq : isPrevious (some p.ref) q = true := List.find?_some hfind
    have hany : (others policy etx (some p.ref) (reachables etx s)).any
        (undercuts policy etx (rpl_mrhof_path_cost_through_neighbour etx p)) = false := by
      refine List.any_eq_false.mpr fun c hc hunder => ?_
      unfold others at hc
      obtain ⟨htop, hother⟩ := List.mem_filter.mp hc
      have hne : c.neighbour.ref ≠ p.ref := by simpa [isPrevious] using hother
      have hlt := hcheap c (mem_greatest.mp htop).1 hne (eq_of_mem_greatest htop hb)
      have hbound := lt_infinite hfinite
      unfold undercuts at hunder
      rw [decide_eq_true_eq, UInt16.le_iff_toNat_le, toNat_rank_add] at hunder
      dsimp only [costOf] at hlt
      omega
    refine ⟨q, ?_, by simpa [isPrevious] using hq⟩
    dsimp only
    rw [hany]
    rfl

/-! ## The version of the preferred parent -/

theorem asks_congr {d d' : Dodag} (h : d'.config = d.config) (c : Neighbour) :
    asks etx d' c = asks etx d c := by
  unfold asks backupRank
  rw [h]

theorem backs_congr {d d' : Dodag} (h : d'.config = d.config) (pref : Neighbour)
    (maxRank : UInt16) : backs policy etx d' pref maxRank = backs policy etx d pref maxRank := by
  funext c
  unfold backs
  rw [asks_congr h]

/-- The preferred parent is not a backup of itself. -/
theorem filter_backs_others (d : Dodag) (pref : Neighbour) (maxRank : UInt16)
    (l : List Neighbour) :
    (l.filter (·.ref ≠ pref.ref)).filter (backs policy etx d pref maxRank)
      = l.filter (backs policy etx d pref maxRank) := by
  rw [List.filter_filter]
  refine List.filter_congr fun c _ => ?_
  unfold backs eligible
  by_cases href : c.ref = pref.ref <;> simp [href]

/-- The greediness limit is raised in the version of the preferred parent only. -/
theorem raise_greediness_ok {ref : Nat} {d : Dodag} {v : Version}
    (hv : s.version ref = .ok (d, v)) (hm : d.config.minHopRankIncrease ≠ 0) (rank : UInt16) :
    ∃ s' d', rpl_dodag_version_raise_greediness s ref rank = .ok s' ∧ Kept s s' ∧
      s'.candidateNeighbours = s.candidateNeighbours ∧ s'.forceLeaf = s.forceLeaf ∧
      s'.version ref = .ok (d', greedier d v rank) ∧ d'.config = d.config ∧ d'.leaf = d.leaf := by
  unfold rpl_dodag_version_raise_greediness greedier
  rw [hv]
  change ∃ s' d', (if v.greedinessRankLimit < rank then _ else _) = _ ∧ _
  by_cases hlt : v.greedinessRankLimit < rank
  · obtain ⟨limit, hlimit, -⟩ := rpl_rank_max_at_level_eq hm rank
    rw [if_pos hlt, if_pos hlt, hlimit]
    have hchanged := @version_updateVersion s ref ref
      (fun v => { v with greedinessRankLimit := limit }) (fun _ => rfl) _ hv
    rw [changedPair, if_pos (version_spec hv).2.2] at hchanged
    exact ⟨_, _, rfl, .updateVersion fun _ _ _ => rfl, rfl, rfl, hchanged, rfl, rfl⟩
  · rw [if_neg hlt, if_neg hlt]
    exact ⟨s, d, rfl, .rfl, rfl, rfl, hv, rfl, rfl⟩

/-- The stretched rank is within the greediness limit. -/
theorem max_stretched_le (policy : Policy) (v : Version) (rank : UInt16) :
    rpl_mrhof_max_stretched_rank policy v rank ≤ v.greedinessRankLimit := by
  unfold rpl_mrhof_max_stretched_rank
  dsimp only
  split
  · exact UInt16.le_refl _
  · next hnot => exact UInt16.not_lt.mp hnot

/-- The last step keeps the candidates, but for the marks in a DODAG of one's own. -/
theorem set_dodag_version_ok {ref : Nat} {d : Dodag} {v : Version}
    (hv : s.version ref = .ok (d, v)) (rank : UInt16) :
    ∃ t, s.rpl_instance_set_dodag_version (some ref) rank = .ok t ∧
      t.currentRank = (if s.rpl_dodag_am_leaf d then infinite else rank) ∧
      t.current = .ok (some (d, v)) ∧ t.rpl_dodag_am_leaf d = s.rpl_dodag_am_leaf d ∧
      (t.candidateNeighbours = s.candidateNeighbours ∨
        t.candidateNeighbours
          = s.candidateNeighbours.map fun n => { n with dodagParent := false }) := by
  have hcurrent : ∀ t : Instance, t.currentDodagVersion = some ref → t.dodags = s.dodags →
      t.current = .ok (some (d, v)) := by
    intro t ht hdodags
    unfold current
    rw [ht]
    dsimp only
    rw [version_congr hdodags, hv]
    rfl
  unfold rpl_instance_set_dodag_version
  dsimp only
  rw [hv]
  change ∃ t, (if s.currentDodagVersion = some ref then _ else _) = _ ∧ _
  by_cases hsame : s.currentDodagVersion = some ref
  · rw [if_pos hsame]
    exact ⟨_, rfl, rfl, hcurrent _ hsame rfl, rfl, .inl rfl⟩
  rw [if_neg hsame]
  refine ⟨_, rfl, ?_⟩
  cases d.root with
  | true => exact ⟨rfl, hcurrent _ rfl rfl, rfl, .inr rfl⟩
  | false => exact ⟨rfl, hcurrent _ rfl rfl, rfl, .inl rfl⟩

/-! ## A whole selection -/

/-- What a selection with a preferred parent ends with. -/
structure Ended (policy : Policy) (link : Nat → Nat → UInt16) (s : Instance) (w : Best)
    (d : Dodag) (v : Version) (sel : Selection) (t : Instance) : Prop where
  gathered : ∃ s', s'.candidateNeighbours = s.candidateNeighbours ∧
    Gathered policy link s' w.neighbour sel
  size : sel.parents.length ≤ policy.mrhofMoreSuccessors + 1
  rank : t.currentRank = if s.rpl_dodag_am_leaf d then infinite else sel.rank
  finite : sel.rank ≠ infinite ↔ StaysFinite policy (linkEtx link) s w d v
  current : ∃ d' v', t.current = .ok (some (d', v')) ∧
    t.rpl_dodag_am_leaf d' = s.rpl_dodag_am_leaf d
  candidates : t.candidateNeighbours = sel.whole.candidateNeighbours ∨
    t.candidateNeighbours
      = sel.whole.candidateNeighbours.map fun n => { n with dodagParent := false }

theorem ends_selection (hready : Ready s) {w : Best} (hw : chosen policy (linkEtx link) s = some w)
    {d : Dodag} {v : Version} (hv : s.version w.neighbour.version = .ok (d, v)) :
    ∃ sel t, rpl_mrhof_parent_selection policy (linkEtx link) s = .ok (t, sel.excess) ∧
      Ended policy link s w d v sel t := by
  obtain ⟨hmem, -, -⟩ := chosen_spec hw
  have hm : d.config.minHopRankIncrease ≠ 0 :=
    (hready.sound.divides_of_version hv).resolve_left id
  obtain ⟨s', d', hraise, hkept, hcands, hforce, hv', hconfig, hleaf⟩ :=
    raise_greediness_ok hv hm w.rank
  have hsound := hkept.sound hready.sound
  have hm' : d'.config.minHopRankIncrease ≠ 0 := by rwa [hconfig]
  have hstart : Gathered policy link s' w.neighbour (Selection.take ⟨s', [], w.rank, 0,
      rpl_mrhof_path_cost_through_neighbour (linkEtx link) w.neighbour, false⟩ w.neighbour 0) :=
    Gathered.start hsound (hcands ▸ hmem) (hcands ▸ hready.unmarked) _ _
  obtain ⟨sel, hloop, hgathered, hsize, hfinite⟩ := ends_selectBackups hsound hv' hm'
    (max_stretched_le policy (greedier d v w.rank) w.rank) policy.mrhofMoreSuccessors _ hstart
  have hlookup : sel.whole.version w.neighbour.version = .ok (d', greedier d v w.rank) := by
    rw [← hv']
    refine version_congr ?_ _
    change sel.inst.dodags = _
    rw [hgathered.inst]
  obtain ⟨t, hset, hrank, hcurrent, hsame, hcandidates⟩ := set_dodag_version_ok hlookup sel.rank
  have hleafs : sel.whole.rpl_dodag_am_leaf d' = s.rpl_dodag_am_leaf d := by
    have hforced : sel.inst.forceLeaf = s'.forceLeaf := by rw [hgathered.inst]
    unfold rpl_dodag_am_leaf
    rw [hleaf, ← hforce, ← hforced]
    rfl
  refine ⟨sel, t, ?_, ⟨s', hcands, hgathered⟩, by simpa [Selection.take, Nat.add_comm] using hsize,
    hleafs ▸ hrank, ?_, ⟨d', _, hcurrent, hsame.trans hleafs⟩, hcandidates⟩
  · unfold rpl_mrhof_parent_selection
    rw [rpl_mrhof_select_best_parent_eq hready.sound, hw]
    simp only [bind, Except.bind, hraise, hv']
    rw [hloop]
    simp only
    rw [← Selection.whole, hset]
    rfl
  · rw [hfinite]
    change (w.rank ≠ infinite ∧ ∀ b ∈ cheapest _ _ (List.filter _ (List.filter _
      s'.candidateNeighbours)), _) ↔ _
    rw [backs_congr hconfig, filter_backs_others, hcands]
    simp only [asks_congr hconfig]
    rfl

/-- The parents are those in front. -/
theorem Gathered.filter_parents {w : Neighbour} {sel : Selection}
    (h : Gathered policy link s w sel) :
    sel.whole.candidateNeighbours.filter (·.dodagParent) = sel.parents := by
  obtain ⟨backups, hparents, hbackups⟩ := h.parents
  have hfront : sel.parents.filter (·.dodagParent) = sel.parents := by
    refine List.filter_eq_self.mpr fun p hp => ?_
    rw [hparents] at hp
    rcases List.mem_cons.mp hp with rfl | hp
    · rfl
    · exact (hbackups p hp).1
  have hback : sel.inst.candidateNeighbours.filter (·.dodagParent) = [] :=
    List.filter_eq_nil_iff.mpr fun n hn => by simp [h.unmarked n hn]
  rw [Selection.whole, List.filter_append, hfront, hback, List.append_nil]

/-- **The outcome but for the rank.** -/
theorem Ended.outcome (hready : Ready s) {w : Best} (hw : chosen policy (linkEtx link) s = some w)
    {d : Dodag} {v : Version} {sel : Selection} {t : Instance}
    (h : Ended policy link s w d v sel t)
    (hrank : (∃ c ∈ s.candidateNeighbours, Fits policy (linkEtx link) s c) →
      t.currentRank ≠ infinite ∨ ∃ d v, t.current = .ok (some (d, v)) ∧
        t.rpl_dodag_am_leaf d = true) :
    Outcome policy (linkEtx link) s t := by
  obtain ⟨s', hcands, hgathered⟩ := h.gathered
  obtain ⟨backups, hparents, hbackups⟩ := hgathered.parents
  have hfilter := hgathered.filter_parents
  have hperm := hgathered.perm
  rw [hcands] at hperm
  rcases h.candidates with hmarked | hunmarked
  · -- the parents are marked
    have hpreferred : t.rpl_instance_preferred_parent
        = some { w.neighbour with dodagParent := true, dodagPref := 0 } := by
      unfold rpl_instance_preferred_parent
      rw [hmarked, Selection.whole, hparents]
      rfl
    have hmem : ∀ p ∈ t.candidateNeighbours, p.dodagParent = true →
        p = { w.neighbour with dodagParent := true, dodagPref := 0 } ∨ p ∈ backups := by
      intro p hp hparent
      have hin : p ∈ sel.parents := by
        rw [← hfilter, ← hmarked]
        exact List.mem_filter.mpr ⟨hp, hparent⟩
      rw [hparents] at hin
      exact List.mem_cons.mp hin
    refine ⟨hmarked ▸ hperm, ?_, ?_, fun p hp hparent => ⟨_, hpreferred, rfl, ?_⟩,
      fun p hp hparent => ?_, fun p hp hstays => ?_, hrank⟩
    · rw [hmarked, hfilter]
      exact List.prefix_append _ _
    · rw [hmarked, hfilter]
      exact h.size
    · rcases hmem p hp hparent with rfl | hin
      · rfl
      · exact (hbackups p hin).2.1
    · rcases hmem p hp hparent with rfl | hin
      · rcases chosen_acceptable hready.sound hw with hacc | hnone
        · exact .inl hacc
        · exact .inr ⟨hpreferred, hnone⟩
      · exact .inl (hbackups p hin).2.2
    · obtain ⟨w', hw', href⟩ := chosen_of_stays hp hstays
      rw [hw] at hw'
      cases hw'
      rw [hpreferred, Option.map_some, ← href]
  · -- in a DODAG of one's own no candidate is a parent
    have hnone : ∀ p ∈ t.candidateNeighbours, ¬ p.dodagParent = true := by
      intro p hp
      rw [hunmarked] at hp
      obtain ⟨n, -, rfl⟩ := List.mem_map.mp hp
      simp
    have hnil : t.candidateNeighbours.filter (·.dodagParent) = [] :=
      List.filter_eq_nil_iff.mpr hnone
    refine ⟨?_, ?_, ?_, fun p hp hparent => absurd hparent (hnone p hp),
      fun p hp hparent => absurd hparent (hnone p hp), fun p hp hstays => ?_, hrank⟩
    · rw [hunmarked, List.map_map]
      exact hperm
    · rw [hnil]
      exact List.nil_prefix
    · rw [hnil]
      exact Nat.zero_le _
    · obtain ⟨w', hw', href⟩ := chosen_of_stays hp hstays
      rw [hw] at hw'
      cases hw'
      have hsame : w.neighbour = p := List.inj_on_of_nodup_map
        (hready.sound.distinct.resolve_left id) (chosen_spec hw).1
        (rpl_instance_preferred_parent_mem hp) href
      have hwas : p.wasDodagParent = true := by
        have hparent := (Option.filter_eq_some_iff.mp hp).2
        rwa [hready.unmarked p (rpl_instance_preferred_parent_mem hp), Bool.false_or] at hparent
      unfold rpl_instance_preferred_parent
      rw [hunmarked, Selection.whole, hparents, List.cons_append, List.map_cons, List.head?_cons,
        hsame]
      simp [Option.filter, hwas]

/-- Where nothing can be reached, the candidates are left as they are. -/
theorem selects_of_none (hready : Ready s) (hnone : chosen policy etx s = none) :
    (∀ c ∈ s.candidateNeighbours, ¬ Fits policy etx s c) ∧ Selects policy etx s := by
  have hnil : reachables etx s = [] := by
    by_contra hne
    obtain ⟨w, hw⟩ := choice_isSome policy etx (s.rpl_instance_preferred_parent.map (·.ref))
      (heldTo etx s s.rpl_instance_preferred_parent) hne
    cases hnone.symm.trans hw
  have hfits : ∀ c ∈ s.candidateNeighbours, ¬ Fits policy etx s c := by
    intro c hc hfit
    obtain ⟨b, hb, -⟩ := exists_reachable hready.sound hc (Fits.reached c hfit)
    rw [hnil] at hb
    cases hb
  refine ⟨hfits, { s with currentRank := infinite, currentDodagVersion := none }, false, ?_, ?_⟩
  · unfold rpl_mrhof_parent_selection
    rw [rpl_mrhof_select_best_parent_eq hready.sound, hnone]
    rfl
  have hparents : ∀ p ∈ s.candidateNeighbours, ¬ p.dodagParent = true :=
    fun p hp => by simp [hready.unmarked p hp]
  have hfilter : s.candidateNeighbours.filter (·.dodagParent) = [] :=
    List.filter_eq_nil_iff.mpr hparents
  refine ⟨.refl _, ?_, ?_, fun p hp hparent => absurd hparent (hparents p hp),
    fun p hp hparent => absurd hparent (hparents p hp), fun p hp _ => ?_,
    fun ⟨c, hc, hfit⟩ => absurd hfit (hfits c hc)⟩
  · exact hfilter ▸ List.nil_prefix
  · exact hfilter ▸ Nat.zero_le _
  · exact congrArg (Option.map (·.ref)) hp

def mixedPolicy : Policy where
  mrhofMaxLinkMetric := 512
  mrhofParentSwitchThreshold := 192
  mrhofMoreSuccessors := 1
  mrhofMaxRankStretch := 512
  of0RankFactor := 1
  of0StretchOfRank := 0
  of0MaxBackupSuccessors := 0
  of0PreferenceSupersedesGrounded := false
  serialGreater := fun a b => b < a

/-- A candidate of rank `rank` in a version. -/
def mixedCandidate (ref version : Nat) (rank : UInt16) : Neighbour where
  ref := ref
  version := version
  llAddress := ref
  interfaceId := 1
  dodagParent := false
  wasDodagParent := false
  considered := true
  dodagPref := 0
  gMopPrf := 0x88
  dtsn := 240
  rank := rank
  dioTimestamp := 0

/-- A DODAG with two versions: the ranks in the older one are limited to 400. -/
def mixedDodag : Dodag where
  ref := 1
  id := 1
  gMopPrf := 0x88
  config := ⟨false, 0, 128, 1, 255, 60⟩
  root := false
  wasRoot := false
  leaf := false
  haveConfig := true
  versions := [⟨3, 241, infinite, infinite, infinite, infinite⟩,
    ⟨2, 240, 300, 300, 400, infinite⟩]

/-- A candidate of rank 300 in the older version and one of rank 400 in the newer. -/
def mixed : Instance where
  dodags := [mixedDodag]
  candidateNeighbours := [mixedCandidate 4 2 300, mixedCandidate 5 3 400]
  currentDodagVersion := some 2
  currentRank := 300
  of := some .mrhof
  localRepair := false
  parentWasSelected := true
  forceLeaf := false
  poisonCount := 0
  fresh := 6

theorem mixed_ready : Ready mixed where
  sound := {
    distinct := .inr (by decide)
    neighbours := fun n hn => .inr (by revert n; decide)
    current := fun ref href => .inr (by revert ref; decide)
    divides := fun d hd _ => .inr (by revert d; decide) }
  unmarked := by decide

end Mrhof

end Rpl
