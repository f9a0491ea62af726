import WisunModem.RplKept

/-!
# The objective functions and the records

Both objective functions follow pointers to versions of candidates only, and leave
everything but marks, order, ranks and the current version as it was.
-/

namespace Rpl

open Faults Instance

variable {allowed : Fault → Prop} {s : Instance}

namespace Instance

theorem rpl_instance_preferred_parent_mem {n : Neighbour}
    (h : n ∈ s.rpl_instance_preferred_parent) : n ∈ s.candidateNeighbours := by
  unfold rpl_instance_preferred_parent at h
  exact List.mem_of_mem_head? (Option.filter_eq_some_iff.mp h).1

/-! ## The current version -/

/-- `t` is `s` with version `ref` as the current one. -/
structure Moved (s : Instance) (ref : Nat) (rank : UInt16) (t : Instance) : Prop where
  dodags : t.dodags = s.dodags
  fresh : t.fresh = s.fresh
  current : t.currentDodagVersion = some ref
  rank : t.currentRank = rank ∨ t.currentRank = infinite
  keys : t.candidateNeighbours.map Neighbour.key = s.candidateNeighbours.map Neighbour.key
  neighbours : ∀ n ∈ t.candidateNeighbours,
    n ∈ s.candidateNeighbours ∨ ∃ m ∈ s.candidateNeighbours, n = { m with dodagParent := false }

theorem meets_rpl_instance_set_dodag_version {ref : Nat} (rank : UInt16)
    (h : allowed .freed ∨ ref ∈ s.versionRefs) :
    Meets allowed (s.rpl_instance_set_dodag_version (some ref) rank) (Moved s ref rank) := by
  unfold rpl_instance_set_dodag_version
  rw [meets_bind]
  refine meets_version h fun d v _ => ?_
  have hrank : (if s.rpl_dodag_am_leaf d then infinite else rank) = rank ∨
      (if s.rpl_dodag_am_leaf d then infinite else rank) = infinite := by
    split
    · exact .inr rfl
    · exact .inl rfl
  dsimp only
  split
  case isTrue hsame => exact ⟨rfl, rfl, hsame, hrank, rfl, fun n hn => .inl hn⟩
  case isFalse =>
    rw [meets_pure]
    split
    · refine ⟨rfl, rfl, rfl, hrank, List.map_map, fun n hn => ?_⟩
      obtain ⟨m, hm, rfl⟩ := List.mem_map.mp hn
      exact .inr ⟨m, hm, rfl⟩
    · exact ⟨rfl, rfl, rfl, hrank, rfl, fun n hn => .inl hn⟩

/-- Moving to the version of a neighbour keeps the records. -/
theorem Moved.kept {t : Instance} {ref : Nat} {rank : UInt16} (h : Moved s ref rank t)
    (hmem : ∃ m ∈ s.candidateNeighbours, m.version = ref) : Kept s t where
  dodags := congrArg _ h.dodags
  neighbours := h.keys ▸ .refl _
  current := by
    intro r hr
    rw [h.current] at hr
    cases hr
    exact .inr hmem
  fresh := h.fresh

end Instance

namespace Mrhof

variable {policy : Policy} {etx : Neighbour → UInt16}

/-! ## MRHOF -/

/-- A candidate with the records and the rank that belong to it. -/
structure Chosen (etx : Neighbour → UInt16) (s : Instance) (b : Best) : Prop where
  mem : b.neighbour ∈ s.candidateNeighbours
  rank : ∃ v, s.version b.neighbour.version = .ok (b.dodag, v) ∧
    b.rank = rankThrough etx b.dodag v b.neighbour

theorem meets_previousPathCost (hs : Sound allowed s) {prev : Option Neighbour}
    (hprev : ∀ n ∈ prev, n ∈ s.candidateNeighbours) :
    Meets allowed (previousPathCost etx s prev) fun _ => True := by
  cases prev with
  | none => trivial
  | some n =>
      unfold previousPathCost
      rw [meets_bind]
      exact meets_version (hs.neighbours n (hprev n rfl)) fun _ _ _ => trivial

theorem meets_considerBest (hs : Sound allowed s) {prevPreferred : Option Nat}
    {prevPathCost : UInt16} {best : Option Best} {c : Neighbour}
    (hc : c ∈ s.candidateNeighbours) (hbest : ∀ b ∈ best, Chosen etx s b) :
    Meets allowed (considerBest policy etx s prevPreferred prevPathCost best c) fun b =>
      ∀ x ∈ b, Chosen etx s x := by
  unfold considerBest
  rw [meets_bind]
  refine meets_version (hs.neighbours c hc) fun d v hv => ?_
  have hcandidate : Chosen etx s ⟨c, d, rankThrough etx d v c⟩ := ⟨hc, v, hv, rfl⟩
  dsimp only
  split
  · exact hbest
  · cases best with
    | none =>
        rintro x ⟨⟩
        exact hcandidate
    | some b =>
        rintro x ⟨⟩
        split
        · exact hcandidate
        · exact hbest b rfl

theorem meets_rpl_mrhof_select_best_parent (hs : Sound allowed s) :
    Meets allowed (rpl_mrhof_select_best_parent policy etx s s.rpl_instance_preferred_parent)
      fun b => ∀ x ∈ b, Chosen etx s x := by
  unfold rpl_mrhof_select_best_parent
  rw [meets_bind]
  refine (meets_previousPathCost hs fun n hn =>
    rpl_instance_preferred_parent_mem hn).mono fun cost _ => ?_
  exact meets_foldlM (fun b : Option Best => ∀ x ∈ b, Chosen etx s x)
    (fun b c hc hb => meets_considerBest hs hc hb) (by rintro x ⟨⟩)

/-- A backup with its rank. -/
structure Backup (policy : Policy) (etx : Neighbour → UInt16) (s : Instance) (pref : Neighbour)
    (maxRank : UInt16) (b : Neighbour × UInt16) : Prop where
  mem : b.1 ∈ s.candidateNeighbours
  acceptable : rpl_mrhof_neighbour_acceptable policy etx b.1
  version : b.1.version = pref.version
  rank : ∃ d v, s.version b.1.version = .ok (d, v) ∧ backupRank etx d b.1 = .ok b.2
  le : b.2 ≤ maxRank

theorem meets_backupRank {d : Dodag} (h : allowed .divideByZero ∨ d.config.minHopRankIncrease ≠ 0)
    (n : Neighbour) :
    Meets allowed (backupRank etx d n) fun rank => backupRank etx d n = .ok rank := by
  have hmeets : Meets allowed (backupRank etx d n) fun _ => True := by
    unfold backupRank
    rw [meets_bind]
    exact (meets_rpl_rank_next_level h n.rank).mono fun _ _ => trivial
  cases heq : backupRank etx d n with
  | ok rank => rfl
  | error e => exact hmeets.allowed_of_eq heq

theorem meets_considerBackup (hs : Sound allowed s) {pref c : Neighbour} {maxRank : UInt16}
    {best : Option (Neighbour × UInt16)} (hc : c ∈ s.candidateNeighbours)
    (hbest : ∀ b ∈ best, Backup policy etx s pref maxRank b) :
    Meets allowed (considerBackup policy etx s pref maxRank best c) fun b =>
      ∀ x ∈ b, Backup policy etx s pref maxRank x := by
  unfold considerBackup
  split
  · exact hbest
  case isFalse hnot =>
    have hversion : c.version = pref.version := by
      by_contra hne
      exact hnot (.inr (.inr hne))
    rw [meets_bind]
    refine meets_version (hs.neighbours c hc) fun d v hv => ?_
    dsimp only
    split
    · exact hbest
    case isFalse hmetric =>
      have hacceptable : rpl_mrhof_neighbour_acceptable policy etx c :=
        decide_eq_true (UInt16.not_lt.mp hmetric)
      rw [meets_bind]
      refine (meets_backupRank (hs.divides_of_version hv) c).mono fun rank hrank => ?_
      split
      · exact hbest
      case isFalse hle =>
        have hbackup : Backup policy etx s pref maxRank (c, rank) :=
          ⟨hc, hacceptable, hversion, ⟨d, v, hv, hrank⟩, UInt16.not_lt.mp hle⟩
        cases best with
        | none =>
            rintro x ⟨⟩
            exact hbackup
        | some b =>
            rw [meets_pure]
            split
            · rintro x ⟨⟩
              exact hbackup
            · exact hbest

theorem meets_rpl_mrhof_select_backup_parent (hs : Sound allowed s) (pref : Neighbour)
    (maxRank : UInt16) :
    Meets allowed (rpl_mrhof_select_backup_parent policy etx s pref maxRank) fun b =>
      ∀ x ∈ b, Backup policy etx s pref maxRank x :=
  meets_foldlM (fun b : Option (Neighbour × UInt16) => ∀ x ∈ b, Backup policy etx s pref maxRank x)
    (fun b c hc hb => meets_considerBackup hs hc hb) (by rintro x ⟨⟩)

/-- The rank with a backup. -/
def raised (sel : Selection) (backupRank : UInt16) : UInt16 :=
  if sel.rank < backupRank then backupRank else sel.rank

/-- **Backup loop rule.**  An invariant that holds when a backup is taken, and when the
rank excess stops the loop, holds behind the loop. -/
theorem meets_selectBackups (inv : Selection → Prop) {pref : Neighbour} {v : Version}
    {maxRank : UInt16} (hsound : ∀ sel, inv sel → Sound allowed sel.inst)
    (hexcess : ∀ sel b, inv sel → Backup policy etx sel.inst pref maxRank b →
      raised sel b.2 ≠ infinite → v.greedinessRankLimit < raised sel b.2 →
      inv { sel with rank := v.greedinessRankLimit, excess := true })
    (htake : ∀ sel b lastPref lastCost, inv sel → Backup policy etx sel.inst pref maxRank b →
      inv { sel.take b.1 lastPref with
        rank := raised sel b.2, lastPref := lastPref, lastCost := lastCost }) :
    ∀ more sel, inv sel → Meets allowed (selectBackups policy etx pref v maxRank more sel) inv := by
  intro more
  induction more with
  | zero => exact fun sel hsel => hsel
  | succ more ih =>
      intro sel hsel
      unfold selectBackups
      rw [meets_bind]
      refine (meets_rpl_mrhof_select_backup_parent (hsound sel hsel) pref maxRank).mono ?_
      intro found hfound
      cases found with
      | none => exact hsel
      | some b =>
          dsimp only
          by_cases hgreedy :
            raised sel b.2 ≠ infinite ∧ v.greedinessRankLimit < raised sel b.2
          · unfold raised at hgreedy
            rw [if_pos hgreedy]
            exact hexcess sel b hsel (hfound b rfl) hgreedy.1 hgreedy.2
          · unfold raised at hgreedy
            rw [if_neg hgreedy]
            exact ih _ (htake sel b _ _ hsel (hfound b rfl))

/-- The selection with its parents back in front. -/
def Selection.whole (sel : Selection) : Instance :=
  { sel.inst with candidateNeighbours := sel.parents ++ sel.inst.candidateNeighbours }

theorem Selection.kept_inst (sel : Selection) : Kept sel.whole sel.inst where
  dodags := rfl
  neighbours := by
    unfold whole
    rw [List.map_append]
    exact (List.sublist_append_right _ _).subperm
  current := fun _ h => .inl h
  fresh := rfl

theorem Selection.kept_take (sel : Selection) {n : Neighbour} (pref : Nat)
    (hn : n ∈ sel.inst.candidateNeighbours) : Kept sel.whole (sel.take n pref).whole where
  dodags := rfl
  neighbours := by
    have hself : n ∈ sel.inst.candidateNeighbours.filter (·.ref = n.ref) :=
      List.mem_filter.mpr ⟨hn, by simp⟩
    have hperm := List.filter_append_perm (fun m : Neighbour => decide (m.ref = n.ref))
      sel.inst.candidateNeighbours
    have hsub : ([n] ++ sel.inst.candidateNeighbours.filter (·.ref ≠ n.ref)).Subperm
        sel.inst.candidateNeighbours := by
      refine .trans (List.Subperm.append (List.singleton_subperm_iff.mpr hself) ?_) hperm.subperm
      simp only [ne_eq, decide_not]
      exact .refl _
    unfold whole take
    simp only [List.map_append, List.append_assoc]
    refine List.Subperm.append (.refl _) ?_
    have hmap := map_subperm hsub Neighbour.key
    rwa [List.map_append] at hmap
  current := fun _ h => .inl h
  fresh := rfl

theorem meets_rpl_dodag_version_raise_greediness (hs : Sound allowed s) {version : Nat}
    (h : allowed .freed ∨ version ∈ s.versionRefs) (prefRank : UInt16) :
    Meets allowed (rpl_dodag_version_raise_greediness s version prefRank) fun t =>
      Kept s t ∧ t.candidateNeighbours = s.candidateNeighbours := by
  unfold rpl_dodag_version_raise_greediness
  rw [meets_bind]
  refine meets_version h fun d v hv => ?_
  dsimp only
  split
  · rw [meets_bind]
    refine (meets_rpl_rank_max_at_level (hs.divides_of_version hv) prefRank).mono fun limit _ => ?_
    exact ⟨.updateVersion fun _ _ _ => rfl, rfl⟩
  · exact ⟨.rfl, rfl⟩

/-- Parent selection keeps the records, and where it ends without a version it leaves the
candidates alone. -/
structure Selected (s : Instance) (r : Instance × Bool) : Prop where
  kept : Kept s r.1
  without : r.1.currentDodagVersion = none → r.1.candidateNeighbours = s.candidateNeighbours

theorem Selected.none (s : Instance) (rank : UInt16) :
    Selected s ({ s with currentRank := rank, currentDodagVersion := Option.none }, false) where
  kept := ⟨rfl, .refl _, (by rintro ref ⟨⟩), rfl⟩
  without := fun _ => rfl

/-- What a loop over backups keeps. -/
structure Selection.Keeps (s : Instance) (pref : Neighbour) (sel : Selection) : Prop where
  kept : Kept s sel.whole
  parent : ∃ m ∈ sel.parents, m.version = pref.version

theorem Selection.Keeps.sound {sel : Selection} {pref : Neighbour} (h : sel.Keeps s pref)
    (hs : Sound allowed s) : Sound allowed sel.inst :=
  sel.kept_inst.sound (h.kept.sound hs)

theorem Selection.Keeps.take {sel : Selection} {pref n : Neighbour} (h : sel.Keeps s pref)
    (hn : n ∈ sel.inst.candidateNeighbours) (lastPref : Nat) : (sel.take n lastPref).Keeps s pref where
  kept := h.kept.trans (sel.kept_take lastPref hn)
  parent := by
    obtain ⟨m, hm, hversion⟩ := h.parent
    exact ⟨m, List.mem_append_left _ hm, hversion⟩

/-- The preferred parent is the first to be taken. -/
theorem Selection.Keeps.start {t : Instance} {pref : Neighbour} {rank cost : UInt16}
    (h : Kept s t) (hpref : pref ∈ t.candidateNeighbours) :
    (Selection.take ⟨t, [], rank, 0, cost, false⟩ pref 0).Keeps s pref where
  kept := h.trans (Selection.kept_take ⟨t, [], rank, 0, cost, false⟩ 0 hpref)
  parent := ⟨_, List.mem_append_right _ (List.mem_singleton_self _), rfl⟩

/-- The last step of a selection. -/
theorem meets_moveTo (hs : Sound allowed s) {pref : Neighbour} {sel : Selection}
    (h : sel.Keeps s pref) :
    Meets allowed (sel.whole.rpl_instance_set_dodag_version (some pref.version) sel.rank)
      fun t => Selected s (t, sel.excess) := by
  obtain ⟨m, hm, hversion⟩ := h.parent
  have hmem : m ∈ sel.whole.candidateNeighbours := List.mem_append_left _ hm
  have hlive := (h.kept.sound hs).neighbours m hmem
  rw [hversion] at hlive
  refine (meets_rpl_instance_set_dodag_version sel.rank hlive).mono fun t ht => ?_
  refine ⟨h.kept.trans (ht.kept ⟨m, hmem, hversion⟩), fun hnone => ?_⟩
  rw [ht.current] at hnone
  cases hnone

/-- **MRHOF keeps the records.** -/
theorem meets_rpl_mrhof_parent_selection (hs : Sound allowed s) :
    Meets allowed (rpl_mrhof_parent_selection policy etx s) (Selected s) := by
  unfold rpl_mrhof_parent_selection
  rw [meets_bind]
  refine (meets_rpl_mrhof_select_best_parent hs).mono fun found hfound => ?_
  cases found with
  | none => exact Selected.none s infinite
  | some best =>
      have hbest := hfound best rfl
      have hlive := hs.neighbours _ hbest.mem
      dsimp only
      rw [meets_bind]
      refine (meets_rpl_dodag_version_raise_greediness hs hlive best.rank).mono fun t ht => ?_
      obtain ⟨hkept, hcandidates⟩ := ht
      have hpref : best.neighbour ∈ t.candidateNeighbours := hcandidates ▸ hbest.mem
      rw [meets_bind]
      refine meets_version ((hkept.sound hs).neighbours _ hpref) fun d v _ => ?_
      dsimp only
      rw [meets_bind]
      refine (meets_selectBackups (Selection.Keeps s best.neighbour)
        (fun sel h => h.sound hs) (fun sel b h _ _ _ => ⟨h.kept, h.parent⟩)
        (fun sel b lastPref _ h hb => ⟨(h.take hb.mem lastPref).kept, (h.take hb.mem lastPref).parent⟩)
        _ _ (Selection.Keeps.start hkept hpref)).mono fun sel hsel => ?_
      rw [meets_bind]
      exact (meets_moveTo hs hsel).mono fun t ht => ht

end Mrhof

namespace Of0

variable {policy : Policy} {etx : Neighbour → UInt16}

/-! ## OF0 -/

theorem meets_prefersBackup {d : Dodag}
    (h : allowed .divideByZero ∨ d.config.minHopRankIncrease ≠ 0) (c best : Neighbour) :
    Meets allowed (prefersBackup etx d c best) fun _ => True := by
  unfold prefersBackup
  rw [meets_bind]
  refine (meets_rpl_rank_compare h c.rank best.rank).mono fun cmp _ => ?_
  split
  · trivial
  · split
    · trivial
    · dsimp only
      split
      · trivial
      · split <;> trivial

theorem meets_considerBackup (hs : Sound allowed s) {pref c : Neighbour} {maxRank : UInt16}
    {best : Option Neighbour} (hpref : allowed .freed ∨ pref.version ∈ s.versionRefs)
    (hc : c ∈ s.candidateNeighbours)
    (hbest : ∀ b ∈ best, b ∈ s.candidateNeighbours ∧ b.ref ≠ pref.ref) :
    Meets allowed (considerBackup etx s pref maxRank best c) fun b =>
      ∀ x ∈ b, x ∈ s.candidateNeighbours ∧ x.ref ≠ pref.ref := by
  unfold considerBackup
  split
  · exact hbest
  case isFalse hother =>
    have htaken : ∀ x ∈ some c, x ∈ s.candidateNeighbours ∧ x.ref ≠ pref.ref := by
      rintro x ⟨⟩
      exact ⟨hc, fun heq => hother (.inl heq)⟩
    rw [meets_bind]
    refine meets_version (hs.neighbours c hc) fun d v hv => ?_
    dsimp only
    rw [meets_bind]
    refine meets_version hpref fun _ _ _ => ?_
    dsimp only
    have hdivides := hs.divides_of_version hv
    split
    · exact hbest
    · split
      · exact hbest
      · rw [meets_bind]
        refine (meets_rpl_rank_compare hdivides c.rank maxRank).mono fun cmp _ => ?_
        split
        · exact hbest
        · split
          · exact hbest
          · cases best with
            | none => exact htaken
            | some b =>
                dsimp only
                rw [meets_bind]
                refine (meets_prefersBackup hdivides c b).mono fun takes _ => ?_
                rw [meets_pure]
                cases takes with
                | true => exact htaken
                | false => exact hbest

theorem meets_rpl_of0_select_backup_parent (hs : Sound allowed s) {pref : Neighbour}
    (hpref : allowed .freed ∨ pref.version ∈ s.versionRefs) (maxRank : UInt16) :
    Meets allowed (rpl_of0_select_backup_parent etx s pref maxRank) fun b =>
      ∀ x ∈ b, x ∈ s.candidateNeighbours ∧ x.ref ≠ pref.ref :=
  meets_foldlM
    (fun b : Option Neighbour => ∀ x ∈ b, x ∈ s.candidateNeighbours ∧ x.ref ≠ pref.ref)
    (fun b c hc hb => meets_considerBackup hs hpref hc hb) (by rintro x ⟨⟩)

/-- A candidate with the records that belong to it. -/
structure Chosen (s : Instance) (b : Best) : Prop where
  mem : b.neighbour ∈ s.candidateNeighbours
  version : s.version b.neighbour.version = .ok (b.dodag, b.version)
  backup : ∀ x ∈ b.backup, x ∈ s.candidateNeighbours ∧ x.ref ≠ b.neighbour.ref

theorem meets_prefersByRank {c : Best}
    (h : allowed .divideByZero ∨ c.dodag.config.minHopRankIncrease ≠ 0)
    (prevPreferred : Option Nat) (best : Best) :
    Meets allowed (prefersByRank policy prevPreferred c best) fun _ => True := by
  unfold prefersByRank
  rw [meets_bind]
  refine (meets_rpl_rank_compare h c.rank best.rank).mono fun cmp _ => ?_
  repeat' first
    | trivial
    | split

theorem meets_prefers {c : Best}
    (h : allowed .divideByZero ∨ c.dodag.config.minHopRankIncrease ≠ 0)
    (prevPreferred : Option Nat) (best : Best) :
    Meets allowed (prefers policy etx prevPreferred c best) fun _ => True := by
  unfold prefers
  dsimp only
  split
  · trivial
  · split
    · trivial
    · split
      · trivial
      · split
        · trivial
        · split
          · trivial
          · exact meets_prefersByRank h prevPreferred best

theorem meets_considerBest (hs : Sound allowed s) {prevPreferred : Option Nat}
    {best : Option Best} {c : Neighbour} (hc : c ∈ s.candidateNeighbours)
    (hbest : ∀ b ∈ best, Chosen s b) :
    Meets allowed (considerBest policy etx s prevPreferred best c) fun b =>
      ∀ x ∈ b, Chosen s x := by
  have hlive := hs.neighbours c hc
  unfold considerBest
  rw [meets_bind]
  refine meets_version hlive fun d v hv => ?_
  dsimp only
  split
  · exact hbest
  · rw [meets_bind]
    refine (meets_rpl_of0_select_backup_parent hs hlive _).mono fun backup hbackup => ?_
    cases best with
    | none =>
        rintro x ⟨⟩
        exact ⟨hc, hv, hbackup⟩
    | some b =>
        dsimp only
        rw [meets_bind]
        refine (meets_prefers (hs.divides_of_version hv) prevPreferred b).mono fun takes _ => ?_
        rintro x ⟨⟩
        cases takes with
        | true => exact ⟨hc, hv, hbackup⟩
        | false => exact hbest b rfl

theorem meets_rpl_of0_select_preferred_parent (hs : Sound allowed s) (prev : Option Neighbour) :
    Meets allowed (rpl_of0_select_preferred_parent policy etx s prev) fun b =>
      ∀ x ∈ b, Chosen s x :=
  meets_foldlM (fun b : Option Best => ∀ x ∈ b, Chosen s x)
    (fun b c hc hb => meets_considerBest hs hc hb) (by rintro x ⟨⟩)

open Mrhof

theorem meets_rankWith {d : Dodag}
    (h : allowed .divideByZero ∨ d.config.minHopRankIncrease ≠ 0) (backupRank : UInt16)
    (cmp : Cmp) (rank : UInt16) : Meets allowed (rankWith d backupRank cmp rank) fun _ => True := by
  unfold rankWith
  split
  · exact meets_rpl_rank_next_level h backupRank
  · trivial

theorem meets_takeBackups (hs : Sound allowed s) {pref : Neighbour} {d : Dodag} {v : Version}
    {maxRank : UInt16} (hd : allowed .divideByZero ∨ d.config.minHopRankIncrease ≠ 0) :
    ∀ more backup (sel : Selection), sel.Keeps s pref →
      (∀ b ∈ backup, b ∈ sel.inst.candidateNeighbours) →
      Meets allowed (takeBackups policy etx pref d v maxRank more backup sel)
        (Selection.Keeps s pref) := by
  intro more
  induction more with
  | zero => exact fun _ sel hsel _ => hsel
  | succ more ih =>
      intro backup sel hsel hbackup
      cases backup with
      | none => exact hsel
      | some backup =>
          unfold takeBackups
          rw [meets_bind]
          refine (meets_rpl_rank_compare hd backup.rank sel.rank).mono fun cmp _ => ?_
          rw [meets_bind]
          refine (meets_rankWith hd backup.rank cmp sel.rank).mono fun rank _ => ?_
          split
          · exact ⟨hsel.kept, hsel.parent⟩
          · dsimp only
            have htake := fun lastPref => hsel.take (hbackup backup rfl) lastPref
            split
            · exact ⟨(htake _).kept, (htake _).parent⟩
            · rw [meets_bind]
              obtain ⟨m, hm, hversion⟩ := (htake 0).parent
              have hlive := ((htake 0).kept.sound hs).neighbours m (List.mem_append_left _ hm)
              rw [hversion] at hlive
              refine (meets_rpl_of0_select_backup_parent ((htake 0).sound hs) hlive _).mono ?_
              exact fun next hnext =>
                ih next _ ⟨(htake _).kept, (htake _).parent⟩ fun b hb => (hnext b hb).1

/-- **OF0 keeps the records.** -/
theorem meets_rpl_of0_parent_selection (hs : Sound allowed s) :
    Meets allowed (rpl_of0_parent_selection policy etx s) (Selected s) := by
  unfold rpl_of0_parent_selection
  rw [meets_bind]
  refine (meets_rpl_of0_select_preferred_parent hs _).mono fun found hfound => ?_
  cases found with
  | none => exact Selected.none s infinite
  | some best =>
      have hbest := hfound best rfl
      have hlive := hs.neighbours _ hbest.mem
      dsimp only
      rw [meets_bind]
      refine (meets_rpl_dodag_version_raise_greediness hs hlive best.rank).mono fun t ht => ?_
      obtain ⟨hkept, hcandidates⟩ := ht
      have hpref : best.neighbour ∈ t.candidateNeighbours := hcandidates ▸ hbest.mem
      rw [meets_bind]
      refine meets_version ((hkept.sound hs).neighbours _ hpref) fun d v hv => ?_
      dsimp only
      have hbackup : ∀ b ∈ best.backup, b ∈
          (Selection.take ⟨t, [], best.rank, 0, best.rank, false⟩ best.neighbour 0
            ).inst.candidateNeighbours := by
        intro b hb
        obtain ⟨hmem, href⟩ := hbest.backup b hb
        exact List.mem_filter.mpr ⟨hcandidates ▸ hmem, by simpa using href⟩
      rw [meets_bind]
      refine (meets_takeBackups hs ((hkept.sound hs).divides_of_version hv) _ _ _
        (Selection.Keeps.start hkept hpref) hbackup).mono fun sel hsel => ?_
      rw [meets_bind]
      exact (meets_moveTo hs hsel).mono fun t ht => ht

end Of0

end Rpl
