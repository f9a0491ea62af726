import WisunModem.RplSelecting

/-!
# A run of parent selection

What stands around the objective function deletes neighbours, marks them and ends or
starts a local repair.
-/

namespace Rpl

open Faults

namespace Instance

variable {allowed : Fault → Prop} {s t u : Instance}

/-- `t` is `s` less some neighbours, but for the flags of repair and poisoning. -/
structure Trimmed (s t : Instance) : Prop where
  dodags : t.dodags = s.dodags
  current : t.currentDodagVersion = s.currentDodagVersion
  rank : t.currentRank = s.currentRank
  of : t.of = s.of
  fresh : t.fresh = s.fresh
  neighbours : t.candidateNeighbours.Sublist s.candidateNeighbours

theorem Trimmed.trans (h : Trimmed s t) (h' : Trimmed t u) : Trimmed s u where
  dodags := h'.dodags.trans h.dodags
  current := h'.current.trans h.current
  rank := h'.rank.trans h.rank
  of := h'.of.trans h.of
  fresh := h'.fresh.trans h.fresh
  neighbours := h'.neighbours.trans h.neighbours

theorem Trimmed.kept (h : Trimmed s t) : Kept s t where
  dodags := congrArg _ h.dodags
  neighbours := (h.neighbours.map _).subperm
  current := fun _ href => .inl (h.current ▸ href)
  fresh := h.fresh

/-! ## Deleting neighbours -/

/-- A neighbour that is there is deleted. -/
theorem meets_delete {n : Neighbour}
    (h : allowed .freed ∨ n.ref ∈ s.candidateNeighbours.map (·.ref)) :
    Meets allowed (s.rpl_delete_neighbour n.ref) fun t =>
      t = { s with candidateNeighbours := s.candidateNeighbours.filter (·.ref ≠ n.ref) } := by
  unfold rpl_delete_neighbour
  rw [meets_bind]
  exact meets_neighbour h fun _ _ => rfl

/-- The loop over what is left of the list. -/
theorem meets_deleteFrom {gone : Instance → Neighbour → Except Fault Bool}
    (hgone : ∀ t n, Trimmed s t → n ∈ s.candidateNeighbours →
      Meets allowed (gone t n) fun _ => True) (ns : List Neighbour) :
    ∀ t, Trimmed s t → (∀ n ∈ ns, n ∈ s.candidateNeighbours) →
      (allowed .freed ∨ (ns.map (·.ref)).Nodup ∧
        ∀ n ∈ ns, n.ref ∈ t.candidateNeighbours.map (·.ref)) →
      Meets allowed (ns.foldlM (fun t n => do
        if ← gone t n then t.rpl_delete_neighbour n.ref else pure t) t) (Trimmed s) := by
  induction ns with
  | nil => exact fun t ht _ _ => ht
  | cons n ns ih =>
      intro t ht hmem hrefs
      rw [List.foldlM_cons, meets_bind, meets_bind]
      refine (hgone t n ht (hmem n List.mem_cons_self)).mono fun b _ => ?_
      have hmem' := fun m hm => hmem m (List.mem_cons_of_mem n hm)
      have htail := hrefs.imp_right fun h => (List.nodup_cons.mp h.1).2
      cases b with
      | false =>
          refine ih t ht hmem' (hrefs.imp_right fun h => ?_)
          exact ⟨(List.nodup_cons.mp h.1).2, fun m hm => h.2 m (List.mem_cons_of_mem n hm)⟩
      | true =>
          have hn := hrefs.imp_right fun h => h.2 n List.mem_cons_self
          refine (meets_delete hn).mono fun u hu => ?_
          subst hu
          have hsub := List.filter_sublist (p := fun m : Neighbour => decide (m.ref ≠ n.ref))
            (l := t.candidateNeighbours)
          refine ih _ ⟨ht.dodags, ht.current, ht.rank, ht.of, ht.fresh,
            hsub.trans ht.neighbours⟩ hmem' (hrefs.imp_right fun h => ?_)
          obtain ⟨hnot, hnodup⟩ := List.nodup_cons.mp h.1
          refine ⟨hnodup, fun m hm => ?_⟩
          obtain ⟨l, hl, href⟩ := List.mem_map.mp (h.2 m (List.mem_cons_of_mem n hm))
          refine List.mem_map.mpr ⟨l, List.mem_filter.mpr ⟨hl, ?_⟩, href⟩
          have hne : m.ref ≠ n.ref := fun heq => hnot (List.mem_map.mpr ⟨m, hm, heq⟩)
          simpa [href] using hne

/-- **Loop over the neighbours.** -/
theorem meets_deleteWhere (hs : Sound allowed s) {gone : Instance → Neighbour → Except Fault Bool}
    (hgone : ∀ t n, Trimmed s t → n ∈ s.candidateNeighbours →
      Meets allowed (gone t n) fun _ => True) :
    Meets allowed (s.deleteWhere gone) (Trimmed s) :=
  meets_deleteFrom hgone s.candidateNeighbours s ⟨rfl, rfl, rfl, rfl, rfl, .refl _⟩
    (fun _ hn => hn) (hs.distinct.imp_right fun h => ⟨h, fun _ hn => List.mem_map_of_mem hn⟩)

/-! ## Local repair -/

theorem meets_possibleSubDodag (hs : Sound allowed s) (version : Nat) (rank : UInt16) :
    Meets allowed (s.possibleSubDodag version rank) fun _ => True := by
  unfold possibleSubDodag
  split
  case isFalse => trivial
  case isTrue hcurrent =>
    rw [meets_bind]
    refine meets_version (hs.current version hcurrent) fun d v hv => ?_
    dsimp only
    rw [meets_bind]
    exact (meets_rpl_rank_compare (hs.divides_of_version hv) rank _).mono fun _ _ => trivial

theorem meets_rpl_instance_set_local_repair (hs : Sound allowed s) (repair : Bool) :
    Meets allowed (s.rpl_instance_set_local_repair repair) (Trimmed s) := by
  unfold rpl_instance_set_local_repair
  split
  · exact ⟨rfl, rfl, rfl, rfl, rfl, .refl _⟩
  · have htrim : Trimmed s { s with localRepair := repair } := ⟨rfl, rfl, rfl, rfl, rfl, .refl _⟩
    have hsound := htrim.kept.sound hs
    dsimp only
    split
    · refine (meets_deleteWhere hsound fun t n ht hn => ?_).mono fun t ht => htrim.trans ht
      have ht' := ht.kept.sound hsound
      rw [meets_bind]
      refine meets_version ?_ fun _ _ _ => meets_possibleSubDodag ht' ..
      rw [ht.kept.versionRefs]
      exact hsound.neighbours n hn
    · exact htrim

theorem meets_controlRepair (hs : Sound allowed s) (poison : Nat)
    (hnull : allowed .null ∨
      (s.currentDodagVersion = none → s.rpl_instance_preferred_parent = none)) :
    Meets allowed (s.controlRepair poison) (Trimmed s) := by
  unfold controlRepair
  cases hpreferred : s.rpl_instance_preferred_parent with
  | none =>
      have htrim : Trimmed s { s with poisonCount := max s.poisonCount poison } :=
        ⟨rfl, rfl, rfl, rfl, rfl, .refl _⟩
      dsimp only
      split
      · rw [meets_bind]
        refine (meets_rpl_instance_set_local_repair (htrim.kept.sound hs) true).mono fun t ht => ?_
        have h := htrim.trans ht
        exact ⟨h.dodags, h.current, h.rank, h.of, h.fresh, h.neighbours⟩
      · exact htrim
  | some n =>
      dsimp only
      rw [meets_bind]
      refine (meets_rpl_instance_set_local_repair hs false).mono fun t ht => ?_
      rw [meets_bind]
      refine (ht.kept.sound hs).meets_current (fun hnone => ?_) fun _ _ _ _ _ => ?_
      · refine hnull.resolve_right fun himp => ?_
        rw [himp (ht.current ▸ hnone)] at hpreferred
        cases hpreferred
      · exact ⟨ht.dodags, ht.current, ht.rank, ht.of, ht.fresh, ht.neighbours⟩

theorem meets_compareRanks (hs : Sound allowed s) (original : Instance) (changed : Bool) :
    Meets allowed (s.compareRanks original changed) fun _ => True := by
  unfold compareRanks
  split
  · trivial
  · rw [meets_bind]
    refine hs.meets_current (fun _ => trivial) fun _ d v _ hv => ?_
    dsimp only
    rw [meets_bind]
    exact (meets_rpl_rank_compare (hs.divides_of_version hv) ..).mono fun _ _ => trivial

/-! ## The selection -/

/-- The candidates are left without parents before the objective function looks at them. -/
structure Marked (s m : Instance) : Prop where
  kept : Kept s m
  dodags : m.dodags = s.dodags
  current : m.currentDodagVersion = s.currentDodagVersion
  of : m.of = s.of
  neighbours : ∀ n ∈ m.candidateNeighbours, ∃ k ∈ s.candidateNeighbours,
    n = { k with wasDodagParent := k.dodagParent, dodagParent := false, considered := true }

theorem meets_startSelection (hs : Sound allowed s) (aged : Neighbour → Bool) :
    Meets allowed (s.startSelection aged) (Marked s) := by
  unfold startSelection
  rw [meets_bind]
  refine (meets_deleteWhere hs fun t n ht hn => ?_).mono fun t ht => ?_
  · split
    · trivial
    · rw [meets_bind]
      refine meets_version ?_ fun _ _ _ => trivial
      rw [ht.kept.versionRefs]
      exact hs.neighbours n hn
  · rw [meets_pure]
    refine ⟨ht.kept.trans (.mark _ fun _ => rfl), ht.dodags, ht.current, ht.of, fun n hn => ?_⟩
    obtain ⟨m, hm, rfl⟩ := List.mem_map.mp hn
    exact ⟨m, ht.neighbours.subset hm, rfl⟩

theorem Marked.parents {m : Instance} (h : Marked s m) {n : Neighbour}
    (hn : n ∈ m.candidateNeighbours) : n.dodagParent = false := by
  obtain ⟨k, -, rfl⟩ := h.neighbours n hn
  rfl

/-- The marks of the parents before are taken away. -/
def unmark (s : Instance) : Instance :=
  { s with
    candidateNeighbours := s.candidateNeighbours.map fun n => { n with wasDodagParent := false } }

theorem unmark_kept (s : Instance) : Kept s s.unmark := .mark _ fun _ => rfl

theorem meets_parentSelection {policy : Policy} {etx : Neighbour → UInt16} {of : Objective}
    (hs : Sound allowed s) :
    Meets allowed (s.parentSelection policy etx of) (Mrhof.Selected s) := by
  cases of with
  | of0 => exact Of0.meets_rpl_of0_parent_selection hs
  | mrhof => exact Mrhof.meets_rpl_mrhof_parent_selection hs

/-- Where a selection ends without a version there is no preferred parent. -/
theorem preferred_none_of_selected {m : Instance} {excess : Bool} (hm : Marked s m)
    (h : Mrhof.Selected m (t, excess)) (hnone : t.unmark.currentDodagVersion = none) :
    t.unmark.rpl_instance_preferred_parent = none := by
  unfold rpl_instance_preferred_parent
  rw [Option.filter_eq_none_iff]
  intro n hn
  obtain ⟨l, hl, rfl⟩ := List.mem_map.mp (List.mem_of_mem_head? hn)
  rw [h.without hnone] at hl
  simp [hm.parents hl]

/-- **Rule of a selection.**  What the objective function does to the marked candidates,
then nothing but unmarking and deleting. -/
theorem meets_selectParents {policy : Policy} {etx : Neighbour → UInt16}
    {aged : Neighbour → Bool} {poison : Nat} {of : Objective} (hs : Sound allowed s)
    (post : Instance → Instance × Bool → Prop)
    (hof : ∀ m, Marked s m → Meets allowed (m.parentSelection policy etx of) (post m)) :
    Meets allowed (s.selectParents policy etx aged poison of) fun r =>
      ∃ m t, Marked s m ∧ Mrhof.Selected m (t, r.2) ∧ post m (t, r.2) ∧
        Trimmed t.unmark r.1 := by
  unfold selectParents
  rw [meets_bind]
  refine (meets_startSelection hs aged).mono fun m hm => ?_
  have hmsound := hm.kept.sound hs
  rw [meets_bind]
  refine ((meets_parentSelection hmsound).and (hof m hm)).mono fun r hr => ?_
  obtain ⟨t, excess⟩ := r
  obtain ⟨hselected, hpost⟩ := hr
  have htsound : Sound allowed t.unmark :=
    t.unmark_kept.sound (hselected.kept.sound hmsound)
  dsimp only
  rw [meets_bind]
  refine (meets_controlRepair htsound poison
    (.inr (preferred_none_of_selected hm hselected))).mono fun u hu => ?_
  have husound := hu.kept.sound htsound
  rw [meets_bind]
  refine (meets_deleteWhere husound fun _ _ _ _ => meets_pure.mpr trivial).mono fun w hw => ?_
  rw [meets_bind]
  refine (meets_compareRanks (hw.kept.sound husound) ..).mono fun _ _ => ?_
  exact ⟨m, t, hm, hselected, hpost, hu.trans hw⟩

/-- **Parent selection keeps the records.** -/
theorem meets_rpl_instance_run_parent_selection {policy : Policy} {etx : Neighbour → UInt16}
    {aged : Neighbour → Bool} {poison : Nat} (hs : Sound allowed s) :
    Meets allowed (s.rpl_instance_run_parent_selection policy etx aged poison) fun r =>
      Kept s r.1 := by
  have hselect : ∀ of, Meets allowed (s.selectParents policy etx aged poison of) fun r =>
      Kept s r.1 := by
    intro of
    refine (meets_selectParents hs (fun _ _ => True) fun m hm =>
      (meets_parentSelection (hm.kept.sound hs)).mono fun _ _ => trivial).mono fun r hr => ?_
    obtain ⟨m, t, hm, hselected, -, htrim⟩ := hr
    exact hm.kept.trans (hselected.kept.trans (t.unmark_kept.trans htrim.kept))
  unfold rpl_instance_run_parent_selection
  cases s.of with
  | none => exact .rfl
  | some of =>
      dsimp only
      rw [meets_bind]
      refine hs.meets_current (fun _ => hselect of) fun _ d v _ _ => ?_
      dsimp only
      split
      · exact .rfl
      · exact hselect of

end Instance

end Rpl
