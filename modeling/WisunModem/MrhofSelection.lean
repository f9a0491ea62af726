import WisunModem.MrhofParents

/-!
# What a selection by MRHOF leaves

The preferred parent and the backups go to the front of the candidates, marked as parents;
the others follow in their order.
-/

namespace Rpl

/-- A candidate without the marks of a parent. -/
def Neighbour.unmarked (n : Neighbour) : Neighbour :=
  { n with dodagParent := false, dodagPref := 0 }

namespace Mrhof

open Faults Instance

/-- `etx_read` is given the interface and the address of a candidate. -/
def linkEtx (link : Nat → Nat → UInt16) (n : Neighbour) : UInt16 :=
  link n.interfaceId n.llAddress

variable {policy : Policy} {link : Nat → Nat → UInt16} {s : Instance} {pref : Neighbour}
  {sel : Selection}

/-! ## The loop over backups -/

/-- A selection in progress: the parents are in front, the preferred one first, and the
others are not marked. -/
structure Gathered (policy : Policy) (link : Nat → Nat → UInt16) (s : Instance)
    (pref : Neighbour) (sel : Selection) : Prop where
  keeps : sel.Keeps s pref
  inst : sel.inst = { s with candidateNeighbours := sel.inst.candidateNeighbours }
  perm : (sel.whole.candidateNeighbours.map Neighbour.unmarked).Perm
    (s.candidateNeighbours.map Neighbour.unmarked)
  parents : ∃ backups, sel.parents = { pref with dodagParent := true, dodagPref := 0 } :: backups ∧
    ∀ b ∈ backups, b.dodagParent = true ∧ b.version = pref.version ∧
      rpl_mrhof_neighbour_acceptable policy (linkEtx link) b = true
  unmarked : ∀ n ∈ sel.inst.candidateNeighbours, n.dodagParent = false

/-- A candidate and the others are all candidates. -/
theorem perm_take {l : List Neighbour} (hnodup : (l.map (·.ref)).Nodup) {n : Neighbour}
    (hn : n ∈ l) : (n :: l.filter (·.ref ≠ n.ref)).Perm l := by
  have hself : l.filter (fun m => decide (m.ref = n.ref)) = [n] := by
    obtain ⟨front, back, rfl⟩ := List.append_of_mem hn
    rw [List.map_append, List.map_cons, List.nodup_middle, List.nodup_cons] at hnodup
    have hother : ∀ m ∈ front ++ back, m.ref ≠ n.ref := by
      intro m hm heq
      exact hnodup.1 (heq ▸ List.map_append ▸ List.mem_map_of_mem hm)
    have hfront : front.filter (fun m => decide (m.ref = n.ref)) = [] :=
      List.filter_eq_nil_iff.mpr fun m hm => by simpa using hother m (List.mem_append_left _ hm)
    have hback : back.filter (fun m => decide (m.ref = n.ref)) = [] :=
      List.filter_eq_nil_iff.mpr fun m hm => by simpa using hother m (List.mem_append_right _ hm)
    rw [List.filter_append, List.filter_cons, hfront, hback]
    simp
  have hperm := List.filter_append_perm (fun m : Neighbour => decide (m.ref = n.ref)) l
  rw [hself] at hperm
  simpa using hperm

/-- Taking a candidate moves it. -/
theorem perm_whole_take (hnodup : (sel.inst.candidateNeighbours.map (·.ref)).Nodup)
    {n : Neighbour} (hn : n ∈ sel.inst.candidateNeighbours) (k : Nat) :
    ((sel.take n k).whole.candidateNeighbours.map Neighbour.unmarked).Perm
      (sel.whole.candidateNeighbours.map Neighbour.unmarked) := by
  have hperm := (perm_take hnodup hn).map Neighbour.unmarked
  unfold Selection.whole Selection.take
  simp only [List.map_append, List.append_assoc]
  exact hperm.append_left _

theorem Gathered.nodup (h : Gathered policy link s pref sel) (hs : Sound (fun _ => False) s) :
    (sel.inst.candidateNeighbours.map (·.ref)).Nodup :=
  (h.keeps.sound hs).distinct.resolve_left id

/-- The preferred parent is the first to be taken. -/
theorem Gathered.start (hs : Sound (fun _ => False) s) (hpref : pref ∈ s.candidateNeighbours)
    (hmarks : ∀ n ∈ s.candidateNeighbours, n.dodagParent = false) (rank cost : UInt16) :
    Gathered policy link s pref (Selection.take ⟨s, [], rank, 0, cost, false⟩ pref 0) where
  keeps := Selection.Keeps.start .rfl hpref
  inst := rfl
  perm := perm_whole_take (hs.distinct.resolve_left id) hpref 0
  parents := ⟨[], rfl, by simp⟩
  unmarked := fun n hn => hmarks n (List.mem_filter.mp hn).1

/-- A backup follows. -/
theorem Gathered.take (h : Gathered policy link s pref sel) (hs : Sound (fun _ => False) s)
    {b : Neighbour} (hb : b ∈ sel.inst.candidateNeighbours) (hversion : b.version = pref.version)
    (hacc : rpl_mrhof_neighbour_acceptable policy (linkEtx link) b = true) (k : Nat)
    (rank : UInt16) (lastPref : Nat) (cost : UInt16) :
    Gathered policy link s pref
      { sel.take b k with rank := rank, lastPref := lastPref, lastCost := cost } where
  keeps := ⟨(h.keeps.take hb k).kept, (h.keeps.take hb k).parent⟩
  inst := by
    rw [Selection.take, h.inst]
  perm := (perm_whole_take (h.nodup hs) hb k).trans h.perm
  parents := by
    obtain ⟨backups, hparents, hbackups⟩ := h.parents
    refine ⟨backups ++ [{ b with dodagParent := true, dodagPref := k }], ?_, ?_⟩
    · change sel.parents ++ _ = _
      rw [hparents, List.cons_append]
    · intro p hp
      rcases List.mem_append.mp hp with hp | hp
      · exact hbackups p hp
      · obtain rfl := List.mem_singleton.mp hp
        exact ⟨rfl, hversion, hacc⟩
  unmarked := fun n hn => h.unmarked n (List.mem_filter.mp hn).1

theorem cheapest_succ (etx : Neighbour → UInt16) (more : Nat) (l : List Neighbour) :
    cheapest etx (more + 1) l = match l.argmin (pathCost etx) with
      | none => []
      | some b => b :: cheapest etx more (l.filter (·.ref ≠ b.ref)) := rfl

theorem mem_of_mem_cheapest {etx : Neighbour → UInt16} {more : Nat} {l : List Neighbour}
    {b : Neighbour} (h : b ∈ cheapest etx more l) : b ∈ l := by
  induction more generalizing l with
  | zero => cases h
  | succ more ih =>
    rw [cheapest_succ] at h
    cases hbest : l.argmin (pathCost etx) with
    | none =>
      rw [hbest] at h
      cases h
    | some c =>
      rw [hbest] at h
      rcases List.mem_cons.mp h with rfl | h
      · exact List.argmin_mem hbest
      · exact (List.mem_filter.mp (ih h)).1

theorem raised_ne_infinite {rank : UInt16} :
    raised sel rank ≠ infinite ↔ sel.rank ≠ infinite ∧ rank ≠ infinite := by
  unfold raised
  by_cases hlt : sel.rank < rank
  · have hne : sel.rank ≠ infinite := fun heq =>
      UInt16.not_lt.mpr (le_infinite rank) (heq ▸ hlt)
    simp [hlt, hne]
  · rw [if_neg hlt]
    refine ⟨fun h => ⟨h, ne_infinite_of_le (UInt16.not_lt.mp hlt) h⟩, fun h => h.1⟩

/-- One round of the loop. -/
theorem selectBackups_some {etx : Neighbour → UInt16} {maxRank rank : UInt16} {b : Neighbour}
    (h : rpl_mrhof_select_backup_parent policy etx sel.inst pref maxRank = .ok (some (b, rank)))
    (v : Version) (more : Nat) :
    ∃ lastPref cost, selectBackups policy etx pref v maxRank (more + 1) sel
      = if raised sel rank ≠ infinite ∧ v.greedinessRankLimit < raised sel rank then
          .ok { sel with rank := v.greedinessRankLimit, excess := true }
        else selectBackups policy etx pref v maxRank more
          { sel.take b lastPref with
            rank := raised sel rank, lastPref := lastPref, lastCost := cost } := by
  let worse := decide (sel.lastCost < rpl_mrhof_path_cost_through_neighbour etx b ∧
    sel.lastPref < 15)
  refine ⟨if worse then sel.lastPref + 1 else sel.lastPref,
    if worse then rpl_mrhof_path_cost_through_neighbour etx b else sel.lastCost, ?_⟩
  conv => lhs; unfold selectBackups
  rw [h]
  rfl

/-- **The loop over backups.**  It takes the cheapest ones, and the rank stays finite
unless one of them asks for an infinite rank. -/
theorem ends_selectBackups (hs : Sound (fun _ => False) s) {d : Dodag} {v : Version}
    (hv : s.version pref.version = .ok (d, v)) (hm : d.config.minHopRankIncrease ≠ 0)
    {maxRank : UInt16} (hmax : maxRank ≤ v.greedinessRankLimit) :
    ∀ more sel, Gathered policy link s pref sel →
      ∃ sel', selectBackups policy (linkEtx link) pref v maxRank more sel = .ok sel' ∧
        Gathered policy link s pref sel' ∧ sel'.parents.length ≤ sel.parents.length + more ∧
        (sel'.rank ≠ infinite ↔ sel.rank ≠ infinite ∧ ∀ b ∈ cheapest (linkEtx link) more
          (sel.inst.candidateNeighbours.filter (backs policy (linkEtx link) d pref maxRank)),
          asks (linkEtx link) d b ≠ infinite) := by
  intro more
  induction more with
  | zero =>
    intro sel hsel
    exact ⟨sel, rfl, hsel, Nat.le_refl _, by simp [cheapest]⟩
  | succ more ih =>
    intro sel hsel
    have hlookup : sel.inst.version pref.version = .ok (d, v) := by
      rw [hsel.inst]
      exact hv
    have hfound : rpl_mrhof_select_backup_parent policy (linkEtx link) sel.inst pref maxRank = _ :=
      rpl_mrhof_select_backup_parent_eq hlookup hm hsel.unmarked maxRank
    rw [cheapest_succ]
    cases hbest : (sel.inst.candidateNeighbours.filter
        (backs policy (linkEtx link) d pref maxRank)).argmin (pathCost (linkEtx link)) with
    | none =>
      rw [hbest, Option.map_none] at hfound
      refine ⟨sel, ?_, hsel, by omega, by simp⟩
      unfold selectBackups
      rw [hfound]
      rfl
    | some b =>
      obtain ⟨hmem, hbacks⟩ := List.mem_filter.mp (List.argmin_mem hbest)
      unfold backs eligible at hbacks
      simp only [Bool.and_eq_true, decide_eq_true_eq] at hbacks
      obtain ⟨⟨-, hversion, hacc⟩, hle⟩ := hbacks
      rw [hbest, Option.map_some] at hfound
      obtain ⟨lastPref, cost, hstep⟩ := selectBackups_some hfound v more
      rw [hstep]
      by_cases hgreedy : raised sel (asks (linkEtx link) d b) ≠ infinite ∧
          v.greedinessRankLimit < raised sel (asks (linkEtx link) d b)
      · -- a limit that is exceeded is finite, and so is what any backup asks for
        rw [if_pos hgreedy]
        refine ⟨_, rfl, ⟨⟨hsel.keeps.kept, hsel.keeps.parent⟩, hsel.inst, hsel.perm, hsel.parents,
          hsel.unmarked⟩, by simp, ?_⟩
        have hlimit : v.greedinessRankLimit ≠ infinite := fun heq =>
          UInt16.not_lt.mpr (le_infinite _) (heq ▸ hgreedy.2)
        refine iff_of_true hlimit ⟨(raised_ne_infinite.mp hgreedy.1).1, fun c hc => ?_⟩
        have hcheap : c ∈ cheapest (linkEtx link) (more + 1) (sel.inst.candidateNeighbours.filter
            (backs policy (linkEtx link) d pref maxRank)) := by
          rw [cheapest_succ, hbest]
          exact hc
        have hbacks := (List.mem_filter.mp (mem_of_mem_cheapest hcheap)).2
        unfold backs at hbacks
        rw [Bool.and_eq_true, decide_eq_true_eq] at hbacks
        exact ne_infinite_of_le (UInt16.le_trans hbacks.2 hmax) hlimit
      · rw [if_neg hgreedy]
        obtain ⟨sel', hends, hgathered, hlength, hrank⟩ := ih _
          (hsel.take hs hmem hversion hacc lastPref (raised sel (asks (linkEtx link) d b)) lastPref
            cost)
        refine ⟨sel', hends, hgathered, ?_, ?_⟩
        · refine hlength.trans ?_
          change (sel.parents ++ [_]).length + more ≤ _
          rw [List.length_append, List.length_singleton]
          omega
        · rw [hrank, raised_ne_infinite]
          change (_ ∧ ∀ c ∈ cheapest (linkEtx link) more (List.filter _ (List.filter _ _)), _) ↔ _
          rw [List.filter_comm, List.forall_mem_cons, and_assoc]

end Mrhof

end Rpl
