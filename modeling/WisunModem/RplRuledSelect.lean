import WisunModem.RplRuledDio
import Mathlib.Data.List.Pairwise

/-!
# A selection breaks no rule

Behind the objective function the preferred parent stays at the head of the candidates:
neither the end of a local repair nor the last deletion takes a parent whose DAGRank is
below the own one.
-/

namespace Rpl

open Faults Mrhof

namespace Instance

variable {cfg : Nat → Conf} {sent : List Sent} {etx : Neighbour → UInt16} {s t : Instance}

/-- A finite rank has a DAGRank above that of each parent, and is no less than the path cost
through the preferred one. -/
def RankOk (etx : Neighbour → UInt16) (s : Instance) : Prop :=
  ∀ d v, s.current = .ok (some (d, v)) → s.currentRank ≠ infinite →
    (∀ n ∈ s.candidateNeighbours, n.dodagParent →
      dagRank d.config.minHopRankIncrease n.rank <
        dagRank d.config.minHopRankIncrease s.currentRank) ∧
    ∀ n ∈ s.rpl_instance_preferred_parent,
      rpl_mrhof_path_cost_through_neighbour etx n ≤ s.currentRank

/-- There is a preferred parent where there is a current version, and the rank is right. -/
def Rated (etx : Neighbour → UInt16) (s : Instance) : Prop :=
  ∀ ref ∈ s.currentDodagVersion, ∃ n d v, s.version ref = .ok (d, v) ∧
    s.candidateNeighbours.head? = some n ∧ n.dodagParent ∧
    (s.currentRank ≠ infinite → rpl_mrhof_path_cost_through_neighbour etx n ≤ s.currentRank ∧
      ∀ m ∈ s.candidateNeighbours, m.dodagParent →
        dagRank d.config.minHopRankIncrease m.rank <
          dagRank d.config.minHopRankIncrease s.currentRank)

theorem Rated.rankOk (h : Rated etx s) : RankOk etx s := by
  intro d v hcurrent hfinite
  unfold current at hcurrent
  cases href : s.currentDodagVersion with
  | none =>
      rw [href] at hcurrent
      cases hcurrent
  | some ref =>
      obtain ⟨n, d', v', hv, hhead, hparent, hrank⟩ := h ref href
      rw [href] at hcurrent
      dsimp only at hcurrent
      rw [hv] at hcurrent
      cases hcurrent
      obtain ⟨hcost, hlower⟩ := hrank hfinite
      refine ⟨hlower, fun m hm => ?_⟩
      unfold rpl_instance_preferred_parent at hm
      rw [hhead] at hm
      have hsome := (Option.filter_eq_some_iff.mp hm).1
      cases hsome
      exact hcost

theorem Rated.of_none (h : s.currentDodagVersion = none) : Rated etx s := by
  intro ref href
  rw [h] at href
  cases href

/-- What is left of the candidates is rated as long as the preferred parent is left. -/
theorem Rated.trimmed (h : Rated etx s) (ht : Trimmed s t)
    (hhead : t.candidateNeighbours.head? = s.candidateNeighbours.head?) : Rated etx t := by
  intro ref href
  rw [ht.current] at href
  obtain ⟨n, d, v, hv, hn, hparent, hrank⟩ := h ref href
  refine ⟨n, d, v, (version_congr ht.dodags ref).trans hv, hhead.trans hn, hparent, ?_⟩
  rw [ht.rank]
  intro hfinite
  obtain ⟨hcost, hlower⟩ := hrank hfinite
  exact ⟨hcost, fun m hm => hlower m (ht.neighbours.subset hm)⟩

/-! ## Deleting behind the preferred parent -/

/-- A loop that does not take the head of the list leaves it there. -/
theorem meets_deleteWhere_head {gone : Instance → Neighbour → Except Fault Bool}
    (hnodup : (s.candidateNeighbours.map (·.ref)).Nodup)
    (hgone : ∀ t n, Trimmed s t → s.candidateNeighbours.head? = some n →
      Meets (fun _ => True) (gone t n) (· = false)) :
    Meets (fun _ => True) (s.deleteWhere gone) fun t =>
      Trimmed s t ∧ t.candidateNeighbours.head? = s.candidateNeighbours.head? := by
  refine meets_foldlM (fun t => Trimmed s t ∧
    t.candidateNeighbours.head? = s.candidateNeighbours.head?) (fun t n hn ht => ?_)
    ⟨⟨rfl, rfl, rfl, rfl, rfl, .refl _⟩, rfl⟩
  obtain ⟨ht, hhead⟩ := ht
  rw [meets_bind]
  by_cases hfirst : s.candidateNeighbours.head? = some n
  · refine (hgone t n ht hfirst).mono fun b hb => ?_
    rw [hb]
    exact ⟨ht, hhead⟩
  · refine (meets_true _).mono fun b _ => ?_
    cases b with
    | false => exact ⟨ht, hhead⟩
    | true =>
        refine (meets_delete (.inl trivial)).mono fun u hu => ?_
        subst hu
        refine ⟨ht.trans ⟨rfl, rfl, rfl, rfl, rfl, List.filter_sublist⟩, ?_⟩
        rw [← hhead]
        cases hlist : t.candidateNeighbours with
        | nil => rfl
        | cons m ms =>
            have hm : m ∈ s.candidateNeighbours :=
              ht.neighbours.subset (hlist ▸ List.mem_cons_self)
            have hne : m.ref ≠ n.ref := by
              intro heq
              rw [List.inj_on_of_nodup_map hnodup hm hn heq] at hlist
              rw [← hhead, hlist] at hfirst
              exact hfirst rfl
            dsimp only
            rw [List.filter_cons_of_pos (by simpa using hne)]
            rfl

/-- A rank whose DAGRank is below that of a finite one does not compare greater. -/
theorem meets_compare_not_greater {minHop a b : UInt16} (hm : minHop ≠ 0)
    (h : b ≠ infinite → dagRank minHop a < dagRank minHop b) :
    Meets (fun _ => True) (rpl_rank_compare minHop a b) (· ≠ .greater) := by
  obtain ⟨da, hda, haval⟩ := nrpl_dag_rank_eq hm a
  obtain ⟨db, hdb, hbval⟩ := nrpl_dag_rank_eq hm b
  unfold rpl_rank_compare rpl_rank_compare_dagrank_rank
  rw [hda, meets_bind, meets_ok]
  by_cases hinf : b = infinite
  · rw [if_pos hinf, if_pos hinf]
    split
    · rw [meets_ok]
      decide
    · rw [meets_ok]
      decide
  · have hlt := h hinf
    have hbound : dagRank minHop b < 65535 := dagRank_lt_infinite hinf
    have hda' : da ≠ infinite := by
      rintro rfl
      rw [toNat_infinite] at haval
      omega
    have hless : da < db := by
      rw [UInt16.lt_iff_toNat_lt, haval, hbval]
      exact hlt
    rw [if_neg hda', if_neg hinf, hdb, meets_bind, meets_ok, meets_pure, if_pos hless]
    decide

/-- The preferred parent is in no sub-DODAG. -/
theorem Rated.meets_not_sub (h : Rated etx s) (hm : ∀ d ∈ s.dodags, d.versions ≠ [] →
      d.config.minHopRankIncrease ≠ 0) {n : Neighbour}
    (hn : s.candidateNeighbours.head? = some n) (version : Nat) :
    Meets (fun _ => True) (s.possibleSubDodag version n.rank) (· = false) := by
  unfold possibleSubDodag
  split
  case isFalse => trivial
  case isTrue hcurrent =>
    obtain ⟨m, d, v, hv, hhead, hparent, hrank⟩ := h version hcurrent
    rw [hhead] at hn
    cases hn
    obtain ⟨hd, hvmem, -⟩ := version_spec hv
    rw [hv, meets_bind, meets_ok]
    dsimp only
    rw [meets_bind]
    refine (meets_compare_not_greater (hm d hd (List.ne_nil_of_mem hvmem)) fun hfinite =>
      (hrank hfinite).2 n (List.mem_of_mem_head? hhead) hparent).mono fun cmp hcmp => ?_
    rw [meets_pure]
    simpa using hcmp

theorem Rated.meets_set_local_repair (h : Rated etx s)
    (hnodup : (s.candidateNeighbours.map (·.ref)).Nodup)
    (hm : ∀ d ∈ s.dodags, d.versions ≠ [] → d.config.minHopRankIncrease ≠ 0) (repair : Bool) :
    Meets (fun _ => True) (s.rpl_instance_set_local_repair repair) fun t =>
      Trimmed s t ∧ t.candidateNeighbours.head? = s.candidateNeighbours.head? := by
  unfold rpl_instance_set_local_repair
  split
  · exact ⟨⟨rfl, rfl, rfl, rfl, rfl, .refl _⟩, rfl⟩
  · have htrim : Trimmed s { s with localRepair := repair } := ⟨rfl, rfl, rfl, rfl, rfl, .refl _⟩
    have hrated : Rated etx { s with localRepair := repair } := h.trimmed htrim rfl
    dsimp only
    split
    · refine (meets_deleteWhere_head (s := { s with localRepair := repair }) hnodup
        fun t n ht hn => ?_).mono fun t ht => ⟨htrim.trans ht.1, ht.2⟩
      rw [meets_bind]
      refine meets_version (.inl trivial) fun _ _ _ => ?_
      have hsub := hrated.meets_not_sub hm hn n.version
      unfold possibleSubDodag at hsub ⊢
      rwa [ht.current, ht.rank, version_congr ht.dodags]
    · exact ⟨htrim, rfl⟩

theorem Rated.meets_controlRepair (h : Rated etx s)
    (hnodup : (s.candidateNeighbours.map (·.ref)).Nodup)
    (hm : ∀ d ∈ s.dodags, d.versions ≠ [] → d.config.minHopRankIncrease ≠ 0) (poison : Nat) :
    Meets (fun _ => True) (s.controlRepair poison) fun t => Trimmed s t ∧ Rated etx t := by
  cases hcurrent : s.currentDodagVersion with
  | none =>
      refine (Instance.meets_controlRepair (sound_of_all s) poison (.inl trivial)).mono
        fun t ht => ⟨ht, .of_none (ht.current.trans hcurrent)⟩
  | some ref =>
      obtain ⟨n, d, v, hv, hhead, hparent, hrank⟩ := h ref hcurrent
      have hpreferred : s.rpl_instance_preferred_parent = some n := by
        unfold rpl_instance_preferred_parent
        rw [hhead, Option.filter_some, hparent]
        rfl
      unfold controlRepair
      rw [hpreferred]
      dsimp only
      rw [meets_bind]
      refine (h.meets_set_local_repair hnodup hm false).mono fun t ht => ?_
      obtain ⟨ht, hsame⟩ := ht
      have hrated := h.trimmed ht hsame
      rw [meets_bind]
      refine (meets_true _).mono fun found _ => ?_
      cases found with
      | none => trivial
      | some dv => exact ⟨⟨ht.dodags, ht.current, ht.rank, ht.of, ht.fresh, ht.neighbours⟩,
          hrated.trimmed ⟨rfl, rfl, rfl, rfl, rfl, .refl _⟩ rfl⟩

/-! ## The objective function -/

/-- A version has one record. -/
theorem version_unique (h : s.versionRefs.Nodup) {d e : Dodag} {v w : Version} (hd : d ∈ s.dodags)
    (he : e ∈ s.dodags) (hv : v ∈ d.versions) (hw : w ∈ e.versions) (href : v.ref = w.ref) :
    d = e ∧ v = w := by
  obtain ⟨hself, hpairs⟩ := List.nodup_flatMap.mp h
  have hsame : d = e := by
    by_contra hne
    have : Std.Symm (Function.onFun List.Disjoint Dodag.versionRefs) := ⟨fun _ _ h => h.symm⟩
    have hdisjoint := List.Pairwise.forall hpairs hd he hne
    exact hdisjoint (List.mem_map_of_mem hv) (href ▸ List.mem_map_of_mem hw)
  subst hsame
  exact ⟨rfl, List.inj_on_of_nodup_map (hself d hd) hv hw href⟩

/-- Two DODAGs are the same but for greediness limits. -/
structure SameBut (d e : Dodag) : Prop where
  id : d.id = e.id
  config : d.config = e.config
  haveConfig : d.haveConfig = e.haveConfig
  root : d.root = e.root
  wasRoot : d.wasRoot = e.wasRoot
  versions : d.versions.map Version.ungreedy = e.versions.map Version.ungreedy

theorem SameBut.of_eq {d e : Dodag} (h : d.ungreedy = e.ungreedy) : SameBut d e := by
  have hid : d.ungreedy.id = e.ungreedy.id := by rw [h]
  have hconfig : d.ungreedy.config = e.ungreedy.config := by rw [h]
  have hhave : d.ungreedy.haveConfig = e.ungreedy.haveConfig := by rw [h]
  have hroot : d.ungreedy.root = e.ungreedy.root := by rw [h]
  have hwas : d.ungreedy.wasRoot = e.ungreedy.wasRoot := by rw [h]
  have hversions : d.ungreedy.versions = e.ungreedy.versions := by rw [h]
  exact ⟨hid, hconfig, hhave, hroot, hwas, hversions⟩

/-- What a DODAG was before limits changed. -/
theorem mem_ungreedy (h : t.dodags.map Dodag.ungreedy = s.dodags.map Dodag.ungreedy) {e : Dodag}
    (he : e ∈ t.dodags) : ∃ d ∈ s.dodags, SameBut d e := by
  have hmem := List.mem_map_of_mem (f := Dodag.ungreedy) he
  rw [h] at hmem
  obtain ⟨d, hd, heq⟩ := List.mem_map.mp hmem
  exact ⟨d, hd, .of_eq heq⟩

theorem SameBut.mem {d e : Dodag} (h : SameBut d e) {v : Version} (hv : v ∈ e.versions) :
    ∃ w ∈ d.versions, w.number = v.number ∧ w.hardRankLimit = v.hardRankLimit ∧
      w.lowestAdvertisedRank = v.lowestAdvertisedRank := by
  have hmem := List.mem_map_of_mem (f := Version.ungreedy) hv
  rw [← h.versions] at hmem
  obtain ⟨w, hw, heq⟩ := List.mem_map.mp hmem
  have hnumber : w.ungreedy.number = v.ungreedy.number := by rw [heq]
  have hhard : w.ungreedy.hardRankLimit = v.ungreedy.hardRankLimit := by rw [heq]
  have hlow : w.ungreedy.lowestAdvertisedRank = v.ungreedy.lowestAdvertisedRank := by rw [heq]
  exact ⟨w, hw, hnumber, hhard, hlow⟩

/-- **The objective function breaks no rule.** -/
theorem Ruled.picked {r : Instance × Bool} (hs : Ruled cfg sent s) (hkept : Kept s r.1)
    (hdodags : r.1.dodags.map Dodag.ungreedy = s.dodags.map Dodag.ungreedy) (hof : r.1.of = s.of)
    (hset : s.of = some .mrhof)
    (hrank : ∀ ref ∈ r.1.currentDodagVersion, r.1.currentRank ≠ infinite → ∃ d v,
      r.1.version ref = .ok (d, v) ∧ r.1.currentRank ≤ v.hardRankLimit) : Ruled cfg sent r.1 where
  numbered := hkept.numbered hs.numbered
  ids := by
    have hids := congrArg (List.map Dodag.id) hdodags
    rw [List.map_map, List.map_map] at hids
    change r.1.dodags.map (·.id) = s.dodags.map (·.id) at hids
    exact hids ▸ hs.ids
  versions := hkept.versionRefs ▸ hs.versions
  versionsBelow := by
    rw [hkept.versionRefs, hkept.fresh]
    exact hs.versionsBelow
  neighbours := by
    obtain ⟨refs, hperm, hsub⟩ := hkept.refs
    exact hperm.nodup_iff.mp (hs.neighbours.sublist hsub)
  neighboursBelow := by
    intro n hn
    obtain ⟨m, hm, href, -⟩ := hkept.mem_neighbours hn
    rw [hkept.fresh, ← href]
    exact hs.neighboursBelow m hm
  config := by
    intro e he hhave
    obtain ⟨d, hd, hsame⟩ := mem_ungreedy hdodags he
    rw [← hsame.config, ← hsame.id]
    exact hs.config d hd (hsame.haveConfig ▸ hhave)
  haveConfig := by
    intro e he hne
    obtain ⟨d, hd, hsame⟩ := mem_ungreedy hdodags he
    obtain ⟨v, hv⟩ := List.exists_mem_of_ne_nil _ hne
    obtain ⟨w, hw, -⟩ := hsame.mem hv
    exact hsame.haveConfig ▸ hs.haveConfig d hd (List.ne_nil_of_mem hw)
  notRoot := by
    intro e he
    obtain ⟨d, hd, hsame⟩ := mem_ungreedy hdodags he
    rw [← hsame.root, ← hsame.wasRoot]
    exact hs.notRoot d hd
  of := .inl (hof.trans hset)
  numbers := by
    intro e he
    obtain ⟨d, hd, hsame⟩ := mem_ungreedy hdodags he
    have hnumbers := congrArg (List.map Version.number) hsame.versions
    rw [List.map_map, List.map_map] at hnumbers
    change d.versions.map (·.number) = e.versions.map (·.number) at hnumbers
    exact hnumbers ▸ hs.numbers d hd
  limited := by
    intro e he v hv
    obtain ⟨d, hd, hsame⟩ := mem_ungreedy hdodags he
    obtain ⟨w, hw, hnumber, hhard, hlow⟩ := hsame.mem hv
    have hlimited := hs.limited d hd w hw
    refine ⟨?_, ?_⟩
    · rw [← hhard, ← hlow, ← hsame.id]
      exact hlimited.hard
    · rw [← hlow, ← hsame.id, ← hnumber]
      exact hlimited.lowest
  rank := by
    intro e he v hv hcurrent hfinite
    obtain ⟨d', v', hv', hle⟩ := hrank v.ref hcurrent hfinite
    obtain ⟨hd', hmem', href⟩ := version_spec hv'
    have hnodup : r.1.versionRefs.Nodup := hkept.versionRefs ▸ hs.versions
    obtain ⟨-, hsame⟩ := version_unique hnodup hd' he hmem' hv href
    exact hsame ▸ hle

/-- Behind the objective function the rank is right. -/
theorem rated_of_picked {link : Nat → Nat → UInt16} {m : Instance} {r : Instance × Bool}
    (h : Picked (etxRead link) m r) : Rated (etxRead link) r.1.unmark := by
  intro ref href
  obtain ⟨pref, d, v, hv, hhead, hrank⟩ := h.current ref href
  refine ⟨_, d, v, hv, (List.head?_map ..).trans (congrArg _ hhead), rfl, fun hfinite => ?_⟩
  obtain ⟨-, hcost, hlower⟩ := hrank hfinite
  refine ⟨hcost, fun n hn hparent => ?_⟩
  obtain ⟨k, hk, rfl⟩ := List.mem_map.mp hn
  exact hlower k hk hparent

theorem Ruled.minHop_ne_zero (hs : Ruled cfg sent s)
    (hm : ∀ id, (cfg id).minHopRankIncrease ≠ 0) :
    ∀ d ∈ s.dodags, d.versions ≠ [] → d.config.minHopRankIncrease ≠ 0 := by
  intro d hd hne
  rw [hs.config d hd (hs.haveConfig d hd hne)]
  exact hm d.id

/-- No candidate of the node slips through between the limits of its version. -/
def AllCapped (policy : Policy) (etx : Neighbour → UInt16) (s : Instance) : Prop :=
  ∀ d ∈ s.dodags, ∀ v ∈ d.versions, Capped policy etx s.candidateNeighbours d v

theorem AllCapped.marked {policy : Policy} {link : Nat → Nat → UInt16} {m : Instance}
    (h : AllCapped policy (etxRead link) s) (hm : Marked s m) :
    AllCapped policy (etxRead link) m := by
  intro d hd v hv n hn hversion hacceptable rank hrank
  obtain ⟨k, hk, rfl⟩ := hm.neighbours n hn
  exact h d (hm.dodags ▸ hd) v hv k hk hversion hacceptable rank hrank

/-- **A selection breaks no rule**, and leaves a rank within the limits. -/
theorem Ruled.meets_selectParents {policy : Policy} {link : Nat → Nat → UInt16}
    {aged : Neighbour → Bool} {poison : Nat} (hs : Ruled cfg sent s)
    (hmin : ∀ id, (cfg id).minHopRankIncrease ≠ 0) (hset : s.of = some .mrhof)
    (hcapped : AllCapped policy (etxRead link) s) :
    Meets (fun _ => True) (s.selectParents policy (etxRead link) aged poison .mrhof) fun r =>
      Ruled cfg sent r.1 ∧ r.2 = false ∧ RankOk (etxRead link) r.1 := by
  unfold selectParents
  rw [meets_bind]
  refine (meets_startSelection (sound_of_all s) aged).mono fun m hm => ?_
  have hlevel : ∀ d ∈ m.dodags, ∀ v ∈ d.versions,
      LevelClosed d.config.minHopRankIncrease v.hardRankLimit := by
    rw [hm.dodags]
    intro d hd v hv
    rw [hs.config_of_version hd hv]
    exact ⟨_, (hs.limited d hd v hv).hard⟩
  have hpicked : Meets (fun _ => True) (m.parentSelection policy (etxRead link) .mrhof)
      (Picked (etxRead link) m) :=
    meets_picked (fun n hn => hm.parents hn) (hm.dodags ▸ fun d hd => (hs.notRoot d hd).1)
      (hm.dodags ▸ hs.minHop_ne_zero hmin) hlevel (hcapped.marked hm)
  rw [meets_bind]
  refine ((meets_parentSelection (sound_of_all m)).and hpicked).mono fun r hr => ?_
  obtain ⟨hselected, hpicked⟩ := hr
  have ht : Ruled cfg sent r.1 := by
    refine hs.picked (hm.kept.trans hselected.kept) (hm.dodags ▸ hpicked.dodags)
      (hpicked.of.trans hm.of) hset fun ref href hfinite => ?_
    obtain ⟨pref, d, v, hv, -, hrank⟩ := hpicked.current ref href
    exact ⟨d, v, hv, (hrank hfinite).1⟩
  have hu : Ruled cfg sent r.1.unmark := by
    have hshrunk : Shrunk cfg r.1 r.1.unmark := by
      refine ⟨fun e he => ⟨e, he, .rfl⟩, .refl _, .refl _, .refl _, ?_, rfl, .inl rfl, .inl rfl,
        .inl rfl⟩
      unfold unmark
      dsimp only
      rw [List.map_map]
      exact .refl _
    exact hshrunk.ruled ht
  have hrated := rated_of_picked hpicked
  dsimp only
  rw [meets_bind]
  refine (hrated.meets_controlRepair hu.neighbours (hu.minHop_ne_zero hmin) poison).mono
    fun w hw => ?_
  obtain ⟨htrim, hrated⟩ := hw
  have hw : Ruled cfg sent w := htrim.shrunk.ruled hu
  rw [meets_bind]
  have hlast : Meets (fun _ => True) (w.deleteWhere fun _ n =>
      pure (!n.dodagParent && !neighbourAcceptable policy (etxRead link) .mrhof n)) fun x =>
        Trimmed w x ∧ Rated (etxRead link) x := by
    cases hcurrent : w.currentDodagVersion with
    | none =>
        exact (meets_deleteWhere (sound_of_all w) fun _ _ _ _ => meets_pure.mpr trivial).mono
          fun x hx => ⟨hx, .of_none (hx.current.trans hcurrent)⟩
    | some ref =>
        obtain ⟨n, d, v, -, hhead, hparent, -⟩ := hrated ref hcurrent
        refine (meets_deleteWhere_head hw.neighbours fun t k _ hk => ?_).mono
          fun x hx => ⟨hx.1, hrated.trimmed hx.1 hx.2⟩
        rw [hhead] at hk
        cases hk
        rw [meets_pure, hparent]
        rfl
  refine hlast.mono fun x hx => ?_
  rw [meets_bind]
  refine (meets_true _).mono fun _ _ => ?_
  exact ⟨hx.1.shrunk.ruled hw, hpicked.noExcess, hx.2.rankOk⟩

end Instance

end Rpl
