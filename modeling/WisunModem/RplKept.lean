import WisunModem.RplUpward
import Mathlib.Data.List.Perm.Subperm

/-!
# What parent selection leaves alone

Parent selection deletes neighbours, marks and moves those that are left, and writes the
ranks of versions; `Kept s t` says that nothing else differs.  The functions are followed
in an instance that is `Sound` for the allowed faults: pointers that are followed lead to
records unless `freed` is allowed, and what is divided by is not zero unless
`divideByZero` is.
-/

namespace Rpl

open Faults

/-- A version without the ranks. -/
def Version.bare (v : Version) : Version :=
  { v with
    lowestAdvertisedRank := 0
    lastAdvertisedRank := 0
    hardRankLimit := 0
    greedinessRankLimit := 0 }

/-- A DODAG without the ranks of its versions. -/
def Dodag.bare (d : Dodag) : Dodag := { d with versions := d.versions.map Version.bare }

def Dodag.versionRefs (d : Dodag) : List Nat := d.versions.map (·.ref)

theorem Dodag.versionRefs_bare (d : Dodag) : d.bare.versionRefs = d.versionRefs := by
  simp only [versionRefs, bare, List.map_map]
  rfl

/-- What tells neighbours apart, with the pointer to the version. -/
def Neighbour.key (n : Neighbour) : Nat × Nat := (n.ref, n.version)

section

variable {allowed : Fault → Prop}

/-! ## Divisions -/

theorem meets_nrpl_dag_rank {minHop : UInt16} (h : allowed .divideByZero ∨ minHop ≠ 0)
    (rank : UInt16) : Meets allowed (nrpl_dag_rank minHop rank) fun _ => True := by
  unfold nrpl_dag_rank
  split
  · trivial
  · split
    case isTrue hzero => exact h.resolve_right fun hne => hne hzero
    case isFalse => trivial

theorem meets_rpl_rank_compare_dagrank_rank {minHop : UInt16}
    (h : allowed .divideByZero ∨ minHop ≠ 0) (a b : UInt16) :
    Meets allowed (rpl_rank_compare_dagrank_rank minHop a b) fun _ => True := by
  unfold rpl_rank_compare_dagrank_rank
  split
  · trivial
  · split
    · trivial
    · rw [meets_bind]
      exact (meets_nrpl_dag_rank h b).mono fun _ _ => trivial

theorem meets_rpl_rank_compare {minHop : UInt16} (h : allowed .divideByZero ∨ minHop ≠ 0)
    (a b : UInt16) : Meets allowed (rpl_rank_compare minHop a b) fun _ => True := by
  unfold rpl_rank_compare
  rw [meets_bind]
  exact (meets_nrpl_dag_rank h a).mono fun _ _ => meets_rpl_rank_compare_dagrank_rank h ..

theorem meets_rpl_rank_next_level {minHop : UInt16} (h : allowed .divideByZero ∨ minHop ≠ 0)
    (a : UInt16) : Meets allowed (rpl_rank_next_level minHop a) fun _ => True := by
  unfold rpl_rank_next_level
  rw [meets_bind]
  exact (meets_nrpl_dag_rank h a).mono fun _ _ => trivial

theorem meets_rpl_rank_max_at_level {minHop : UInt16} (h : allowed .divideByZero ∨ minHop ≠ 0)
    (a : UInt16) : Meets allowed (rpl_rank_max_at_level minHop a) fun _ => True := by
  unfold rpl_rank_max_at_level
  rw [meets_bind]
  exact (meets_nrpl_dag_rank h a).mono fun _ _ => trivial

end

namespace Instance

/-- The numbers of the versions that are alive. -/
def versionRefs (s : Instance) : List Nat := s.dodags.flatMap Dodag.versionRefs

theorem mem_versionRefs {s : Instance} {ref : Nat} :
    ref ∈ s.versionRefs ↔ ∃ d ∈ s.dodags, ∃ v ∈ d.versions, v.ref = ref := by
  simp [versionRefs, Dodag.versionRefs]

section

variable {allowed : Fault → Prop} {s t u : Instance}

/-! ## Following pointers -/

theorem version_spec {ref : Nat} {d : Dodag} {v : Version} (h : s.version ref = .ok (d, v)) :
    d ∈ s.dodags ∧ v ∈ d.versions ∧ v.ref = ref := by
  unfold version at h
  split at h
  case h_2 => cases h
  case h_1 dv hfind =>
    cases h
    obtain ⟨e, he, hin⟩ := List.exists_of_findSome?_eq_some hfind
    unfold versionIn at hin
    obtain ⟨w, hw, hpair⟩ := Option.map_eq_some_iff.mp hin
    cases hpair
    exact ⟨he, List.mem_of_find?_eq_some hw, by simpa using List.find?_some hw⟩

theorem version_eq_error {ref : Nat} {e : Fault} (h : s.version ref = .error e) :
    e = .freed ∧ ref ∉ s.versionRefs := by
  unfold version at h
  split at h
  case h_1 => cases h
  case h_2 hnone =>
    cases h
    refine ⟨rfl, fun hmem => ?_⟩
    obtain ⟨d, hd, v, hv, hv'⟩ := mem_versionRefs.mp hmem
    have hin := List.findSome?_eq_none_iff.mp hnone d hd
    unfold versionIn at hin
    rw [Option.map_eq_none_iff, List.find?_eq_none] at hin
    exact hin v hv (by simpa using hv')

theorem meets_version {ref : Nat} {post : Dodag × Version → Prop}
    (h : allowed .freed ∨ ref ∈ s.versionRefs)
    (hpost : ∀ d v, s.version ref = .ok (d, v) → post (d, v)) :
    Meets allowed (s.version ref) post := by
  cases hv : s.version ref with
  | ok dv => exact hpost dv.1 dv.2 hv
  | error e =>
      obtain ⟨rfl, hnot⟩ := version_eq_error hv
      exact h.resolve_right hnot

theorem dodag_spec {ref : Nat} {d : Dodag} (h : s.dodag ref = .ok d) :
    d ∈ s.dodags ∧ d.ref = ref := by
  unfold dodag at h
  split at h
  case h_2 => cases h
  case h_1 hfind =>
    cases h
    exact ⟨List.mem_of_find?_eq_some hfind, by simpa using List.find?_some hfind⟩

theorem meets_dodag {ref : Nat} {post : Dodag → Prop}
    (h : allowed .freed ∨ ref ∈ s.dodags.map (·.ref))
    (hpost : ∀ d, s.dodag ref = .ok d → post d) : Meets allowed (s.dodag ref) post := by
  cases hd : s.dodag ref with
  | ok d => exact hpost d hd
  | error e =>
      unfold dodag at hd
      split at hd
      case h_1 => cases hd
      case h_2 hnone =>
        cases hd
        refine h.resolve_right fun hmem => ?_
        obtain ⟨d, hd, hd'⟩ := List.mem_map.mp hmem
        exact List.find?_eq_none.mp hnone d hd (by simpa using hd')

theorem neighbour_spec {ref : Nat} {n : Neighbour} (h : s.neighbour ref = .ok n) :
    n ∈ s.candidateNeighbours ∧ n.ref = ref := by
  unfold neighbour at h
  split at h
  case h_2 => cases h
  case h_1 hfind =>
    cases h
    exact ⟨List.mem_of_find?_eq_some hfind, by simpa using List.find?_some hfind⟩

theorem neighbour_eq_error {ref : Nat} {e : Fault} (h : s.neighbour ref = .error e) :
    e = .freed ∧ ref ∉ s.candidateNeighbours.map (·.ref) := by
  unfold neighbour at h
  split at h
  case h_1 => cases h
  case h_2 hnone =>
    cases h
    refine ⟨rfl, fun hmem => ?_⟩
    obtain ⟨n, hn, hn'⟩ := List.mem_map.mp hmem
    exact List.find?_eq_none.mp hnone n hn (by simpa using hn')

theorem meets_neighbour {ref : Nat} {post : Neighbour → Prop}
    (h : allowed .freed ∨ ref ∈ s.candidateNeighbours.map (·.ref))
    (hpost : ∀ n, s.neighbour ref = .ok n → post n) : Meets allowed (s.neighbour ref) post := by
  cases hn : s.neighbour ref with
  | ok n => exact hpost n hn
  | error e =>
      obtain ⟨rfl, hnot⟩ := neighbour_eq_error hn
      exact h.resolve_right hnot

/-! ## Sound instances -/

/-- No pointer to a version is dangling, neighbours are told apart by their numbers, and no
DODAG that has a version divides by zero, up to the faults that are allowed. -/
structure Sound (allowed : Fault → Prop) (s : Instance) : Prop where
  distinct : allowed .freed ∨ (s.candidateNeighbours.map (·.ref)).Nodup
  neighbours : ∀ n ∈ s.candidateNeighbours, allowed .freed ∨ n.version ∈ s.versionRefs
  current : ∀ ref ∈ s.currentDodagVersion, allowed .freed ∨ ref ∈ s.versionRefs
  divides : ∀ d ∈ s.dodags, d.versions ≠ [] →
    allowed .divideByZero ∨ d.config.minHopRankIncrease ≠ 0

theorem Sound.divides_of_version (h : Sound allowed s) {ref : Nat} {d : Dodag} {v : Version}
    (hv : s.version ref = .ok (d, v)) :
    allowed .divideByZero ∨ d.config.minHopRankIncrease ≠ 0 := by
  obtain ⟨hd, hmem, -⟩ := version_spec hv
  exact h.divides d hd (List.ne_nil_of_mem hmem)

theorem Sound.meets_current (h : Sound allowed s) {post : Option (Dodag × Version) → Prop}
    (hnone : s.currentDodagVersion = none → post none)
    (hsome : ∀ ref d v, s.currentDodagVersion = some ref → s.version ref = .ok (d, v) →
      post (some (d, v))) : Meets allowed s.current post := by
  unfold Instance.current
  cases hc : s.currentDodagVersion with
  | none => exact hnone hc
  | some ref =>
      rw [meets_map]
      exact meets_version (h.current ref hc) fun d v hv => hsome ref d v hc hv

/-! ## What is kept -/

/-- `t` has come from `s` by deleting, moving and marking neighbours, by writing ranks and
by a choice of the current version among those of the neighbours. -/
structure Kept (s t : Instance) : Prop where
  dodags : t.dodags.map Dodag.bare = s.dodags.map Dodag.bare
  neighbours :
    (t.candidateNeighbours.map Neighbour.key).Subperm (s.candidateNeighbours.map Neighbour.key)
  current : ∀ ref ∈ t.currentDodagVersion,
    ref ∈ s.currentDodagVersion ∨ ∃ m ∈ s.candidateNeighbours, m.version = ref
  fresh : t.fresh = s.fresh

theorem Kept.rfl : Kept s s where
  dodags := by rfl
  neighbours := .refl _
  current := fun ref h => .inl h
  fresh := by rfl

theorem Kept.mem_neighbours (h : Kept s t) {n : Neighbour} (hn : n ∈ t.candidateNeighbours) :
    ∃ m ∈ s.candidateNeighbours, m.ref = n.ref ∧ m.version = n.version := by
  obtain ⟨m, hm, hkey⟩ := List.mem_map.mp (h.neighbours.subset (List.mem_map_of_mem hn))
  exact ⟨m, hm, congrArg Prod.fst hkey, congrArg Prod.snd hkey⟩

theorem Kept.trans (h : Kept s t) (h' : Kept t u) : Kept s u where
  dodags := h'.dodags.trans h.dodags
  neighbours := h'.neighbours.trans h.neighbours
  current := by
    intro ref href
    rcases h'.current ref href with h' | ⟨m, hm, hversion⟩
    · exact h.current ref h'
    · obtain ⟨l, hl, -, hversion'⟩ := h.mem_neighbours hm
      exact .inr ⟨l, hl, hversion'.trans hversion⟩
  fresh := h'.fresh.trans h.fresh

/-- Each DODAG was there before, but for ranks. -/
theorem Kept.mem_dodags (h : Kept s t) {d : Dodag} (hd : d ∈ t.dodags) :
    ∃ e ∈ s.dodags, e.bare = d.bare := by
  have hmem := List.mem_map_of_mem (f := Dodag.bare) hd
  rw [h.dodags] at hmem
  exact List.mem_map.mp hmem

theorem versionRefs_eq_bare (s : Instance) :
    s.versionRefs = (s.dodags.map Dodag.bare).flatMap Dodag.versionRefs := by
  rw [versionRefs, List.flatMap_map]
  exact congrArg s.dodags.flatMap (funext fun d => d.versionRefs_bare.symm)

theorem Kept.versionRefs (h : Kept s t) : t.versionRefs = s.versionRefs := by
  rw [versionRefs_eq_bare, h.dodags, ← versionRefs_eq_bare]

theorem map_subperm {α β : Type} {l l' : List α} (h : l.Subperm l') (f : α → β) :
    (l.map f).Subperm (l'.map f) := by
  obtain ⟨k, hperm, hsub⟩ := h
  exact ⟨k.map f, hperm.map f, hsub.map f⟩

theorem Kept.refs (h : Kept s t) :
    (t.candidateNeighbours.map (·.ref)).Subperm (s.candidateNeighbours.map (·.ref)) := by
  have hfst := map_subperm h.neighbours Prod.fst
  rwa [List.map_map, List.map_map] at hfst

/-- **Soundness is kept.** -/
theorem Kept.sound (h : Kept s t) (hs : Sound allowed s) : Sound allowed t where
  distinct := by
    refine hs.distinct.imp_right fun hnodup => ?_
    obtain ⟨refs, hperm, hsub⟩ := h.refs
    exact hperm.nodup_iff.mp (hnodup.sublist hsub)
  neighbours := by
    intro n hn
    obtain ⟨m, hm, -, hversion⟩ := h.mem_neighbours hn
    rw [h.versionRefs, ← hversion]
    exact hs.neighbours m hm
  current := by
    intro ref href
    rw [h.versionRefs]
    rcases h.current ref href with hold | ⟨m, hm, rfl⟩
    · exact hs.current ref hold
    · exact hs.neighbours m hm
  divides := by
    intro d hd hne
    obtain ⟨e, he, hbare⟩ := h.mem_dodags hd
    have hconfig : e.bare.config = d.bare.config := by rw [hbare]
    have hversions : e.bare.versions = d.bare.versions := by rw [hbare]
    change e.config = d.config at hconfig
    change e.versions.map Version.bare = d.versions.map Version.bare at hversions
    rw [← hconfig]
    refine hs.divides e he fun hnil => hne ?_
    rw [hnil, List.map_nil] at hversions
    exact List.map_eq_nil_iff.mp hversions.symm

/-- Only the neighbours differ. -/
theorem Kept.of_neighbours {ns : List Neighbour}
    (h : (ns.map Neighbour.key).Subperm (s.candidateNeighbours.map Neighbour.key)) :
    Kept s { s with candidateNeighbours := ns } where
  dodags := by rfl
  neighbours := h
  current := fun _ href => .inl href
  fresh := by rfl

theorem Kept.mark (f : Neighbour → Neighbour) (hf : ∀ n, (f n).key = n.key) :
    Kept s { s with candidateNeighbours := s.candidateNeighbours.map f } := by
  refine .of_neighbours ?_
  rw [List.map_map]
  exact (List.map_congr_left fun n _ => hf n) ▸ .refl _

theorem updateVersion_bare (s : Instance) (ref : Nat) (f : Version → Version)
    (hf : ∀ v ∈ s.dodags.flatMap Dodag.versions, v.ref = ref → (f v).bare = v.bare) :
    (s.updateVersion ref f).dodags.map Dodag.bare = s.dodags.map Dodag.bare := by
  unfold updateVersion
  simp only [List.map_map]
  refine List.map_congr_left fun d hd => ?_
  simp only [Function.comp_apply, Dodag.bare, List.map_map]
  congr 1
  refine List.map_congr_left fun v hv => ?_
  rw [Function.comp_apply]
  split
  case isTrue href => exact hf v (List.mem_flatMap.mpr ⟨d, hd, hv⟩) href
  case isFalse => rfl

theorem Kept.updateVersion {ref : Nat} {f : Version → Version}
    (hf : ∀ v ∈ s.dodags.flatMap Dodag.versions, v.ref = ref → (f v).bare = v.bare) :
    Kept s (s.updateVersion ref f) where
  dodags := updateVersion_bare s ref f hf
  neighbours := .refl _
  current := fun _ h => .inl h
  fresh := by rfl

theorem meets_rpl_delete_neighbour {ref : Nat}
    (h : allowed .freed ∨ ref ∈ s.candidateNeighbours.map (·.ref)) :
    Meets allowed (s.rpl_delete_neighbour ref) (Kept s) := by
  unfold rpl_delete_neighbour
  rw [meets_bind]
  refine meets_neighbour h fun _ _ => ?_
  rw [meets_pure]
  exact .of_neighbours (List.filter_sublist.map _).subperm

end

end Instance

end Rpl
