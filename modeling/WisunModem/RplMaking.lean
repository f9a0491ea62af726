import WisunModem.RplTidy

/-!
# Making and deleting records

What each function that makes, changes or deletes records does to tidy records.
-/

namespace Rpl

open Faults

namespace Instance

variable {strict : Bool} {allowed : Fault → Prop} {s t : Instance}

/-! ## Changing a DODAG -/

/-- A DODAG that is found is the only one a change of it concerns. -/
theorem Numbered.updateDodag_eq (hs : Numbered s) {ref : Nat} {d : Dodag}
    (hd : s.dodag ref = .ok d) :
    ∃ before behind, s.dodags = before ++ d :: behind ∧
      ∀ f, (s.updateDodag ref f).dodags = before ++ f d :: behind := by
  obtain ⟨hmem, rfl⟩ := dodag_spec hd
  obtain ⟨before, behind, hsplit⟩ := List.append_of_mem hmem
  have hnodup := hs.distinct
  rw [hsplit, List.map_append, List.map_cons, List.nodup_middle, List.nodup_cons] at hnodup
  have hother : ∀ e ∈ before ++ behind, e.ref ≠ d.ref := by
    intro e he heq
    refine hnodup.1 ?_
    rw [← List.map_append]
    exact List.mem_map.mpr ⟨e, he, heq⟩
  have hsame : ∀ (f : Dodag → Dodag) (es : List Dodag), (∀ e ∈ es, e ∈ before ++ behind) →
      es.map (fun e => if e.ref = d.ref then f e else e) = es := by
    intro f es hes
    conv => rhs; rw [← List.map_id es]
    exact List.map_congr_left fun e he => if_neg (hother e (hes e he))
  refine ⟨before, behind, hsplit, fun f => ?_⟩
  unfold updateDodag
  simp only [hsplit, List.map_append, List.map_cons, if_pos]
  rw [hsame f before fun e he => List.mem_append_left _ he,
    hsame f behind fun e he => List.mem_append_right _ he]

theorem mem_updateDodag {ref : Nat} {f : Dodag → Dodag} {e : Dodag}
    (h : e ∈ (s.updateDodag ref f).dodags) :
    ∃ d ∈ s.dodags, (d.ref = ref ∧ e = f d) ∨ (d.ref ≠ ref ∧ e = d) := by
  obtain ⟨d, hd, heq⟩ := List.mem_map.mp h
  refine ⟨d, hd, ?_⟩
  split at heq
  case isTrue href => exact .inl ⟨href, heq.symm⟩
  case isFalse href => exact .inr ⟨href, heq.symm⟩

theorem updateDodag_refs (s : Instance) (ref : Nat) {f : Dodag → Dodag}
    (href : ∀ d, (f d).ref = d.ref) :
    (s.updateDodag ref f).dodags.map (·.ref) = s.dodags.map (·.ref) := by
  unfold updateDodag
  rw [List.map_map]
  refine List.map_congr_left fun d _ => ?_
  rw [Function.comp_apply]
  split
  · exact href d
  · rfl

theorem updateDodag_versionRefs (s : Instance) (ref : Nat) {f : Dodag → Dodag}
    (hversions : ∀ d, (f d).versions = d.versions) :
    (s.updateDodag ref f).versionRefs = s.versionRefs := by
  unfold versionRefs updateDodag
  rw [List.flatMap_map]
  refine congrArg s.dodags.flatMap (funext fun d => ?_)
  unfold Dodag.versionRefs
  split
  · rw [hversions]
  · rfl

theorem updateNeighbour_refs (s : Instance) (ref : Nat) {f : Neighbour → Neighbour}
    (href : ∀ n, (f n).ref = n.ref) :
    (s.updateNeighbour ref f).candidateNeighbours.map (·.ref) =
      s.candidateNeighbours.map (·.ref) := by
  unfold updateNeighbour
  rw [List.map_map]
  refine List.map_congr_left fun n _ => ?_
  rw [Function.comp_apply]
  split
  · exact href n
  · rfl

/-- A change of a DODAG that leaves number and versions alone. -/
theorem Tidy.updateDodag (hs : Tidy strict allowed s) {ref : Nat} {f : Dodag → Dodag}
    (href : ∀ d, (f d).ref = d.ref) (hversions : ∀ d, (f d).versions = d.versions)
    (hhave : ∀ d, d.haveConfig → (f d).haveConfig)
    (hgood : ∀ d ∈ s.dodags, d.ref = ref → (f d).haveConfig → (f d).InUse →
      allowed .divideByZero ∨ (f d).config.Good) :
    Tidy strict allowed (s.updateDodag ref f) := by
  have hrefs := s.updateDodag_refs ref href
  have hlives := s.updateDodag_versionRefs ref hversions
  refine ⟨⟨fun e he => ?_, hrefs ▸ hs.numbered.distinct⟩, hs.records.imp_right fun h => ?_, ?_⟩
  · obtain ⟨d, hd, ⟨-, rfl⟩ | ⟨-, rfl⟩⟩ := mem_updateDodag he
    · rw [href]
      exact hs.numbered.below d hd
    · exact hs.numbered.below e hd
  · refine ⟨⟨hlives ▸ h.versionsDistinct, hlives ▸ h.versionsBelow, h.neighboursBelow, h.distinct,
      hlives ▸ h.neighbours, hlives ▸ h.current⟩, fun e he => ?_⟩
    obtain ⟨d, hd, ⟨-, rfl⟩ | ⟨-, rfl⟩⟩ := mem_updateDodag he
    · rw [hversions]
      exact h.ordered d hd
    · exact h.ordered e hd
  · refine ⟨fun e he => ?_, fun e he hne => ?_⟩
    · obtain ⟨d, hd, ⟨hd', rfl⟩ | ⟨-, rfl⟩⟩ := mem_updateDodag he
      · exact hgood d hd hd'
      · exact hs.configured.config e hd
    · obtain ⟨d, hd, ⟨-, rfl⟩ | ⟨-, rfl⟩⟩ := mem_updateDodag he
      · rw [hversions] at hne
        exact hhave d (hs.configured.versions d hd hne)
      · exact hs.configured.versions e hd hne

/-! ## Changing and making a neighbour -/

/-- A change of a neighbour whose version is one that is there. -/
theorem Tidy.updateNeighbour (hs : Tidy strict allowed s) {ref : Nat} {f : Neighbour → Neighbour}
    (href : ∀ n, (f n).ref = n.ref)
    (hversion : ∀ n ∈ s.candidateNeighbours,
      allowed .freed ∨ (f n).version ∈ s.versionRefs) :
    Tidy strict allowed (s.updateNeighbour ref f) := by
  have hrefs := s.updateNeighbour_refs ref href
  refine ⟨⟨hs.numbered.below, hs.numbered.distinct⟩, ?_,
    ⟨hs.configured.config, hs.configured.versions⟩⟩
  rcases hs.records with hallow | h
  · exact .inl hallow
  by_cases hallow : allowed .freed
  · exact .inl hallow
  refine .inr ⟨⟨h.versionsDistinct, h.versionsBelow, fun n hn => ?_, hrefs ▸ h.distinct,
    fun n hn => ?_, h.current⟩, h.ordered⟩
  · obtain ⟨m, hm, rfl⟩ := List.mem_map.mp hn
    split
    · rw [href]
      exact h.neighboursBelow m hm
    · exact h.neighboursBelow m hm
  · obtain ⟨m, hm, rfl⟩ := List.mem_map.mp hn
    split
    · exact (hversion m hm).resolve_left hallow
    · exact h.neighbours m hm

/-- A new neighbour of a version that is there. -/
theorem Tidy.rpl_create_neighbour (hs : Tidy strict allowed s) {version : Nat}
    (hversion : allowed .freed ∨ version ∈ s.versionRefs) (addr ifId : Nat)
    (gMopPrf dtsn : UInt8) :
    Tidy strict allowed (s.rpl_create_neighbour version addr ifId gMopPrf dtsn).1 := by
  have hbelow := fun d hd => Nat.lt_succ_of_lt (hs.numbered.below d hd)
  refine ⟨⟨hbelow, hs.numbered.distinct⟩, ?_, ⟨hs.configured.config, hs.configured.versions⟩⟩
  rcases hs.records with hallow | h
  · exact .inl hallow
  by_cases hallow : allowed .freed
  · exact .inl hallow
  have hmem : ∀ n ∈ (s.rpl_create_neighbour version addr ifId gMopPrf dtsn).1.candidateNeighbours,
      n ∈ s.candidateNeighbours ∨ (n.ref = s.fresh ∧ n.version = version) := by
    intro n hn
    rcases List.mem_append.mp hn with hn | hn
    · exact .inl ((List.takeWhile_sublist _).subset hn)
    · rcases List.mem_cons.mp hn with rfl | hn
      · exact .inr ⟨rfl, rfl⟩
      · exact .inl ((List.dropWhile_sublist _).subset hn)
  refine .inr ⟨⟨h.versionsDistinct, fun r hr => Nat.lt_succ_of_lt (h.versionsBelow r hr), ?_, ?_,
    ?_, h.current⟩, h.ordered⟩
  · intro n hn
    rcases hmem n hn with hold | ⟨href, -⟩
    · exact Nat.lt_succ_of_lt (h.neighboursBelow n hold)
    · exact href ▸ Nat.lt_succ_self _
  · unfold Instance.rpl_create_neighbour
    dsimp only
    rw [List.map_append, List.map_cons, List.nodup_middle, ← List.map_append,
      List.takeWhile_append_dropWhile, List.nodup_cons]
    refine ⟨fun hmem => ?_, h.distinct⟩
    obtain ⟨n, hn, href⟩ := List.mem_map.mp hmem
    exact absurd (h.neighboursBelow n hn) (href ▸ Nat.lt_irrefl _)
  · intro n hn
    rcases hmem n hn with hold | ⟨-, hnew⟩
    · exact h.neighbours n hold
    · exact hnew ▸ hversion.resolve_left hallow

/-! ## Making a DODAG -/

theorem Tidy.rpl_create_dodag (hs : Tidy strict allowed s) (id : Nat) (gMopPrf : UInt8) (memory : Conf) :
    Tidy strict allowed (s.rpl_create_dodag id gMopPrf memory).1 where
  numbered := by
    refine ⟨fun d hd => ?_, List.nodup_cons.mpr ⟨fun hmem => ?_, hs.numbered.distinct⟩⟩
    · rcases List.mem_cons.mp hd with rfl | hd
      · exact Nat.lt_succ_self _
      · exact Nat.lt_succ_of_lt (hs.numbered.below d hd)
    · obtain ⟨d, hd, href⟩ := List.mem_map.mp hmem
      exact absurd (hs.numbered.below d hd) (href ▸ Nat.lt_irrefl _)
  records := hs.records.imp_right fun h => {
    versionsDistinct := h.versionsDistinct
    versionsBelow := fun r hr => Nat.lt_succ_of_lt (h.versionsBelow r hr)
    neighboursBelow := fun n hn => Nat.lt_succ_of_lt (h.neighboursBelow n hn)
    distinct := h.distinct
    neighbours := h.neighbours
    current := h.current
    ordered := by
      intro d hd
      rcases List.mem_cons.mp hd with rfl | hd
      · trivial
      · exact h.ordered d hd }
  configured := {
    config := by
      intro d hd hhave huse
      rcases List.mem_cons.mp hd with rfl | hd
      · cases hhave
      · exact hs.configured.config d hd hhave huse
    versions := by
      intro d hd hne
      rcases List.mem_cons.mp hd with rfl | hd
      · exact absurd rfl hne
      · exact hs.configured.versions d hd hne }

/-! ## Deleting versions -/

/-- What is left of an instance without these versions. -/
def withoutVersions (s : Instance) (refs : List Nat) : Instance :=
  { s with
    currentDodagVersion := s.currentDodagVersion.filter (· ∉ refs)
    candidateNeighbours := s.candidateNeighbours.filter (·.version ∉ refs)
    dodags := s.dodags.map fun d => { d with versions := d.versions.filter (·.ref ∉ refs) } }

theorem withoutVersions_nil (s : Instance) : s.withoutVersions [] = s := by
  have hdodags : s.dodags.map (fun d => { d with versions := d.versions.filter (·.ref ∉ []) }) =
      s.dodags := by
    simp
  have hcurrent : s.currentDodagVersion.filter (· ∉ []) = s.currentDodagVersion := by
    cases s.currentDodagVersion <;> rfl
  unfold withoutVersions
  rw [hdodags, hcurrent]
  simp

theorem withoutVersions_delete (s : Instance) (ref : Nat) (refs : List Nat) :
    (s.rpl_delete_dodag_version ref).withoutVersions refs = s.withoutVersions (ref :: refs) := by
  have hcurrent : (if s.currentDodagVersion = some ref then none
      else s.currentDodagVersion).filter (· ∉ refs) =
      s.currentDodagVersion.filter (· ∉ ref :: refs) := by
    cases s.currentDodagVersion with
    | none => simp
    | some r =>
        by_cases hr : r = ref
        · simp [hr, Option.filter]
        · simp [hr, Option.filter]
  have hboth : ∀ r, (decide (r ∉ refs) && decide (r ≠ ref)) = decide (r ∉ ref :: refs) := by
    intro r
    simp [Bool.and_comm]
  unfold withoutVersions rpl_delete_dodag_version
  dsimp only
  rw [hcurrent, List.map_map, List.filter_filter]
  simp only [Function.comp_def, List.filter_filter, hboth]

/-- Versions that are deleted one by one. -/
theorem foldl_rpl_delete_dodag_version (vs : List Version) (s : Instance) :
    vs.foldl (fun t v => t.rpl_delete_dodag_version v.ref) s =
      s.withoutVersions (vs.map (·.ref)) := by
  induction vs generalizing s with
  | nil => exact s.withoutVersions_nil.symm
  | cons v vs ih => exact (ih _).trans (s.withoutVersions_delete v.ref _)

theorem mem_withoutVersions {refs : List Nat} {e : Dodag}
    (h : e ∈ (s.withoutVersions refs).dodags) :
    ∃ d ∈ s.dodags, { d with versions := d.versions.filter (·.ref ∉ refs) } = e :=
  List.mem_map.mp h

theorem mem_versionRefs_withoutVersions {refs : List Nat} {ref : Nat} :
    ref ∈ (s.withoutVersions refs).versionRefs ↔ ref ∈ s.versionRefs ∧ ref ∉ refs := by
  constructor
  · intro h
    obtain ⟨e, he, v, hv, rfl⟩ := mem_versionRefs.mp h
    obtain ⟨d, hd, rfl⟩ := mem_withoutVersions he
    obtain ⟨hmem, hnot⟩ := List.mem_filter.mp hv
    exact ⟨mem_versionRefs.mpr ⟨d, hd, v, hmem, rfl⟩, by simpa using hnot⟩
  · rintro ⟨h, hnot⟩
    obtain ⟨d, hd, v, hv, rfl⟩ := mem_versionRefs.mp h
    exact mem_versionRefs.mpr ⟨_, List.mem_map_of_mem hd, v,
      List.mem_filter.mpr ⟨hv, by simpa using hnot⟩, rfl⟩

theorem versionRefs_withoutVersions_sublist (s : Instance) (refs : List Nat) :
    (s.withoutVersions refs).versionRefs.Sublist s.versionRefs := by
  unfold versionRefs withoutVersions
  dsimp only
  rw [List.flatMap_map]
  induction s.dodags with
  | nil => exact .refl _
  | cons d ds ih =>
      rw [List.flatMap_cons, List.flatMap_cons]
      exact .append (List.filter_sublist.map _) ih

/-- Deleting versions leaves no pointer dangling. -/
theorem Alive.withoutVersions (h : Alive s) (refs : List Nat) :
    Alive (s.withoutVersions refs) where
  versionsDistinct := h.versionsDistinct.sublist (versionRefs_withoutVersions_sublist s refs)
  versionsBelow := fun r hr =>
    h.versionsBelow r (mem_versionRefs_withoutVersions.mp hr).1
  neighboursBelow := fun n hn => h.neighboursBelow n (List.mem_of_mem_filter hn)
  distinct := h.distinct.sublist (List.filter_sublist.map _)
  neighbours := by
    intro n hn
    obtain ⟨hmem, hnot⟩ := List.mem_filter.mp hn
    exact mem_versionRefs_withoutVersions.mpr ⟨h.neighbours n hmem, by simpa using hnot⟩
  current := by
    intro r hr
    obtain ⟨hcurrent, hnot⟩ := Option.filter_eq_some_iff.mp hr
    exact mem_versionRefs_withoutVersions.mpr ⟨h.current r hcurrent, by simpa using hnot⟩

theorem Configured.withoutVersions (h : Configured allowed s) (refs : List Nat) :
    Configured allowed (s.withoutVersions refs) where
  config := by
    intro e he hhave huse
    obtain ⟨d, hd, rfl⟩ := mem_withoutVersions he
    refine h.config d hd hhave (huse.imp_left fun hne hnil => hne ?_)
    change d.versions.filter _ = []
    rw [hnil]
    rfl
  versions := by
    intro e he hne
    obtain ⟨d, hd, rfl⟩ := mem_withoutVersions he
    refine h.versions d hd fun hnil => hne ?_
    change d.versions.filter _ = []
    rw [hnil]
    rfl

theorem Numbered.withoutVersions (h : Numbered s) (refs : List Nat) :
    Numbered (s.withoutVersions refs) where
  below := by
    intro e he
    obtain ⟨d, hd, rfl⟩ := mem_withoutVersions he
    exact h.below d hd
  distinct := by
    unfold Instance.withoutVersions
    dsimp only
    rw [List.map_map]
    exact h.distinct

/-! ## Making a version -/

/-- The numbers of the versions that go when one with this number is made in `d`. -/
def purged (s : Instance) (d : Dodag) (number : UInt8) : List Nat :=
  (staleVersions (insertVersion (newVersion s.fresh number) d.versions)).map (·.ref)

/-- `t` is `s` with a new version in `d`. -/
structure Made (strict : Bool) (allowed : Fault → Prop) (s : Instance) (d : Dodag) (number : UInt8)
    (t : Instance) (ref : Nat) : Prop where
  tidy : Tidy strict allowed t
  alive : allowed .freed ∨ ref ∈ t.versionRefs
  refs : t.dodags.map (·.ref) = s.dodags.map (·.ref)
  config : ∀ e ∈ t.dodags, e.ref = d.ref → e.haveConfig ∧ e.config = d.config
  current : t.currentDodagVersion = s.currentDodagVersion.filter (· ∉ s.purged d number)
  neighbours : t.candidateNeighbours =
    s.candidateNeighbours.filter (·.version ∉ s.purged d number)

/-- The numbers with one more version in the middle of the DODAGs. -/
theorem versionRefs_addVersion {before behind : List Dodag} {d : Dodag}
    (hsplit : s.dodags = before ++ d :: behind) {vs : List Version} {number : UInt8}
    (hvs : vs.Perm (newVersion s.fresh number :: d.versions)) :
    (Instance.versionRefs { s with
      dodags := before ++ { d with versions := vs } :: behind
      fresh := s.fresh + 1 }).Perm (s.fresh :: s.versionRefs) := by
  unfold versionRefs
  rw [hsplit]
  simp only [List.flatMap_append, List.flatMap_cons]
  have hrefs := hvs.map (·.ref)
  rw [List.map_cons] at hrefs
  refine (List.Perm.append_left _ (hrefs.append_right _)).trans ?_
  exact List.perm_middle

/-- An instance with one more version in the middle of its DODAGs. -/
theorem Alive.addVersion (h : Alive s) {before behind : List Dodag} {d : Dodag}
    (hsplit : s.dodags = before ++ d :: behind) {vs : List Version} {number : UInt8}
    (hvs : vs.Perm (newVersion s.fresh number :: d.versions)) {t : Instance}
    (ht : t = { s with
      dodags := before ++ { d with versions := vs } :: behind
      fresh := s.fresh + 1 }) : Alive t := by
  have hperm : t.versionRefs.Perm (s.fresh :: s.versionRefs) :=
    ht ▸ versionRefs_addVersion hsplit hvs
  have hmem : ∀ r, r ∈ s.versionRefs → r ∈ t.versionRefs := fun r hr =>
    hperm.mem_iff.mpr (List.mem_cons_of_mem _ hr)
  have hfresh : s.fresh ∉ s.versionRefs := fun hmem =>
    absurd (h.versionsBelow _ hmem) (Nat.lt_irrefl _)
  constructor
  · exact hperm.nodup_iff.mpr (List.nodup_cons.mpr ⟨hfresh, h.versionsDistinct⟩)
  · intro r hr
    subst ht
    rcases List.mem_cons.mp (hperm.mem_iff.mp hr) with rfl | hr
    · exact Nat.lt_succ_self _
    · exact Nat.lt_succ_of_lt (h.versionsBelow r hr)
  · subst ht
    exact fun n hn => Nat.lt_succ_of_lt (h.neighboursBelow n hn)
  · subst ht
    exact h.distinct
  · subst ht
    exact fun n hn => hmem _ (h.neighbours n hn)
  · subst ht
    exact fun r hr => hmem _ (h.current r hr)

/-- Of distinct numbers, deleting a last part leaves the first. -/
theorem filter_stale {kept stale : List Version}
    (h : ((kept ++ stale).map (·.ref)).Nodup) :
    (kept ++ stale).filter (·.ref ∉ stale.map (·.ref)) = kept := by
  rw [List.map_append, List.nodup_append] at h
  rw [List.filter_append, List.filter_eq_self.mpr, List.filter_eq_nil_iff.mpr, List.append_nil]
  · intro v hv
    simpa using ⟨v, hv, rfl⟩
  · intro v hv
    have hnot : v.ref ∉ stale.map (·.ref) := fun hmem =>
      h.2.2 v.ref (List.mem_map_of_mem hv) v.ref hmem rfl
    simpa using hnot

theorem Alive.nodup_refs (h : Alive s) {d : Dodag} (hd : d ∈ s.dodags) :
    (d.versions.map (·.ref)).Nodup :=
  (List.nodup_flatMap.mp h.versionsDistinct).1 d hd

/-- No version is in two DODAGs. -/
theorem Alive.disjoint (h : Alive s) {before behind : List Dodag} {d e : Dodag}
    (hsplit : s.dodags = before ++ d :: behind) (he : e ∈ before ++ behind) {v : Version}
    (hv : v ∈ e.versions) : v.ref ∉ d.versionRefs := by
  have hpairs := (List.nodup_flatMap.mp h.versionsDistinct).2
  rw [hsplit, List.pairwise_append, List.pairwise_cons] at hpairs
  have hmem : v.ref ∈ e.versionRefs := List.mem_map_of_mem hv
  rcases List.mem_append.mp he with he | he
  · exact hpairs.2.2 e he d List.mem_cons_self hmem
  · exact fun hd => hpairs.2.1.1 e he hd hmem

/-- The versions behind the making of one, in their DODAG and in the others. -/
theorem Alive.ordered_addVersion (h : Alive s) {before behind : List Dodag} {d e : Dodag}
    (hsplit : s.dodags = before ++ d :: behind) (hnumbers : (d.versions.map (·.number)).Nodup)
    (hdescending : strict → Descending d.versions)
    (hother : ∀ e ∈ before ++ behind, Ordered strict e.versions) (he : e ∈ s.dodags) :
    Ordered strict (e.versions.filter (·.ref ∉ (staleVersions d.versions).map (·.ref))) := by
  have hself : Ordered strict
      (d.versions.filter (·.ref ∉ (staleVersions d.versions).map (·.ref))) := by
    have hd : d ∈ s.dodags := hsplit ▸ List.mem_append_right _ List.mem_cons_self
    have hrefs := h.nodup_refs hd
    have hstale := kept_append_stale d.versions
    rw [← hstale] at hrefs
    have hfilter := filter_stale hrefs
    rw [hstale] at hfilter
    rw [hfilter]
    exact keptVersions_ordered hnumbers hdescending
  have hothers : ∀ e ∈ before ++ behind,
      Ordered strict (e.versions.filter (·.ref ∉ (staleVersions d.versions).map (·.ref))) := by
    intro e he
    rw [List.filter_eq_self.mpr]
    · exact hother e he
    · intro v hv
      have hnot : v.ref ∉ (staleVersions d.versions).map (·.ref) := by
        refine fun hmem => h.disjoint hsplit he hv ?_
        unfold Dodag.versionRefs
        rw [← kept_append_stale d.versions, List.map_append]
        exact List.mem_append_right _ hmem
      simpa using hnot
  rw [hsplit] at he
  rcases List.mem_append.mp he with he | he
  · exact hothers e (List.mem_append_left _ he)
  · rcases List.mem_cons.mp he with rfl | he
    · exact hself
    · exact hothers e (List.mem_append_right _ he)

/-- **Making a version keeps the records tidy.**  The new version stays. -/
theorem meets_rpl_create_dodag_version (hs : Tidy strict allowed s) {dodagRef : Nat} {d : Dodag}
    {number : UInt8} (hd : s.dodag dodagRef = .ok d) (hhave : d.haveConfig)
    (hgood : allowed .divideByZero ∨ d.config.Good)
    (hnew : ∀ v ∈ d.versions, v.number ≠ number)
    (hplace : allowed .freed ∨ (strict → InPlace number d.versions)) :
    Meets allowed (s.rpl_create_dodag_version dodagRef number) fun r =>
      Made strict allowed s d number r.1 r.2 := by
  obtain ⟨before, behind, hsplit, hupdate⟩ := hs.numbered.updateDodag_eq hd
  have hmem : ∀ e ∈ before ++ behind, e ∈ s.dodags := by
    intro e he
    rw [hsplit]
    rcases List.mem_append.mp he with he | he
    · exact List.mem_append_left _ he
    · exact List.mem_append_right _ (List.mem_cons_of_mem _ he)
  have hdmem := (dodag_spec hd).1
  unfold rpl_create_dodag_version
  rw [hd, meets_bind, meets_ok]
  dsimp only
  rw [meets_pure, foldl_rpl_delete_dodag_version]
  set vs := insertVersion (newVersion s.fresh number) d.versions with hvs
  have hperm : vs.Perm (newVersion s.fresh number :: d.versions) := insertVersion_perm ..
  have hu : { s.updateDodag dodagRef fun d => { d with versions := vs } with fresh := s.fresh + 1 } =
      { s with
        dodags := before ++ { d with versions := vs } :: behind
        fresh := s.fresh + 1 } := by
    rw [← hupdate fun d => { d with versions := vs }]
    rfl
  rw [hu]
  set u : Instance := { s with
    dodags := before ++ { d with versions := vs } :: behind
    fresh := s.fresh + 1 } with hudef
  have hrefs : u.dodags.map (·.ref) = s.dodags.map (·.ref) := by
    rw [hsplit, hudef]
    simp
  have hcases : ∀ e ∈ u.dodags, e = { d with versions := vs } ∨ e ∈ before ++ behind := by
    intro e he
    rcases List.mem_append.mp he with he | he
    · exact .inr (List.mem_append_left _ he)
    · rcases List.mem_cons.mp he with rfl | he
      · exact .inl rfl
      · exact .inr (List.mem_append_right _ he)
  have hnumbered : Numbered u := by
    refine ⟨fun e he => ?_, hrefs ▸ hs.numbered.distinct⟩
    rcases hcases e he with rfl | he
    · exact Nat.lt_succ_of_lt (hs.numbered.below d hdmem)
    · exact Nat.lt_succ_of_lt (hs.numbered.below e (hmem e he))
  have hconfigured : Configured allowed u := by
    refine ⟨fun e he => ?_, fun e he => ?_⟩
    · rcases hcases e he with rfl | he
      · exact fun _ _ => hgood
      · exact hs.configured.config e (hmem e he)
    · rcases hcases e he with rfl | he
      · exact fun _ => hhave
      · exact hs.configured.versions e (hmem e he)
  have hrecords : Records strict s → (strict → InPlace number d.versions) →
      Records strict (u.withoutVersions ((staleVersions vs).map (·.ref))) := by
    intro h hplace
    have halive : Alive u := h.toAlive.addVersion hsplit hperm rfl
    refine ⟨halive.withoutVersions _, fun e' he' => ?_⟩
    obtain ⟨e, he, rfl⟩ := mem_withoutVersions he'
    have hnumbers : (vs.map (·.number)).Nodup := by
      refine (hperm.map _).nodup_iff.mpr (List.nodup_cons.mpr ⟨fun hmem => ?_,
        (h.ordered d hdmem).nodup⟩)
      obtain ⟨v, hv, heq⟩ := List.mem_map.mp hmem
      exact hnew v hv heq
    have hdescending : strict → Descending vs := by
      intro hstrict
      have hold : Descending d.versions := by
        have hordered := h.ordered d hdmem
        cases hversions : d.versions with
        | nil => exact List.Pairwise.nil
        | cons v older =>
            rw [hversions] at hordered
            exact hordered.2.2 hstrict
      exact insertVersion_descending hold (hplace hstrict) hnew
    exact halive.ordered_addVersion (d := { d with versions := vs }) rfl hnumbers hdescending
      (fun e he => h.ordered e (hmem e he)) he
  have hstays : Records strict s →
      s.fresh ∈ (u.withoutVersions ((staleVersions vs).map (·.ref))).versionRefs := by
    intro h
    have halive : Alive u := h.toAlive.addVersion hsplit hperm rfl
    have hin : { d with versions := vs } ∈ u.dodags :=
      List.mem_append_right _ List.mem_cons_self
    have hkept : newVersion s.fresh number ∈ keptVersions vs :=
      mem_keptVersions_insertVersion (h.ordered d hdmem) hnew
    have hnodup := halive.nodup_refs hin
    change (vs.map (·.ref)).Nodup at hnodup
    rw [← kept_append_stale vs, List.map_append, List.nodup_append] at hnodup
    refine mem_versionRefs_withoutVersions.mpr ⟨?_, fun hstale => ?_⟩
    · refine mem_versionRefs.mpr ⟨_, hin, newVersion s.fresh number, ?_, rfl⟩
      exact hperm.mem_iff.mpr List.mem_cons_self
    · exact hnodup.2.2 _ (List.mem_map_of_mem hkept) _ hstale rfl
  exact {
    tidy := ⟨hnumbered.withoutVersions _, by
        rcases hs.records with hallow | h
        · exact .inl hallow
        · exact hplace.imp_right (hrecords h),
      hconfigured.withoutVersions _⟩
    alive := hs.records.imp_right hstays
    refs := by
      rw [← hrefs]
      unfold withoutVersions
      dsimp only
      rw [List.map_map]
      rfl
    config := by
      intro e' he' href
      obtain ⟨e, he, rfl⟩ := mem_withoutVersions he'
      have hin : { d with versions := vs } ∈ u.dodags :=
        List.mem_append_right _ List.mem_cons_self
      have hsame : e = { d with versions := vs } :=
        List.inj_on_of_nodup_map hnumbered.distinct he hin href
      rw [hsame]
      exact ⟨hhave, rfl⟩
    current := rfl
    neighbours := rfl }

/-! ## Deleting a DODAG -/

theorem rpl_delete_dodag_eq (s : Instance) (d : Dodag) :
    s.rpl_delete_dodag d =
      { s.withoutVersions d.versionRefs with
        dodags := (s.withoutVersions d.versionRefs).dodags.filter (·.ref ≠ d.ref) } := by
  unfold rpl_delete_dodag
  rw [foldl_rpl_delete_dodag_version]
  rfl

/-- Deleting a DODAG keeps the records tidy. -/
theorem Tidy.rpl_delete_dodag (hs : Tidy strict allowed s) {d : Dodag} (hd : d ∈ s.dodags) :
    Tidy strict allowed (s.rpl_delete_dodag d) := by
  rw [rpl_delete_dodag_eq]
  have hnumbered := hs.numbered.withoutVersions d.versionRefs
  refine ⟨⟨fun e he => hnumbered.below e (List.mem_of_mem_filter he),
    hnumbered.distinct.sublist (List.filter_sublist.map _)⟩, ?_, ?_⟩
  · refine hs.records.imp_right fun h => ?_
    have halive := h.toAlive.withoutVersions d.versionRefs
    obtain ⟨before, behind, hsplit⟩ := List.append_of_mem hd
    have hempty : ∀ e ∈ (s.withoutVersions d.versionRefs).dodags, e.ref = d.ref →
        e.versions = [] := by
      intro e' he' href
      obtain ⟨e, he, rfl⟩ := mem_withoutVersions he'
      have hsame : e = d := List.inj_on_of_nodup_map hs.numbered.distinct he hd href
      subst hsame
      refine List.filter_eq_nil_iff.mpr fun v hv => ?_
      have hin : v.ref ∈ e.versionRefs := List.mem_map_of_mem hv
      simpa using hin
    have hrefs : Instance.versionRefs { s.withoutVersions d.versionRefs with
        dodags := (s.withoutVersions d.versionRefs).dodags.filter (·.ref ≠ d.ref) } =
        (s.withoutVersions d.versionRefs).versionRefs := by
      unfold Instance.versionRefs
      dsimp only
      generalize (s.withoutVersions d.versionRefs).dodags = ds at hempty
      induction ds with
      | nil => rfl
      | cons e es ih =>
          have htail := ih fun x hx => hempty x (List.mem_cons_of_mem e hx)
          by_cases href : e.ref = d.ref
          · have hnil := hempty e List.mem_cons_self href
            rw [List.filter_cons_of_neg (by simpa using href), htail, List.flatMap_cons]
            unfold Dodag.versionRefs
            rw [hnil]
            rfl
          · rw [List.filter_cons_of_pos (by simpa using href), List.flatMap_cons, htail,
              List.flatMap_cons]
    refine ⟨⟨hrefs ▸ halive.versionsDistinct, hrefs ▸ halive.versionsBelow,
      halive.neighboursBelow, halive.distinct, hrefs ▸ halive.neighbours,
      hrefs ▸ halive.current⟩, fun e' he' => ?_⟩
    obtain ⟨hmem, hne⟩ := List.mem_filter.mp he'
    obtain ⟨e, he, rfl⟩ := mem_withoutVersions hmem
    have hother : e ∈ before ++ behind := by
      rw [hsplit] at he
      rcases List.mem_append.mp he with he | he
      · exact List.mem_append_left _ he
      · rcases List.mem_cons.mp he with rfl | he
        · simp at hne
        · exact List.mem_append_right _ he
    dsimp only
    rw [List.filter_eq_self.mpr]
    · exact h.ordered e he
    · intro v hv
      simpa using h.toAlive.disjoint hsplit hother hv
  · have hc := hs.configured.withoutVersions d.versionRefs
    exact ⟨fun e he => hc.config e (List.mem_of_mem_filter he),
      fun e he => hc.versions e (List.mem_of_mem_filter he)⟩

end Instance

end Rpl
