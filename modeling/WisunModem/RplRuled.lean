import WisunModem.RplLimits

/-!
# A node within its limits

`Ruled cfg sent s` is what holds of a MRHOF node that is no root, works with the
configurations `cfg` and has sent the DIOs `sent`: numbers are handed out once, each hard
limit is where the lowest advertised rank puts it, that rank is the lowest of those that
were sent, and the own rank is not behind the hard limit.
-/

namespace Rpl

open Faults Instance

/-- The ranks of a version are those that `sent` calls for. -/
structure Limited (conf : Conf) (sent : List Sent) (id : Nat) (v : Version) : Prop where
  hard : ∀ r, r ≠ infinite → (r ≤ v.hardRankLimit ↔
    dagRank conf.minHopRankIncrease r ≤ dagRank conf.minHopRankIncrease v.lowestAdvertisedRank +
      dagRank conf.minHopRankIncrease conf.dagMaxRankIncrease)
  lowest : ∀ x ∈ sent, x.dodagId = id → x.versionNumber = v.number → x.rank ≠ infinite →
    dagRank conf.minHopRankIncrease v.lowestAdvertisedRank ≤
      dagRank conf.minHopRankIncrease x.rank

/-- No finite rank was sent for this version. -/
def Unsent (sent : List Sent) (id : Nat) (number : UInt8) : Prop :=
  ∀ x ∈ sent, x.dodagId = id → x.versionNumber = number → x.rank = infinite

/-- A version that was just made has no limits yet. -/
theorem Limited.newVersion {conf : Conf} {sent : List Sent} {id ref : Nat} {number : UInt8}
    (h : Unsent sent id number) : Limited conf sent id (newVersion ref number) where
  hard := by
    intro r hr
    refine ⟨fun _ => ?_, fun _ => le_infinite r⟩
    change _ ≤ dagRank _ infinite + _
    rw [dagRank_infinite]
    have hlt : dagRank conf.minHopRankIncrease r < 65535 := dagRank_lt_infinite hr
    omega
  lowest := fun x hx hid hnumber hfinite => absurd (h x hx hid hnumber) hfinite

namespace Instance

variable {cfg : Nat → Conf} {sent : List Sent} {s t : Instance}

/-- The invariant of a node within its limits. -/
structure Ruled (cfg : Nat → Conf) (sent : List Sent) (s : Instance) : Prop where
  numbered : Numbered s
  ids : (s.dodags.map (·.id)).Nodup
  versions : s.versionRefs.Nodup
  versionsBelow : ∀ r ∈ s.versionRefs, r < s.fresh
  neighbours : (s.candidateNeighbours.map (·.ref)).Nodup
  neighboursBelow : ∀ n ∈ s.candidateNeighbours, n.ref < s.fresh
  config : ∀ d ∈ s.dodags, d.haveConfig → d.config = cfg d.id
  haveConfig : ∀ d ∈ s.dodags, d.versions ≠ [] → d.haveConfig
  notRoot : ∀ d ∈ s.dodags, d.root = false ∧ d.wasRoot = false
  of : s.of = some .mrhof ∨ (s.of = none ∧ s.currentDodagVersion = none)
  numbers : ∀ d ∈ s.dodags, (d.versions.map (·.number)).Nodup
  limited : ∀ d ∈ s.dodags, ∀ v ∈ d.versions, Limited (cfg d.id) sent d.id v
  rank : ∀ d ∈ s.dodags, ∀ v ∈ d.versions, s.currentDodagVersion = some v.ref →
    s.currentRank ≠ infinite → s.currentRank ≤ v.hardRankLimit

theorem Ruled.config_of_version (h : Ruled cfg sent s) {d : Dodag} {v : Version}
    (hd : d ∈ s.dodags) (hv : v ∈ d.versions) : d.config = cfg d.id :=
  h.config d hd (h.haveConfig d hd (List.ne_nil_of_mem hv))

theorem rpl_create_instance_ruled (cfg : Nat → Conf) (forceLeaf : Bool) :
    Ruled cfg [] (rpl_create_instance forceLeaf) where
  numbered := ⟨(by rintro d ⟨⟩), List.nodup_nil⟩
  ids := List.nodup_nil
  versions := List.nodup_nil
  versionsBelow := by rintro r ⟨⟩
  neighbours := List.nodup_nil
  neighboursBelow := by rintro n ⟨⟩
  config := by rintro d ⟨⟩
  haveConfig := by rintro d ⟨⟩
  notRoot := by rintro d ⟨⟩
  of := .inr ⟨rfl, rfl⟩
  numbers := by rintro d ⟨⟩
  limited := by rintro d ⟨⟩
  rank := by rintro d ⟨⟩

/-! ## Nothing new -/

/-- Where this DODAG comes from, if nothing new is in it but flags and the configuration. -/
structure FromDodag (cfg : Nat → Conf) (d e : Dodag) : Prop where
  id : e.id = d.id
  root : e.root = d.root
  wasRoot : e.wasRoot = d.wasRoot
  config : (d.haveConfig → d.config = cfg d.id) → e.haveConfig → e.config = cfg e.id
  haveConfig : d.haveConfig → e.haveConfig
  versions : e.versions.Sublist d.versions

theorem FromDodag.rfl {d : Dodag} : FromDodag cfg d d :=
  ⟨by rfl, by rfl, by rfl, fun h => h, fun h => h, .refl _⟩

/-- No records are in `t` that were not in `s`. -/
structure Shrunk (cfg : Nat → Conf) (s t : Instance) : Prop where
  dodags : ∀ e ∈ t.dodags, ∃ d ∈ s.dodags, FromDodag cfg d e
  refs : (t.dodags.map (·.ref)).Sublist (s.dodags.map (·.ref))
  ids : (t.dodags.map (·.id)).Sublist (s.dodags.map (·.id))
  versions : t.versionRefs.Sublist s.versionRefs
  neighbours : (t.candidateNeighbours.map (·.ref)).Sublist (s.candidateNeighbours.map (·.ref))
  fresh : t.fresh = s.fresh
  of : t.of = s.of ∨ t.of = some .mrhof
  current : t.currentDodagVersion = s.currentDodagVersion ∨ t.currentDodagVersion = none
  rank : t.currentRank = s.currentRank ∨ t.currentRank = infinite

/-- **Nothing new breaks no rule.** -/
theorem Shrunk.ruled (h : Shrunk cfg s t) (hs : Ruled cfg sent s) : Ruled cfg sent t where
  numbered := by
    refine ⟨fun e he => ?_, hs.numbered.distinct.sublist h.refs⟩
    obtain ⟨d, hd, href⟩ := List.mem_map.mp (h.refs.subset (List.mem_map_of_mem he))
    rw [h.fresh, ← href]
    exact hs.numbered.below d hd
  ids := hs.ids.sublist h.ids
  versions := hs.versions.sublist h.versions
  versionsBelow := fun r hr => h.fresh ▸ hs.versionsBelow r (h.versions.subset hr)
  neighbours := hs.neighbours.sublist h.neighbours
  neighboursBelow := by
    intro n hn
    obtain ⟨m, hm, href⟩ := List.mem_map.mp (h.neighbours.subset (List.mem_map_of_mem hn))
    rw [h.fresh, ← href]
    exact hs.neighboursBelow m hm
  config := by
    intro e he
    obtain ⟨d, hd, hfrom⟩ := h.dodags e he
    exact hfrom.config (hs.config d hd)
  haveConfig := by
    intro e he hne
    obtain ⟨d, hd, hfrom⟩ := h.dodags e he
    refine hfrom.haveConfig (hs.haveConfig d hd fun hnil => hne ?_)
    exact List.sublist_nil.mp (hnil ▸ hfrom.versions)
  notRoot := by
    intro e he
    obtain ⟨d, hd, hfrom⟩ := h.dodags e he
    rw [hfrom.root, hfrom.wasRoot]
    exact hs.notRoot d hd
  of := by
    rcases h.of with hof | hof
    · rw [hof]
      refine hs.of.imp_right fun hnone => ⟨hnone.1, ?_⟩
      rcases h.current with hcurrent | hcurrent
      · exact hcurrent.trans hnone.2
      · exact hcurrent
    · exact .inl hof
  numbers := by
    intro e he
    obtain ⟨d, hd, hfrom⟩ := h.dodags e he
    exact (hs.numbers d hd).sublist (hfrom.versions.map _)
  limited := by
    intro e he v hv
    obtain ⟨d, hd, hfrom⟩ := h.dodags e he
    rw [hfrom.id]
    exact hs.limited d hd v (hfrom.versions.subset hv)
  rank := by
    intro e he v hv hcurrent hfinite
    obtain ⟨d, hd, hfrom⟩ := h.dodags e he
    have hcurrent' : s.currentDodagVersion = some v.ref := by
      rcases h.current with hsame | hnone
      · exact hsame ▸ hcurrent
      · rw [hnone] at hcurrent
        cases hcurrent
    rcases h.rank with hsame | hinf
    · rw [hsame] at hfinite ⊢
      exact hs.rank d hd v (hfrom.versions.subset hv) hcurrent' hfinite
    · exact absurd hinf hfinite

/-- What a deletion of neighbours leaves. -/
theorem Trimmed.shrunk (h : Trimmed s t) : Shrunk cfg s t where
  dodags := fun e he => ⟨e, h.dodags ▸ he, .rfl⟩
  refs := h.dodags ▸ .refl _
  ids := h.dodags ▸ .refl _
  versions := by
    unfold versionRefs
    rw [h.dodags]
  neighbours := h.neighbours.map _
  fresh := h.fresh
  of := .inl h.of
  current := .inl h.current
  rank := .inl h.rank

theorem Shrunk.trans {u : Instance} (h : Shrunk cfg s t) (h' : Shrunk cfg t u) :
    Shrunk cfg s u where
  dodags := by
    intro f hf
    obtain ⟨e, he, hfe⟩ := h'.dodags f hf
    obtain ⟨d, hd, hed⟩ := h.dodags e he
    exact ⟨d, hd, hfe.id.trans hed.id, hfe.root.trans hed.root, hfe.wasRoot.trans hed.wasRoot,
      fun hc => hfe.config (hed.config hc), fun hd => hfe.haveConfig (hed.haveConfig hd),
      hfe.versions.trans hed.versions⟩
  refs := h'.refs.trans h.refs
  ids := h'.ids.trans h.ids
  versions := h'.versions.trans h.versions
  neighbours := h'.neighbours.trans h.neighbours
  fresh := h'.fresh.trans h.fresh
  of := by
    rcases h'.of with hof | hof
    · exact hof ▸ h.of
    · exact .inr hof
  current := by
    rcases h'.current with hcurrent | hcurrent
    · exact hcurrent ▸ h.current
    · exact .inr hcurrent
  rank := by
    rcases h'.rank with hrank | hrank
    · exact hrank ▸ h.rank
    · exact .inr hrank

/-- A change of a DODAG that leaves its versions alone. -/
theorem Shrunk.updateDodag (s : Instance) {ref : Nat} {f : Dodag → Dodag}
    (hf : ∀ d ∈ s.dodags, d.ref = ref → FromDodag cfg d (f d))
    (href : ∀ d, (f d).ref = d.ref) (hid : ∀ d, (f d).id = d.id)
    (hversions : ∀ d, (f d).versions = d.versions) : Shrunk cfg s (s.updateDodag ref f) where
  dodags := by
    intro e he
    obtain ⟨d, hd, ⟨hsame, rfl⟩ | ⟨-, rfl⟩⟩ := mem_updateDodag he
    · exact ⟨d, hd, hf d hd hsame⟩
    · exact ⟨_, hd, .rfl⟩
  refs := s.updateDodag_refs ref href ▸ .refl _
  ids := by
    unfold Instance.updateDodag
    rw [List.map_map]
    have hids : (Dodag.id ∘ fun d => if d.ref = ref then f d else d) = Dodag.id := by
      funext d
      rw [Function.comp_apply]
      split
      · exact hid d
      · rfl
    rw [hids]
  versions := s.updateDodag_versionRefs ref hversions ▸ .refl _
  neighbours := .refl _
  fresh := rfl
  of := .inl rfl
  current := .inl rfl
  rank := .inl rfl

/-! ## New records -/

theorem Ruled.rpl_create_dodag (hs : Ruled cfg sent s) {id : Nat} (hid : ∀ d ∈ s.dodags, d.id ≠ id)
    (gMopPrf : UInt8) (memory : Conf) :
    Ruled cfg sent (s.rpl_create_dodag id gMopPrf memory).1 where
  numbered := by
    refine ⟨fun d hd => ?_, List.nodup_cons.mpr ⟨fun hmem => ?_, hs.numbered.distinct⟩⟩
    · rcases List.mem_cons.mp hd with rfl | hd
      · exact Nat.lt_succ_self _
      · exact Nat.lt_succ_of_lt (hs.numbered.below d hd)
    · obtain ⟨d, hd, href⟩ := List.mem_map.mp hmem
      exact absurd (hs.numbered.below d hd) (href ▸ Nat.lt_irrefl _)
  ids := by
    refine List.nodup_cons.mpr ⟨fun hmem => ?_, hs.ids⟩
    obtain ⟨d, hd, heq⟩ := List.mem_map.mp hmem
    exact hid d hd heq
  versions := hs.versions
  versionsBelow := fun r hr => Nat.lt_succ_of_lt (hs.versionsBelow r hr)
  neighbours := hs.neighbours
  neighboursBelow := fun n hn => Nat.lt_succ_of_lt (hs.neighboursBelow n hn)
  config := by
    intro d hd hhave
    rcases List.mem_cons.mp hd with rfl | hd
    · cases hhave
    · exact hs.config d hd hhave
  haveConfig := by
    intro d hd hne
    rcases List.mem_cons.mp hd with rfl | hd
    · exact absurd rfl hne
    · exact hs.haveConfig d hd hne
  notRoot := by
    intro d hd
    rcases List.mem_cons.mp hd with rfl | hd
    · exact ⟨rfl, rfl⟩
    · exact hs.notRoot d hd
  of := hs.of
  numbers := by
    intro d hd
    rcases List.mem_cons.mp hd with rfl | hd
    · exact List.nodup_nil
    · exact hs.numbers d hd
  limited := by
    intro d hd v hv
    rcases List.mem_cons.mp hd with rfl | hd
    · cases hv
    · exact hs.limited d hd v hv
  rank := by
    intro d hd v hv
    rcases List.mem_cons.mp hd with rfl | hd
    · cases hv
    · exact hs.rank d hd v hv

theorem Ruled.rpl_create_neighbour (hs : Ruled cfg sent s) (version llAddress interfaceId : Nat)
    (gMopPrf dtsn : UInt8) :
    Ruled cfg sent (s.rpl_create_neighbour version llAddress interfaceId gMopPrf dtsn).1 := by
  have hperm : ((s.rpl_create_neighbour version llAddress interfaceId gMopPrf
      dtsn).1.candidateNeighbours.map (·.ref)).Perm
        (s.fresh :: s.candidateNeighbours.map (·.ref)) := by
    unfold Instance.rpl_create_neighbour
    dsimp only
    rw [List.map_append, List.map_cons]
    refine List.perm_middle.trans (.cons _ ?_)
    rw [← List.map_append, List.takeWhile_append_dropWhile]
  refine ⟨⟨fun d hd => Nat.lt_succ_of_lt (hs.numbered.below d hd), hs.numbered.distinct⟩, hs.ids,
    hs.versions, fun r hr => Nat.lt_succ_of_lt (hs.versionsBelow r hr), ?_, fun n hn => ?_,
    hs.config, hs.haveConfig, hs.notRoot, hs.of, hs.numbers, hs.limited, hs.rank⟩
  · refine hperm.nodup_iff.mpr (List.nodup_cons.mpr ⟨fun hmem => ?_, hs.neighbours⟩)
    obtain ⟨n, hn, href⟩ := List.mem_map.mp hmem
    exact absurd (hs.neighboursBelow n hn) (href ▸ Nat.lt_irrefl _)
  · rcases List.mem_cons.mp (hperm.subset (List.mem_map_of_mem hn)) with heq | hmem
    · exact heq ▸ Nat.lt_succ_self _
    · obtain ⟨m, hm, href⟩ := List.mem_map.mp hmem
      exact href ▸ Nat.lt_succ_of_lt (hs.neighboursBelow m hm)

/-- Deleting versions adds nothing. -/
theorem Shrunk.withoutVersions (s : Instance) (refs : List Nat) :
    Shrunk cfg s (s.withoutVersions refs) where
  dodags := by
    intro e he
    obtain ⟨d, hd, rfl⟩ := mem_withoutVersions he
    exact ⟨d, hd, rfl, rfl, rfl, fun h => h, fun h => h, List.filter_sublist⟩
  refs := by
    unfold Instance.withoutVersions
    rw [List.map_map]
    exact .refl _
  ids := by
    unfold Instance.withoutVersions
    rw [List.map_map]
    exact .refl _
  versions := versionRefs_withoutVersions_sublist s refs
  neighbours := List.filter_sublist.map _
  fresh := rfl
  of := .inl rfl
  current := by
    unfold Instance.withoutVersions
    dsimp only
    cases s.currentDodagVersion with
    | none => exact .inl rfl
    | some ref =>
        rw [Option.filter_some]
        split
        · exact .inl rfl
        · exact .inr rfl
  rank := .inl rfl

theorem Shrunk.rpl_delete_dodag (s : Instance) (d : Dodag) :
    Shrunk cfg s (s.rpl_delete_dodag d) := by
  rw [rpl_delete_dodag_eq]
  refine (Shrunk.withoutVersions s d.versionRefs).trans ?_
  set t := s.withoutVersions d.versionRefs
  constructor
  case dodags => exact fun e he => ⟨e, List.mem_of_mem_filter he, .rfl⟩
  case refs => exact List.filter_sublist.map _
  case ids => exact List.filter_sublist.map _
  case versions =>
    unfold versionRefs
    dsimp only
    induction t.dodags with
    | nil => exact .refl _
    | cons e es ih =>
        rw [List.filter_cons]
        split
        · exact (List.Sublist.refl _).append ih
        · exact ih.trans (List.sublist_append_right _ _)
  case neighbours => exact .refl _
  case fresh => rfl
  case of => exact .inl rfl
  case current => exact .inl rfl
  case rank => exact .inl rfl

/-- **Making a version breaks no rule** where no finite rank was sent for it. -/
theorem Ruled.meets_rpl_create_dodag_version {allowed : Fault → Prop} (hs : Ruled cfg sent s)
    {d : Dodag} {number : UInt8} (hd : s.dodag d.ref = .ok d) (hhave : d.haveConfig)
    (hnew : ∀ v ∈ d.versions, v.number ≠ number) (hunsent : Unsent sent d.id number) :
    Meets allowed (s.rpl_create_dodag_version d.ref number) fun r => Ruled cfg sent r.1 := by
  obtain ⟨before, behind, hsplit, hupdate⟩ := hs.numbered.updateDodag_eq hd
  have hdmem := (dodag_spec hd).1
  unfold rpl_create_dodag_version
  rw [hd, meets_bind, meets_ok]
  dsimp only
  rw [meets_pure, foldl_rpl_delete_dodag_version]
  refine (Shrunk.withoutVersions _ _).ruled ?_
  set vs := insertVersion (newVersion s.fresh number) d.versions with hvs
  have hperm : vs.Perm (newVersion s.fresh number :: d.versions) := insertVersion_perm ..
  have hu : { s.updateDodag d.ref fun d => { d with versions := vs } with fresh := s.fresh + 1 } =
      { s with
        dodags := before ++ { d with versions := vs } :: behind
        fresh := s.fresh + 1 } := by
    rw [← hupdate fun d => { d with versions := vs }]
    rfl
  have hrefs := versionRefs_addVersion hsplit hperm
  rw [hu]
  have hcases : ∀ e ∈ before ++ { d with versions := vs } :: behind,
      e = { d with versions := vs } ∨ e ∈ s.dodags := by
    intro e he
    rw [hsplit]
    rcases List.mem_append.mp he with he | he
    · exact .inr (List.mem_append_left _ he)
    · rcases List.mem_cons.mp he with rfl | he
      · exact .inl rfl
      · exact .inr (List.mem_append_right _ (List.mem_cons_of_mem d he))
  constructor
  case numbered =>
    refine ⟨fun e he => ?_, ?_⟩
    · rcases hcases e he with rfl | he
      · exact Nat.lt_succ_of_lt (hs.numbered.below d hdmem)
      · exact Nat.lt_succ_of_lt (hs.numbered.below e he)
    · have hdistinct := hs.numbered.distinct
      rw [hsplit] at hdistinct
      simpa using hdistinct
  case ids =>
    have hdistinct := hs.ids
    rw [hsplit] at hdistinct
    simpa using hdistinct
  case versions =>
    exact hrefs.nodup_iff.mpr (List.nodup_cons.mpr
      ⟨fun hmem => absurd (hs.versionsBelow _ hmem) (Nat.lt_irrefl _), hs.versions⟩)
  case versionsBelow =>
    intro r hr
    rcases List.mem_cons.mp (hrefs.subset hr) with rfl | hr
    · exact Nat.lt_succ_self _
    · exact Nat.lt_succ_of_lt (hs.versionsBelow r hr)
  case neighbours => exact hs.neighbours
  case neighboursBelow => exact fun n hn => Nat.lt_succ_of_lt (hs.neighboursBelow n hn)
  case config =>
    intro e he
    rcases hcases e he with rfl | he
    · exact hs.config d hdmem
    · exact hs.config e he
  case haveConfig =>
    intro e he
    rcases hcases e he with rfl | he
    · exact fun _ => hhave
    · exact hs.haveConfig e he
  case notRoot =>
    intro e he
    rcases hcases e he with rfl | he
    · exact hs.notRoot d hdmem
    · exact hs.notRoot e he
  case of => exact hs.of
  case numbers =>
    intro e he
    rcases hcases e he with rfl | he
    · refine (hperm.map _).nodup_iff.mpr (List.nodup_cons.mpr ⟨fun hmem => ?_, hs.numbers d hdmem⟩)
      obtain ⟨v, hv, heq⟩ := List.mem_map.mp hmem
      exact hnew v hv heq
    · exact hs.numbers e he
  case limited =>
    intro e he v hv
    rcases hcases e he with rfl | he
    · rcases List.mem_cons.mp (hperm.subset hv) with rfl | hv
      · exact Limited.newVersion hunsent
      · exact hs.limited d hdmem v hv
    · exact hs.limited e he v hv
  case rank =>
    intro e he v hv hcurrent hfinite
    rcases hcases e he with rfl | he
    · rcases List.mem_cons.mp (hperm.subset hv) with rfl | hv
      · exact le_infinite _
      · exact hs.rank d hdmem v hv hcurrent hfinite
    · exact hs.rank e he v hv hcurrent hfinite

end Instance

end Rpl
