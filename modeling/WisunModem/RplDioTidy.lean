import WisunModem.RplMaking

/-!
# A DIO keeps the records tidy

Each part of `rpl_control_dio_handler` in turn.  Two things may go wrong in it: the sender
may be purged with the versions that a new one makes stale, and a node that is or was root
of the DODAG may have no current version.
-/

namespace Rpl

open Faults

namespace Instance

variable {strict : Bool} {allowed : Fault → Prop} {env : Surroundings} {dio : Dio} {s t : Instance}
  {sender : Option Nat}

/-- The entry of the sender is there. -/
def SenderAlive (allowed : Fault → Prop) (s : Instance) (sender : Option Nat) : Prop :=
  ∀ n ∈ sender, allowed .freed ∨ n ∈ s.candidateNeighbours.map (·.ref)

theorem meets_invalidParent (hs : Tidy strict allowed s) (hsender : SenderAlive allowed s sender) :
    Meets allowed (s.invalidParent sender) (Tidy strict allowed) := by
  cases sender with
  | none => exact hs
  | some n => exact (meets_rpl_delete_neighbour (hsender n rfl)).mono fun t ht => ht.tidy hs

/-! ## The sender's entry -/

theorem meets_rpl_dodag_version_compare {a b : Nat} (ha : allowed .freed ∨ a ∈ s.versionRefs)
    (hb : allowed .freed ∨ b ∈ s.versionRefs) :
    Meets allowed (s.rpl_dodag_version_compare a b) fun _ => True := by
  unfold rpl_dodag_version_compare
  split
  · trivial
  · rw [meets_bind]
    refine meets_version ha fun _ _ _ => ?_
    dsimp only
    rw [meets_bind]
    exact meets_version hb fun _ _ _ => trivial

/-- The lists of an instance lead to the same numbers. -/
structure SameRefs (s t : Instance) : Prop where
  versions : t.versionRefs = s.versionRefs
  neighbours : t.candidateNeighbours.map (·.ref) = s.candidateNeighbours.map (·.ref)
  dodags : t.dodags.map (·.ref) = s.dodags.map (·.ref)

theorem meets_followsSender (hs : Tidy strict allowed s) {n : Neighbour} {d : Dodag} {version : Nat}
    (hn : n ∈ s.candidateNeighbours) (hv : allowed .freed ∨ version ∈ s.versionRefs) :
    Meets allowed (s.followsSender dio n d version) fun _ => True := by
  unfold followsSender
  split
  · rw [meets_bind]
    exact (meets_rpl_dodag_version_compare hv (hs.sound.neighbours n hn)).mono fun _ _ => trivial
  · trivial

theorem meets_rpl_neighbour_update_dodag_version (hs : Tidy strict allowed s) {neighbourRef version : Nat}
    (hn : allowed .freed ∨ neighbourRef ∈ s.candidateNeighbours.map (·.ref))
    (hv : allowed .freed ∨ version ∈ s.versionRefs) :
    Meets allowed (s.rpl_neighbour_update_dodag_version dio neighbourRef version) fun t =>
      Tidy strict allowed t ∧ SameRefs s t := by
  have hfollows : ∀ follows : Bool, ∀ ref,
      let t := if follows then s.updateDodag ref fun d => { d with gMopPrf := dio.gMopPrf } else s
      Tidy strict allowed t ∧ SameRefs s t := by
    intro follows ref
    cases follows with
    | false => exact ⟨hs, rfl, rfl, rfl⟩
    | true =>
        exact ⟨hs.updateDodag (fun _ => rfl) (fun _ => rfl) (fun _ h => h)
            fun d hd _ => hs.configured.config d hd,
          s.updateDodag_versionRefs ref fun _ => rfl, rfl, s.updateDodag_refs ref fun _ => rfl⟩
  unfold rpl_neighbour_update_dodag_version
  rw [meets_bind]
  refine meets_neighbour hn fun n hfound => ?_
  rw [meets_bind]
  refine meets_version hv fun d v _ => ?_
  dsimp only
  rw [meets_bind]
  refine (meets_followsSender hs (neighbour_spec hfound).1 hv).mono fun follows _ => ?_
  rw [meets_pure]
  obtain ⟨ht, hsame⟩ := hfollows follows d.ref
  refine ⟨ht.updateNeighbour (fun _ => rfl) fun n hn => hsame.versions ▸ hv, hsame.versions,
    ?_, hsame.dodags⟩
  exact Eq.trans (updateNeighbour_refs _ neighbourRef fun _ => by rfl) hsame.neighbours

theorem meets_rpl_control_process_route_options (hs : Tidy strict allowed s) {dodagRef version : Nat}
    (hv : allowed .freed ∨ version ∈ s.versionRefs) :
    Meets allowed (s.rpl_control_process_route_options dio dodagRef version) fun _ => True := by
  unfold rpl_control_process_route_options
  rw [meets_bind]
  refine hs.sound.meets_current (fun _ => trivial) fun ref d v href hcurrent => ?_
  dsimp only
  split
  · have hlive := hs.sound.current ref href
    rw [← (version_spec hcurrent).2.2] at hlive
    rw [meets_bind]
    refine (meets_rpl_dodag_version_compare hv hlive).mono fun cmp _ => ?_
    split
    · rw [meets_bind]
      exact (meets_rpl_rank_compare (hs.sound.divides_of_version hcurrent) ..).mono
        fun _ _ => trivial
    · trivial
  · trivial

theorem meets_updateSender (hs : Tidy strict allowed s) {dodagRef version neighbourRef : Nat}
    {becomeLeaf : Bool} (hd : allowed .freed ∨ dodagRef ∈ s.dodags.map (·.ref))
    (hv : allowed .freed ∨ version ∈ s.versionRefs)
    (hn : allowed .freed ∨ neighbourRef ∈ s.candidateNeighbours.map (·.ref)) :
    Meets allowed (s.updateSender dio dodagRef version neighbourRef becomeLeaf)
      (Tidy strict allowed) := by
  unfold updateSender
  rw [meets_bind]
  refine (meets_rpl_neighbour_update_dodag_version hs hn hv).mono fun t ht => ?_
  obtain ⟨ht, hsame⟩ := ht
  rw [meets_bind]
  refine meets_neighbour (hsame.neighbours ▸ hn) fun _ _ => ?_
  dsimp only
  have hu : Tidy strict allowed (t.updateNeighbour neighbourRef fun n => { n with dtsn := dio.dtsn }) :=
    ht.updateNeighbour (fun _ => rfl) fun n hn => ht.sound.neighbours n hn
  rw [meets_bind]
  refine meets_dodag (hsame.dodags ▸ hd) fun _ _ => ?_
  rw [meets_bind]
  refine (meets_rpl_control_process_route_options hu (hsame.versions ▸ hv)).mono fun _ _ => ?_
  rw [meets_pure]
  split
  · exact hu.updateDodag (fun _ => rfl) (fun _ => rfl) (fun _ h => h)
      fun d hd _ => hu.configured.config d hd
  · exact hu

theorem meets_enterSender (hs : Tidy strict allowed s) {dodagRef version : Nat} {becomeLeaf : Bool}
    (hd : allowed .freed ∨ dodagRef ∈ s.dodags.map (·.ref))
    (hv : allowed .freed ∨ version ∈ s.versionRefs) (hsender : SenderAlive allowed s sender) :
    Meets allowed (s.enterSender env dio dodagRef version sender becomeLeaf) (Tidy strict allowed) := by
  unfold enterSender
  cases sender with
  | some n => exact meets_updateSender hs hd hv (hsender n rfl)
  | none =>
      dsimp only
      split
      · exact hs
      · refine meets_updateSender (hs.rpl_create_neighbour hv _ _ _ _) hd hv (.inr ?_)
        refine List.mem_map.mpr ⟨_, List.mem_append_right _ List.mem_cons_self, rfl⟩

/-! ## The version -/

theorem meets_inVersion (hs : Tidy strict allowed s) {dodagRef version : Nat} {becomeLeaf : Bool}
    (hd : allowed .freed ∨ dodagRef ∈ s.dodags.map (·.ref))
    (hconfig : ∀ d ∈ s.dodags, d.ref = dodagRef → d.haveConfig ∧ rpl_policy_join_config d.config)
    (hv : allowed .freed ∨ version ∈ s.versionRefs) (hsender : SenderAlive allowed s sender) :
    Meets allowed (s.inVersion env dio dodagRef version sender becomeLeaf) (Tidy strict allowed) := by
  unfold inVersion
  have hlistens : Meets allowed (s.listensNot dio version) fun _ => True := by
    unfold listensNot
    split
    · trivial
    · exact meets_possibleSubDodag hs.sound ..
  rw [meets_bind]
  refine hlistens.mono fun sub _ => ?_
  split
  · exact meets_invalidParent hs hsender
  · rw [meets_bind]
    refine meets_dodag hd fun d hfound => ?_
    obtain ⟨hmem, href⟩ := dodag_spec hfound
    have hdivides : allowed .divideByZero ∨ d.config.minHopRankIncrease ≠ 0 :=
      hs.configured.divides hmem (hconfig d hmem href).1 (.inr (hconfig d hmem href).2)
    have hcompare : Meets allowed (s.compareRank dio d version) fun _ => True := by
      unfold compareRank
      split
      · exact meets_rpl_rank_compare hdivides ..
      · trivial
    rw [meets_bind]
    exact hcompare.mono fun _ _ => meets_enterSender hs hd hv hsender

/-- The version that is made does not purge the sender and, if strict, is put in its
place. -/
def KeepsSender (strict : Bool) (env : Surroundings) (dio : Dio) (s : Instance)
    (sender : Option Nat) (d : Dodag) : Prop :=
  (∀ v ∈ d.versions, v.number ≠ dio.versionNumber) → env.versionRoom →
    (∀ n ∈ s.candidateNeighbours, n.ref ∈ sender → n.version ∉ s.purged d dio.versionNumber) ∧
      (strict → InPlace dio.versionNumber d.versions)

theorem meets_chooseVersion (hs : Tidy strict allowed s) {dodagRef : Nat} {becomeLeaf : Bool}
    (hd : allowed .freed ∨ dodagRef ∈ s.dodags.map (·.ref))
    (hsender : SenderAlive allowed s sender)
    (hkeeps : ∀ d, s.dodag dodagRef = .ok d → d.haveConfig → rpl_policy_join_config d.config →
      allowed .freed ∨ KeepsSender strict env dio s sender d) :
    Meets allowed (s.chooseVersion env dio dodagRef sender becomeLeaf) (Tidy strict allowed) := by
  unfold chooseVersion
  rw [meets_bind]
  refine meets_dodag hd fun d hfound => ?_
  split
  · exact meets_invalidParent hs hsender
  case isFalse haccept =>
    simp only [Bool.not_eq_true', Bool.not_eq_false, Bool.and_eq_true] at haccept
    obtain ⟨hhave, hpolicy⟩ := haccept
    obtain ⟨hmem, rfl⟩ := dodag_spec hfound
    cases hfind : d.versions.find? (·.number = dio.versionNumber) with
    | some v =>
        dsimp only
        refine meets_inVersion hs hd (fun e he href => ?_) (.inr ?_) hsender
        · rw [List.inj_on_of_nodup_map hs.numbered.distinct he hmem href]
          exact ⟨hhave, hpolicy⟩
        · exact mem_versionRefs.mpr ⟨d, hmem, v, List.mem_of_find?_eq_some hfind, rfl⟩
    | none =>
        dsimp only
        split
        · exact meets_invalidParent hs hsender
        case isFalse hroom =>
          have hnew : ∀ v ∈ d.versions, v.number ≠ dio.versionNumber := fun v hv => by
            simpa using List.find?_eq_none.mp hfind v hv
          rw [meets_bind]
          have hroom' : env.versionRoom := by simpa using hroom
          have hkeep := (hkeeps d hfound hhave hpolicy).imp_right fun h => h hnew hroom'
          refine (meets_rpl_create_dodag_version hs hfound hhave
            (hs.configured.config d hmem hhave (.inr hpolicy)) hnew (hkeep.imp_right (·.2))).mono fun r hr => ?_
          refine meets_inVersion hr.tidy (hr.refs ▸ hd) (fun e he href => ?_) hr.alive fun n hn => ?_
          · obtain ⟨hhave', hconfig⟩ := hr.config e he href
            exact ⟨hhave', hconfig ▸ hpolicy⟩
          rcases hsender n hn with hallow | hin
          · exact .inl hallow
          · refine hkeep.imp_right fun hkeep => ?_
            obtain ⟨m, hm, rfl⟩ := List.mem_map.mp hin
            rw [hr.neighbours]
            refine List.mem_map_of_mem (List.mem_filter.mpr ⟨hm, ?_⟩)
            simpa using hkeep.1 m hm hn

/-! ## The configuration -/

/-- The configuration of a DODAG once the option is read, unless there is no objective
function for it. -/
def confRead (env : Surroundings) (dio : Dio) (s : Instance) (d : Dodag) : Option Conf :=
  match dio.conf with
  | none => if d.haveConfig then some d.config else none
  | some conf =>
      if d.haveConfig && s.fromOther (some dio.llAddress) then some d.config
      else if (env.objective conf.objectiveCodePoint).isSome || (env.objective ocpOf0).isSome
      then some conf else none

/-- What `rpl_dodag_update_config` leaves. -/
structure Updated (strict : Bool) (allowed : Fault → Prop) (env : Surroundings) (conf : Conf)
    (src : Option Nat) (s : Instance) (d : Dodag) (t : Instance) (accepted : Bool) : Prop where
  tidy : Tidy strict allowed t
  refs : t.dodags.map (·.ref) = s.dodags.map (·.ref)
  fresh : t.fresh = s.fresh
  neighbours : t.candidateNeighbours = s.candidateNeighbours
  dodag : ∀ e, t.dodag d.ref = .ok e → e.haveConfig ∧ e.versions = d.versions ∧ e.config =
    if d.haveConfig && s.fromOther src then d.config else conf
  accepted : accepted = ((d.haveConfig && s.fromOther src) ||
    (env.objective conf.objectiveCodePoint).isSome || (env.objective ocpOf0).isSome)

theorem kept_of (s : Instance) (o : Option Objective) : Kept s { s with of := o } :=
  ⟨rfl, .refl _, fun _ h => .inl h, rfl⟩

theorem meets_rpl_dodag_update_config (hs : Tidy strict allowed s) {d : Dodag} {conf : Conf}
    {src : Option Nat} (hd : s.dodag d.ref = .ok d)
    (hgood : ¬(d.haveConfig && s.fromOther src) →
      (d.versions ≠ [] ∨ rpl_policy_join_config conf) → allowed .divideByZero ∨ conf.Good) :
    Meets allowed (s.rpl_dodag_update_config env d.ref conf src) fun r =>
      Updated strict allowed env conf src s d r.1 r.2.1 := by
  have hmem := (dodag_spec hd).1
  unfold rpl_dodag_update_config
  rw [hd, meets_bind, meets_ok]
  split
  case isTrue hother =>
    refine ⟨hs, rfl, rfl, rfl, fun e he => ?_, by simp [hother]⟩
    rw [hd] at he
    cases he
    exact ⟨(Bool.and_eq_true_iff.mp hother).1, rfl, (if_pos hother).symm⟩
  case isFalse hother =>
    set t := s.updateDodag d.ref fun d => { d with config := conf, haveConfig := true } with ht
    have htidy : Tidy strict allowed t := by
      refine hs.updateDodag (fun _ => rfl) (fun _ => rfl) (fun _ _ => rfl) ?_
      intro e he href _ huse
      rw [List.inj_on_of_nodup_map hs.numbered.distinct he hmem href] at huse
      exact hgood hother huse
    have hupdated : ∀ (o : Option Objective) (accepted : Bool),
        accepted = ((env.objective conf.objectiveCodePoint).isSome ||
          (env.objective ocpOf0).isSome) →
        Updated strict allowed env conf src s d { t with of := o } accepted := by
      intro o accepted hacc
      refine ⟨(kept_of t o).tidy htidy, s.updateDodag_refs d.ref fun _ => rfl, rfl, rfl,
        fun e' hfound => ?_, ?_⟩
      · obtain ⟨hin, href⟩ := dodag_spec hfound
        obtain ⟨e, he, ⟨href', rfl⟩ | ⟨hne, rfl⟩⟩ := mem_updateDodag hin
        · rw [List.inj_on_of_nodup_map hs.numbered.distinct he hmem href', if_neg hother]
          exact ⟨rfl, rfl, rfl⟩
        · exact absurd href hne
      · rw [hacc, Bool.eq_false_iff.mpr hother, Bool.false_or]
    rw [meets_bind]
    refine hs.sound.meets_current (fun _ => ?_) fun _ _ _ _ _ => ?_
    all_goals
      dsimp only
      cases hobjective : env.objective conf.objectiveCodePoint with
      | some o => exact hupdated (some o) true (by simp [hobjective])
      | none =>
          cases hzero : env.objective ocpOf0 with
          | some o => exact hupdated (some o) true (by simp [hobjective, hzero])
          | none => exact hupdated none false (by simp [hobjective, hzero])

/-- The sender is kept in the same way when the DODAG has another configuration. -/
theorem KeepsSender.congr {d e : Dodag} (h : KeepsSender strict env dio s sender d)
    (hversions : e.versions = d.versions) (hfresh : t.fresh = s.fresh)
    (hneighbours : t.candidateNeighbours = s.candidateNeighbours) :
    KeepsSender strict env dio t sender e := by
  unfold KeepsSender purged at h ⊢
  rw [hversions, hfresh, hneighbours]
  exact h

theorem meets_readConf (hs : Tidy strict allowed s) {d : Dodag} (hd : s.dodag d.ref = .ok d)
    (hsender : SenderAlive allowed s sender)
    (hgood : env.ownDodagId = false → ∀ conf ∈ dio.conf,
      ¬(d.haveConfig && s.fromOther (some dio.llAddress)) →
        (d.versions ≠ [] ∨ rpl_policy_join_config conf) → allowed .divideByZero ∨ conf.Good)
    (hkeeps : env.ownDodagId = false → ∀ conf ∈ confRead env dio s d,
      rpl_policy_join_config conf → allowed .freed ∨ KeepsSender strict env dio s sender d) :
    Meets allowed (s.readConf env dio d.ref sender) (Tidy strict allowed) := by
  have hrefs : d.ref ∈ s.dodags.map (·.ref) := List.mem_map_of_mem (dodag_spec hd).1
  unfold readConf
  split
  · exact meets_invalidParent hs hsender
  case isFalse hown =>
    have hown' := Bool.eq_false_iff.mpr hown
    cases hconf : dio.conf with
    | none =>
        refine meets_chooseVersion hs (.inr hrefs) hsender fun e he hhave hpolicy => ?_
        rw [hd] at he
        cases he
        refine hkeeps hown' d.config ?_ hpolicy
        unfold confRead
        rw [hconf]
        exact if_pos hhave
    | some conf =>
        dsimp only
        rw [meets_bind]
        refine (meets_rpl_dodag_update_config hs hd (hgood hown' conf hconf)).mono fun r hr => ?_
        obtain ⟨t, accepted, leaf⟩ := r
        have hsender' : SenderAlive allowed t sender := by
          intro n hn
          rw [hr.neighbours]
          exact hsender n hn
        dsimp only
        split
        · exact meets_invalidParent hr.tidy hsender'
        case isFalse haccepted =>
          refine meets_chooseVersion hr.tidy (.inr (hr.refs ▸ hrefs)) hsender'
            fun e he hhave hpolicy => ?_
          obtain ⟨-, hversions, hconfig⟩ := hr.dodag e he
          refine (hkeeps hown' e.config ?_ hpolicy).imp_right fun h =>
            h.congr hversions hr.fresh hr.neighbours
          unfold confRead
          rw [hconf, hconfig]
          dsimp only
          split
          case isTrue => rfl
          case isFalse hother =>
            have hacc := hr.accepted
            rw [Bool.eq_false_iff.mpr hother, Bool.false_or] at hacc
            refine if_pos ?_
            rw [← hacc]
            simpa using haccepted

/-! ## The DODAG -/

/-- A node that is or was root of the DODAG refuses newer versions. -/
def RefusedAsRoot (dio : Dio) (s : Instance) (d : Dodag) : Prop :=
  (d.root || d.wasRoot) ∧ ∃ e v, s.current = .ok (some (e, v)) ∧
    (rpl_seq_compare dio.versionNumber v.number = .unordered ∨
      rpl_seq_compare dio.versionNumber v.number = .greater)

theorem meets_inDodag (hs : Tidy strict allowed s) {d : Dodag} (hd : s.dodag d.ref = .ok d)
    (hsender : SenderAlive allowed s sender)
    (hroot : allowed .null ∨ ((d.root || d.wasRoot) → s.currentDodagVersion ≠ none))
    (hgood : ¬RefusedAsRoot dio s d → env.ownDodagId = false → ∀ conf ∈ dio.conf,
      ¬(d.haveConfig && s.fromOther (some dio.llAddress)) →
        (d.versions ≠ [] ∨ rpl_policy_join_config conf) → allowed .divideByZero ∨ conf.Good)
    (hkeeps : ¬RefusedAsRoot dio s d → env.ownDodagId = false →
      ∀ conf ∈ confRead env dio s d, rpl_policy_join_config conf →
        allowed .freed ∨ KeepsSender strict env dio s sender d) :
    Meets allowed (s.inDodag env dio d.ref sender) (Tidy strict allowed) := by
  unfold inDodag
  rw [hd, meets_bind, meets_ok]
  split
  case isFalse hnot =>
    have hunrefused : ¬RefusedAsRoot dio s d := fun h => hnot h.1
    exact meets_readConf hs hd hsender (hgood hunrefused) (hkeeps hunrefused)
  case isTrue hisRoot =>
    unfold rpl_dodag_get_version_number_as_root
    rw [meets_bind, meets_bind]
    refine hs.sound.meets_current (fun hnone => ?_) fun ref e v href hcurrent => ?_
    · exact hroot.resolve_right fun h => h hisRoot hnone
    · dsimp only
      rw [meets_pure]
      split
      · exact meets_invalidParent hs hsender
      case isFalse hcmp =>
        have hunrefused : ¬RefusedAsRoot dio s d := by
          rintro ⟨-, e', v', heq, hrefused⟩
          have heq' : s.current = .ok (some (e, v)) := by
            unfold current
            rw [href]
            dsimp only
            rw [hcurrent]
            rfl
          rw [heq'] at heq
          cases heq
          exact hcmp hrefused
        exact meets_readConf hs hd hsender (hgood hunrefused) (hkeeps hunrefused)

/-! ## The handler -/

/-- The DIO is read as far as its DODAG. -/
structure Heard (env : Surroundings) (dio : Dio) : Prop where
  wellFormed : dio.malformed = false
  finite : dio.rank ≠ infinite
  join : env.joinDodag

/-- The entry of the sender as the handler looks it up. -/
def senderRef (dio : Dio) (s : Instance) : Option Nat :=
  (s.rpl_lookup_neighbour_by_ll_address dio.llAddress dio.interfaceId).map (·.ref)

/-- A node that is or was root of the DODAG of the DIO has a current version. -/
def RootHasVersion (env : Surroundings) (dio : Dio) (s : Instance) : Prop :=
  Heard env dio → ∀ d ∈ s.rpl_lookup_dodag dio.dodagId, (d.root || d.wasRoot) →
    s.currentDodagVersion ≠ none

/-- Where the DIO makes a version, the sender is in none that is purged and, if strict, the
version is put in its place. -/
def SenderStays (strict : Bool) (env : Surroundings) (dio : Dio) (s : Instance) : Prop :=
  Heard env dio → ∀ d ∈ s.rpl_lookup_dodag dio.dodagId, ¬RefusedAsRoot dio s d →
    env.ownDodagId = false → ∀ conf ∈ confRead env dio s d, rpl_policy_join_config conf →
      KeepsSender strict env dio s (senderRef dio s) d

/-- A configuration that the DIO stores is good, if the DODAG has a version or the
configuration is accepted. -/
def StoresGood (env : Surroundings) (dio : Dio) (s : Instance) : Prop :=
  Heard env dio → env.ownDodagId = false → ∀ conf ∈ dio.conf,
    (∀ d ∈ s.rpl_lookup_dodag dio.dodagId,
      ¬RefusedAsRoot dio s d ∧ ¬(d.haveConfig && s.fromOther (some dio.llAddress))) →
    (s.rpl_lookup_dodag dio.dodagId = none → env.dodagRoom) →
    ((∃ d ∈ s.rpl_lookup_dodag dio.dodagId, d.versions ≠ []) ∨ rpl_policy_join_config conf) →
    conf.Good

theorem senderRef_alive (allowed : Fault → Prop) (dio : Dio) (s : Instance) :
    SenderAlive allowed s (senderRef dio s) := by
  intro n hn
  obtain ⟨m, hm, rfl⟩ := Option.map_eq_some_iff.mp hn
  exact .inr (List.mem_map_of_mem (List.mem_of_find?_eq_some hm))

theorem dodag_of_mem (hs : Numbered s) {d : Dodag} (hd : d ∈ s.dodags) :
    s.dodag d.ref = .ok d := by
  unfold dodag
  cases hfind : s.dodags.find? (·.ref = d.ref) with
  | none => exact absurd (decide_eq_true rfl) (List.find?_eq_none.mp hfind d hd)
  | some e =>
      have href : e.ref = d.ref := by simpa using List.find?_some hfind
      have hsame : e = d :=
        List.inj_on_of_nodup_map hs.distinct (List.mem_of_find?_eq_some hfind) hd href
      rw [hsame]

/-- **A DIO keeps the records tidy**, up to the faults that are allowed. -/
theorem meets_rpl_control_dio_handler (hs : Tidy strict allowed s)
    (hroot : allowed .null ∨ RootHasVersion env dio s)
    (hstays : allowed .freed ∨ SenderStays strict env dio s)
    (hgood : allowed .divideByZero ∨ StoresGood env dio s) :
    Meets allowed (s.rpl_control_dio_handler env dio) (Tidy strict allowed) := by
  have hsender := senderRef_alive allowed dio s
  unfold rpl_control_dio_handler
  split
  · exact hs
  case isFalse hwell =>
    dsimp only
    change SenderAlive allowed s
      ((s.rpl_lookup_neighbour_by_ll_address dio.llAddress dio.interfaceId).map (·.ref)) at hsender
    split
    · exact meets_invalidParent hs hsender
    case isFalse hfinite =>
      split
      · exact meets_invalidParent hs hsender
      case isFalse hjoin =>
        have hheard : Heard env dio := ⟨by simpa using hwell, hfinite, by simpa using hjoin⟩
        cases hlookup : s.rpl_lookup_dodag dio.dodagId with
        | some d =>
            have hmem : d ∈ s.dodags := List.mem_of_find?_eq_some hlookup
            refine meets_inDodag hs (dodag_of_mem hs.numbered hmem) hsender
              (hroot.imp_right fun h => h hheard d hlookup) ?_ ?_
            · intro hunrefused hown conf hconf hother huse
              refine hgood.imp_right fun h => h hheard hown conf hconf (fun e he => ?_)
                (fun hnone => ?_) (huse.imp_left fun hne => ⟨d, hlookup, hne⟩)
              · rw [hlookup] at he
                cases he
                exact ⟨hunrefused, hother⟩
              · rw [hlookup] at hnone
                cases hnone
            · intro hunrefused hown conf hconf hpolicy
              exact hstays.imp_right fun h => h hheard d hlookup hunrefused hown conf hconf hpolicy
        | none =>
            dsimp only
            split
            · exact meets_invalidParent hs hsender
            case isFalse hroom =>
              have ht := hs.rpl_create_dodag dio.dodagId dio.gMopPrf env.memory
              have hd := dodag_of_mem ht.numbered List.mem_cons_self
              refine meets_inDodag ht hd hsender (.inr fun h => by cases h) ?_ ?_
              · intro _ hown conf hconf _ huse
                refine hgood.imp_right fun h => h hheard hown conf hconf (fun e he => ?_)
                  (fun _ => ?_) (.inr (huse.resolve_left fun hne => hne rfl))
                · rw [hlookup] at he
                  cases he
                · simpa using hroom
              · intro _ _ _ _ _
                refine .inr fun _ _ => ⟨fun n _ _ hmem => ?_, fun _ v hv => ?_⟩
                · cases hmem
                · cases hv

end Instance

end Rpl
