import WisunModem.RplEvents

/-!
# Runs of a RPL instance

Every event keeps the records tidy under its condition, and so does every run.
-/

namespace Rpl

open Faults

variable {strict : Bool} {allowed : Fault → Prop}

namespace Instance

variable {s t : Instance}

/-! ## Transmissions and packets -/

theorem meets_hardLimit {conf : Conf} (h : allowed .divideByZero ∨ conf.minHopRankIncrease ≠ 0)
    (rank : UInt16) : Meets allowed (hardLimit conf rank) fun _ => True := by
  unfold hardLimit
  rw [meets_bind]
  refine (meets_nrpl_dag_rank h rank).mono fun _ _ => ?_
  rw [meets_bind]
  exact (meets_nrpl_dag_rank h _).mono fun _ _ => trivial

theorem meets_limitGreediness {minHop : UInt16} (h : allowed .divideByZero ∨ minHop ≠ 0)
    (v : Version) (rank : UInt16) :
    Meets allowed (limitGreediness minHop v rank) fun _ => True := by
  unfold limitGreediness
  split
  · rw [meets_bind]
    exact (meets_rpl_rank_max_at_level h rank).mono fun _ _ => trivial
  · trivial

theorem meets_advertised {conf : Conf} (h : allowed .divideByZero ∨ conf.minHopRankIncrease ≠ 0)
    (v : Version) (rank : UInt16) : Meets allowed (advertised conf v rank) fun _ => True := by
  have hlower : ∀ v, Meets allowed (lowerLimit conf v rank) fun _ => True := by
    intro v
    unfold lowerLimit
    split
    · rw [meets_bind]
      exact (meets_hardLimit h rank).mono fun _ _ => trivial
    · trivial
  unfold advertised
  rw [meets_bind]
  exact (hlower _).mono fun _ _ => meets_limitGreediness h _ rank

theorem meets_advertisedVersion (hs : Sound allowed s) :
    Meets allowed s.advertisedVersion fun o =>
      ∀ dv ∈ o, dv.1 ∈ s.dodags ∧ dv.2 ∈ dv.1.versions := by
  unfold advertisedVersion
  rw [meets_bind]
  refine hs.meets_current (fun _ => ?_) fun ref d v _ hv => ?_
  · dsimp only
    split
    · rintro dv ⟨⟩
    · intro dv hdv
      obtain ⟨d, hd, hdv⟩ := Option.bind_eq_some_iff.mp hdv
      obtain ⟨v, hv, rfl⟩ := Option.map_eq_some_iff.mp hdv
      exact ⟨List.mem_of_mem_head? hd, List.mem_of_mem_head? hv⟩
  · rintro dv ⟨⟩
    obtain ⟨hd, hv, -⟩ := version_spec hv
    exact ⟨hd, hv⟩

theorem meets_rpl_instance_dio_trigger (hs : Sound allowed s) (unicast parentSelected : Bool) :
    Meets allowed (s.rpl_instance_dio_trigger unicast parentSelected) fun r => Kept s r.1 := by
  unfold rpl_instance_dio_trigger
  rw [meets_bind]
  refine (meets_advertisedVersion hs).mono fun o ho => ?_
  cases o with
  | none => exact .rfl
  | some dv =>
      obtain ⟨d, v⟩ := dv
      obtain ⟨hd, hv⟩ := ho _ rfl
      have hpoison : Kept s { s with poisonCount := s.poisonCount - 1 } :=
        ⟨rfl, .refl _, fun _ h => .inl h, rfl⟩
      dsimp only
      split
      · exact hpoison
      · rw [meets_bind]
        refine (meets_advertised (hs.divides d hd (List.ne_nil_of_mem hv)) v _).mono fun _ _ => ?_
        exact hpoison.trans (.updateVersion fun _ _ _ => rfl)

theorem meets_senderRank (hs : Sound allowed s) (p : Forwarded) :
    Meets allowed (s.senderRank p) fun _ => True := by
  unfold senderRank
  rw [meets_bind]
  refine hs.meets_current (fun _ => trivial) fun ref d v _ hv => ?_
  have hdivides := hs.divides_of_version hv
  have hdrops : Meets allowed (s.dropsForRank d p) fun _ => True := by
    unfold dropsForRank
    split
    · rw [meets_bind]
      exact (meets_rpl_rank_compare_dagrank_rank hdivides ..).mono fun _ _ => trivial
    · trivial
  dsimp only
  rw [meets_bind]
  refine hdrops.mono fun drops _ => ?_
  split
  · trivial
  · split
    · rw [meets_map]
      exact meets_nrpl_dag_rank hdivides _
    · trivial

/-! ## DAO lifetimes -/

theorem meets_choosePathLifetime {conf : Conf} (h : allowed .divideByZero ∨ conf.lifetimeUnit ≠ 0)
    (t : DaoTarget) : Meets allowed (choosePathLifetime (some conf) t) fun _ => True := by
  unfold choosePathLifetime
  split
  · trivial
  · dsimp only
    split
    · trivial
    · split
      case isTrue hzero => exact h.resolve_right fun hne => hne hzero
      case isFalse => trivial

theorem meets_rpl_instance_send_dao_update (hs : Tidy strict allowed s) (busy exhausted : Bool)
    (targets : List DaoTarget) :
    Meets allowed (s.rpl_instance_send_dao_update busy exhausted targets) fun r => Kept s r.1 := by
  unfold rpl_instance_send_dao_update
  rw [meets_bind]
  refine hs.sound.meets_current (fun _ => .rfl) fun ref d v _ hv => ?_
  obtain ⟨hd, hmem, -⟩ := version_spec hv
  have hhave := hs.configured.versions d hd (List.ne_nil_of_mem hmem)
  dsimp only
  split
  · exact .rfl
  · split
    · cases hhead : s.candidateNeighbours.head? with
      | none => exact .rfl
      | some n =>
          dsimp only
          rw [meets_bind]
          exact (meets_rpl_delete_neighbour
            (.inr (List.mem_map_of_mem (List.mem_of_mem_head? hhead)))).mono fun t ht => ht
    · have hconfig : rpl_dodag_get_config d = some d.config := if_pos hhave
      rw [meets_bind, hconfig]
      refine (meets_mapM fun t _ => meets_choosePathLifetime ?_ t).mono fun _ _ => .rfl
      exact (hs.configured.config d hd hhave (.inl (List.ne_nil_of_mem hmem))).imp_right (·.2)

/-! ## Records that go -/

theorem meets_purgeDodag (hs : Tidy strict allowed s) {d : Dodag} (hd : d ∈ s.dodags) :
    Meets allowed (s.purgeDodag d) (Tidy strict allowed) := by
  have hneighbour : ∀ ns, (∀ n ∈ ns, n ∈ s.candidateNeighbours) →
      Meets allowed (s.hasNeighbour d ns) fun _ => True := by
    intro ns
    induction ns with
    | nil => exact fun _ => trivial
    | cons n ns ih =>
        intro hns
        unfold hasNeighbour
        rw [meets_bind]
        refine meets_version (hs.sound.neighbours n (hns n List.mem_cons_self)) fun e v _ => ?_
        dsimp only
        split
        · trivial
        · exact ih fun m hm => hns m (List.mem_cons_of_mem n hm)
  have huse : Meets allowed (s.rpl_dodag_in_use d) fun _ => True := by
    unfold rpl_dodag_in_use
    split
    · trivial
    · split
      · trivial
      · exact hneighbour _ fun _ h => h
  unfold purgeDodag
  rw [meets_bind]
  refine huse.mono fun used _ => ?_
  split
  · exact hs
  · exact hs.rpl_delete_dodag hd

/-! ## Roots -/

/-- Another current version that is there. -/
theorem Tidy.setCurrent (hs : Tidy strict allowed s) {version : Option Nat}
    (h : ∀ ref ∈ version, allowed .freed ∨ ref ∈ s.versionRefs) :
    Tidy strict allowed { s with currentDodagVersion := version } := by
  refine ⟨⟨hs.numbered.below, hs.numbered.distinct⟩, ?_,
    ⟨hs.configured.config, hs.configured.versions⟩⟩
  rcases hs.records with hallow | hr
  · exact .inl hallow
  by_cases hallow : allowed .freed
  · exact .inl hallow
  exact .inr ⟨⟨hr.versionsDistinct, hr.versionsBelow, hr.neighboursBelow, hr.distinct,
    hr.neighbours, fun ref href => (h ref href).resolve_left hallow⟩, hr.ordered⟩

theorem Moved.tidy {ref : Nat} {rank : UInt16} (h : Moved s ref rank t)
    (hs : Tidy strict allowed s) (hlive : allowed .freed ∨ ref ∈ s.versionRefs) :
    Tidy strict allowed t := by
  have hset : Tidy strict allowed { s with currentDodagVersion := some ref } := by
    refine hs.setCurrent ?_
    rintro r ⟨⟩
    exact hlive
  have hkept : Kept { s with currentDodagVersion := some ref } t :=
    ⟨congrArg _ h.dodags, h.keys ▸ .refl _, fun r hr => .inl (h.current ▸ hr), h.fresh⟩
  exact hkept.tidy hset

theorem meets_startRoot {env : Surroundings} {ref : Nat} {rank : UInt16}
    (hs : Tidy strict allowed s) (href : ref ∈ s.dodags.map (·.ref))
    (hfresh : ∀ d, s.dodag ref = .ok d →
      d.haveConfig ∧ d.versions = [] ∧ (allowed .divideByZero ∨ d.config.Good)) :
    Meets allowed (s.startRoot env ref rank) (Tidy strict allowed) := by
  obtain ⟨d, hd, rfl⟩ := List.mem_map.mp href
  have hfound := dodag_of_mem hs.numbered hd
  obtain ⟨hhave, hnil, hgood⟩ := hfresh d hfound
  unfold startRoot
  split
  · rw [meets_bind]
    have hnew : ∀ v ∈ d.versions, v.number ≠ rpl_seq_init := by
      rw [hnil]
      rintro v ⟨⟩
    have hplace : InPlace rpl_seq_init d.versions := by
      rw [hnil]
      rintro v ⟨⟩
    refine (meets_rpl_create_dodag_version hs hfound hhave hgood hnew
      (.inr fun _ => hplace)).mono fun r hr => ?_
    refine (meets_rpl_instance_set_dodag_version rank hr.alive).mono fun t ht => ?_
    exact ht.tidy hr.tidy hr.alive
  · rw [hfound, meets_bind]
    exact hs.rpl_delete_dodag hd

theorem Tidy.rpl_instance_remove_parents (hs : Tidy strict allowed s) :
    Tidy strict allowed s.rpl_instance_remove_parents :=
  (Kept.mark (fun n => { n with dodagParent := false }) fun _ => rfl).tidy hs

theorem Tidy.rpl_dodag_set_root (hs : Tidy strict allowed s) (d : Dodag) :
    Tidy strict allowed (s.rpl_dodag_set_root d) := by
  unfold Instance.rpl_dodag_set_root
  split
  · exact hs
  · exact hs.rpl_instance_remove_parents.updateDodag (fun _ => rfl) (fun _ => rfl) (fun _ h => h)
      fun e he _ => hs.configured.config e he

/-- Setting the root flag leaves configuration and versions of a DODAG. -/
theorem mem_rpl_dodag_set_root {d e : Dodag} (he : e ∈ (s.rpl_dodag_set_root d).dodags) :
    ∃ f ∈ s.dodags, f.ref = e.ref ∧ f.haveConfig = e.haveConfig ∧ f.config = e.config ∧
      f.versions = e.versions := by
  unfold rpl_dodag_set_root at he
  split at he
  · exact ⟨e, he, rfl, rfl, rfl, rfl⟩
  · obtain ⟨f, hf, ⟨-, rfl⟩ | ⟨-, rfl⟩⟩ := mem_updateDodag he
    · exact ⟨f, hf, rfl, rfl, rfl, rfl⟩
    · exact ⟨_, hf, rfl, rfl, rfl, rfl⟩

theorem meets_newRoot (hs : Tidy strict allowed s) {env : Surroundings} {id : Nat} {conf : Conf}
    {rank : UInt16} {gMopPrf : UInt8} (hgood : allowed .divideByZero ∨ conf.Good) :
    Meets allowed (s.newRoot env id conf rank gMopPrf) (Tidy strict allowed) := by
  unfold newRoot
  split
  · exact hs
  · dsimp only
    have ht := hs.rpl_create_dodag id gMopPrf env.memory
    have hfound := dodag_of_mem ht.numbered List.mem_cons_self
    rw [meets_bind]
    refine (meets_rpl_dodag_update_config ht hfound fun _ _ => hgood).mono fun r hr => ?_
    obtain ⟨t, accepted, leaf⟩ := r
    have hin : s.fresh ∈ t.dodags.map (·.ref) := by
      rw [hr.refs]
      exact List.mem_map_of_mem List.mem_cons_self
    dsimp only
    rw [meets_bind]
    refine meets_dodag (.inr hin) fun d hd => ?_
    have hroot := hr.tidy.rpl_dodag_set_root d
    refine meets_startRoot hroot ?_ fun e he => ?_
    · unfold rpl_dodag_set_root
      split
      · exact hin
      · rw [updateDodag_refs _ _ fun _ => by rfl]
        exact hin
    · obtain ⟨he, href⟩ := dodag_spec he
      obtain ⟨f, hf, hsame, hhave, hconf, hversions⟩ := mem_rpl_dodag_set_root he
      have hf' := dodag_of_mem hr.tidy.numbered hf
      rw [hsame, href] at hf'
      obtain ⟨hconfig, hnil, hvalue⟩ := hr.dodag f hf'
      refine ⟨hhave ▸ hconfig, hversions ▸ hnil, ?_⟩
      rw [← hconf, hvalue]
      exact hgood

theorem meets_rpl_control_create_dodag_root (hs : Tidy strict allowed s) {env : Surroundings}
    {id : Nat} {conf : Conf} {rank : UInt16} {gMopPrf : UInt8}
    (hgood : allowed .divideByZero ∨ conf.Good) :
    Meets allowed (s.rpl_control_create_dodag_root env id conf rank gMopPrf)
      (Tidy strict allowed) := by
  unfold rpl_control_create_dodag_root
  cases hlookup : s.rpl_lookup_dodag id with
  | none => exact meets_newRoot hs hgood
  | some d =>
      dsimp only
      split
      · exact hs
      · exact meets_newRoot (hs.rpl_delete_dodag (List.mem_of_find?_eq_some hlookup)) hgood

theorem meets_rpl_delete_dodag_root (hs : Tidy strict allowed s) (d : Dodag) :
    Meets allowed (s.rpl_delete_dodag_root d) (Tidy strict allowed) := by
  have hnone : Tidy strict allowed { s with currentDodagVersion := none } := by
    refine hs.setCurrent ?_
    rintro r ⟨⟩
  have hkept : Kept { s with currentDodagVersion := none }
      { s with currentRank := infinite, currentDodagVersion := none } :=
    ⟨rfl, .refl _, fun _ h => .inl h, rfl⟩
  unfold rpl_delete_dodag_root rpl_instance_set_dodag_version
  rw [meets_bind, meets_pure, meets_pure]
  exact (hkept.tidy hnone).updateDodag (fun _ => rfl) (fun _ => rfl) (fun _ h => h)
    fun e he _ => hs.configured.config e he

/-- The version of a root is the newest of its DODAG, and the others are less than the
number that comes next. -/
def RootAhead (s : Instance) : Prop :=
  ∃ d v older, s.current = .ok (some (d, v)) ∧ d.versions = v :: older ∧
    ∀ w ∈ older, rpl_seq_compare w.number (rpl_seq_inc v.number) = .less

theorem Tidy.updateNumber (hs : Tidy strict allowed s) {ref : Nat} {number : UInt8}
    (hahead : allowed .freed ∨ ∃ d ∈ s.dodags, ∃ v older, d.versions = v :: older ∧ v.ref = ref ∧
      ∀ w ∈ older, rpl_seq_compare w.number number = .less) :
    Tidy strict allowed (s.updateVersion ref fun v => { v with number := number }) := by
  have hmem : ∀ e ∈ (s.updateVersion ref fun v => { v with number := number }).dodags,
      ∃ f ∈ s.dodags, { f with versions := f.versions.map fun v =>
        if v.ref = ref then { v with number := number } else v } = e :=
    fun e he => List.mem_map.mp he
  have hrefs : (s.updateVersion ref fun v => { v with number := number }).versionRefs =
      s.versionRefs := by
    unfold versionRefs updateVersion
    rw [List.flatMap_map]
    refine congrArg s.dodags.flatMap (funext fun e => ?_)
    unfold Dodag.versionRefs
    rw [List.map_map]
    refine List.map_congr_left fun w _ => ?_
    rw [Function.comp_apply]
    split <;> rfl
  refine ⟨⟨fun e he => ?_, ?_⟩, ?_, ⟨fun e he => ?_, fun e he hne => ?_⟩⟩
  · obtain ⟨f, hf, rfl⟩ := hmem e he
    exact hs.numbered.below f hf
  · have hsame : (s.updateVersion ref fun v => { v with number := number }).dodags.map (·.ref) =
        s.dodags.map (·.ref) := by
      unfold updateVersion
      rw [List.map_map]
      rfl
    rw [hsame]
    exact hs.numbered.distinct
  · rcases hs.records with hallow | h
    · exact .inl hallow
    refine hahead.imp_right fun hahead => ?_
    obtain ⟨d, hd, v, older, hversions, href, hless⟩ := hahead
    refine ⟨⟨hrefs ▸ h.versionsDistinct, hrefs ▸ h.versionsBelow,
      h.neighboursBelow, h.distinct, hrefs ▸ h.neighbours, hrefs ▸ h.current⟩, fun e he => ?_⟩
    obtain ⟨f, hf, rfl⟩ := hmem e he
    have hother : ∀ ws : List Version, (∀ w ∈ ws, w.ref ≠ ref) →
        ws.map (fun v => if v.ref = ref then { v with number := number } else v) = ws := by
      intro ws hws
      conv => rhs; rw [← List.map_id ws]
      exact List.map_congr_left fun w hw => if_neg (hws w hw)
    by_cases hfd : f = d
    · subst hfd
      have hnodup := h.toAlive.nodup_refs hf
      rw [hversions, List.map_cons, List.nodup_cons] at hnodup
      have hordered := h.ordered f hf
      dsimp only
      rw [hversions] at hordered ⊢
      rw [List.map_cons, if_pos href, hother older]
      · exact Ordered.advance hordered hless
      · intro w hw heq
        exact hnodup.1 (List.mem_map.mpr ⟨w, hw, heq.trans href.symm⟩)
    · obtain ⟨before, behind, hsplit⟩ := List.append_of_mem hd
      have hf' : f ∈ before ++ behind := by
        rw [hsplit] at hf
        rcases List.mem_append.mp hf with hf | hf
        · exact List.mem_append_left _ hf
        · exact List.mem_append_right _ ((List.mem_cons.mp hf).resolve_left hfd)
      dsimp only
      rw [hother f.versions]
      · exact h.ordered f hf
      · intro w hw heq
        refine h.toAlive.disjoint hsplit hf' hw ?_
        rw [heq, ← href, Dodag.versionRefs, hversions]
        exact List.mem_cons_self
  · obtain ⟨f, hf, rfl⟩ := hmem e he
    refine fun hhave huse => hs.configured.config f hf hhave (huse.imp_left fun hne hnil => hne ?_)
    dsimp only
    rw [hnil]
    rfl
  · obtain ⟨f, hf, rfl⟩ := hmem e he
    refine hs.configured.versions f hf fun hnil => hne ?_
    dsimp only
    rw [hnil]
    rfl

theorem meets_rpl_control_increment_dodag_version (hs : Tidy strict allowed s) {d : Dodag}
    (hahead : (allowed .freed ∧ allowed .null) ∨ (d.root → RootAhead s)) :
    Meets allowed (s.rpl_control_increment_dodag_version d) (Tidy strict allowed) := by
  unfold rpl_control_increment_dodag_version
  split
  case isFalse => exact hs
  case isTrue hroot =>
    unfold rpl_dodag_get_version_number_as_root
    rw [meets_bind, meets_bind]
    refine hs.sound.meets_current (fun hnone => ?_) fun ref d v href hcurrent => ?_
    · rcases hahead with hallow | hahead
      · exact hallow.2
      · obtain ⟨e, v, older, heq, -⟩ := hahead hroot
        unfold current at heq
        rw [hnone] at heq
        cases heq
    · obtain ⟨hd, hv, hvref⟩ := version_spec hcurrent
      dsimp only
      rw [meets_pure, href]
      dsimp only
      rw [meets_pure]
      refine hs.updateNumber (hahead.imp (·.1) fun hahead => ?_)
      obtain ⟨e, w, older, heq, hversions, hless⟩ := hahead hroot
      unfold current at heq
      rw [href] at heq
      dsimp only at heq
      rw [hcurrent] at heq
      cases heq
      exact ⟨d, hd, v, older, hversions, hvref, hless⟩

theorem meets_rpl_control_update_dodag_config (hs : Tidy strict allowed s) {env : Surroundings}
    {d : Dodag} {conf : Conf} (hd : d ∈ s.dodags) (hgood : allowed .divideByZero ∨ conf.Good) :
    Meets allowed (s.rpl_control_update_dodag_config env d conf) (Tidy strict allowed) := by
  unfold rpl_control_update_dodag_config
  split
  · rw [meets_map]
    exact (meets_rpl_dodag_update_config hs (dodag_of_mem hs.numbered hd) fun _ _ => hgood).mono
      fun r hr => hr.tidy
  · exact hs

theorem meets_onDodag (hs : Tidy strict allowed s) {ref : Nat}
    {f : Dodag → Except Fault Instance}
    (hf : ∀ d ∈ s.dodags.find? (·.ref = ref), Meets allowed (f d) (Tidy strict allowed)) :
    Meets allowed (s.onDodag ref f) (Tidy strict allowed) := by
  unfold onDodag
  cases hfind : s.dodags.find? (·.ref = ref) with
  | none => exact hs
  | some d => exact hf d hfind

end Instance

/-! ## Conditions -/

namespace Event

open Instance

/-- The condition of an event for the records: a node that is or was root has a current
version, a version that is made does not purge the sender, and the versions of a root stay
less than its next one. -/
def KeepsRecords (strict : Bool) (s : Instance) : Event → Prop
  | .dio env message => RootHasVersion env message s ∧ SenderStays strict env message s
  | .incrementVersion ref => ∀ d ∈ s.dodags.find? (·.ref = ref), d.root → RootAhead s
  | _ => True

/-- The condition of an event for the configurations: the one it stores is good. -/
def StoresGood (s : Instance) : Event → Prop
  | .dio env message => Instance.StoresGood env message s
  | .createRoot _ _ conf _ _ => conf.Good
  | .updateConfig _ _ conf => conf.Good
  | _ => True

end Event

namespace Instance

/-- **Step lemma.**  An event keeps records and configurations in order, up to the faults
that are allowed. -/
theorem meets_step {s : Instance} {event : Event} (hs : Tidy strict allowed s)
    (hrecords : (allowed .freed ∧ allowed .null) ∨ event.KeepsRecords strict s)
    (hgood : allowed .divideByZero ∨ event.StoresGood s) :
    Meets allowed (s.step event) (Tidy strict allowed) := by
  cases event with
  | dio env dio =>
      exact meets_rpl_control_dio_handler hs (hrecords.imp (·.2) (·.1)) (hrecords.imp (·.1) (·.2))
        hgood
  | select policy link aged poison =>
      refine meets_map.mpr ?_
      exact (meets_rpl_instance_run_parent_selection hs.sound).mono fun r hr => hr.tidy hs
  | transmit unicast parentSelected =>
      refine meets_map.mpr ?_
      exact (meets_rpl_instance_dio_trigger hs.sound ..).mono fun r hr => hr.tidy hs
  | forward packet =>
      refine meets_map.mpr ?_
      exact (meets_senderRank hs.sound packet).mono fun _ _ => hs
  | daoUpdate busy exhausted targets =>
      refine meets_map.mpr ?_
      exact (meets_rpl_instance_send_dao_update hs ..).mono fun r hr => hr.tidy hs
  | deleteNeighbours gone =>
      exact (meets_deleteWhere hs.sound fun _ _ _ _ => meets_pure.mpr trivial).mono
        fun t ht => ht.kept.tidy hs
  | purgeDodag ref =>
      exact meets_onDodag hs fun d hd => meets_purgeDodag hs (List.mem_of_find?_eq_some hd)
  | poison count =>
      have hkept : Kept s { s with poisonCount := max s.poisonCount count } :=
        ⟨rfl, .refl _, fun _ h => .inl h, rfl⟩
      exact hkept.tidy hs
  | forceLeaf leaf =>
      have hkept : Kept s (s.rpl_control_force_leaf leaf) :=
        ⟨rfl, .refl _, fun _ h => .inl h, rfl⟩
      exact hkept.tidy hs
  | createRoot env id conf rank gMopPrf => exact meets_rpl_control_create_dodag_root hs hgood
  | deleteRoot ref => exact meets_onDodag hs fun d _ => meets_rpl_delete_dodag_root hs d
  | incrementVersion ref =>
      exact meets_onDodag hs fun d hd =>
        meets_rpl_control_increment_dodag_version hs (hrecords.imp_right fun h => h d hd)
  | updateConfig env ref conf =>
      exact meets_onDodag hs fun d hd =>
        meets_rpl_control_update_dodag_config hs (List.mem_of_find?_eq_some hd) hgood

theorem rpl_create_instance_tidy (forceLeaf : Bool) :
    Tidy strict allowed (rpl_create_instance forceLeaf) where
  numbered := ⟨(by rintro d ⟨⟩), List.nodup_nil⟩
  records := .inr {
    versionsDistinct := List.nodup_nil
    versionsBelow := by rintro r ⟨⟩
    neighboursBelow := by rintro n ⟨⟩
    distinct := List.nodup_nil
    neighbours := by rintro n ⟨⟩
    current := by rintro r ⟨⟩
    ordered := by rintro d ⟨⟩ }
  configured := ⟨(by rintro d ⟨⟩), (by rintro d ⟨⟩)⟩

end Instance

end Rpl
