import WisunModem.RplRuled

/-!
# A DIO breaks no rule

Each part of `rpl_control_dio_handler` once more, now for a node within its limits.  A
fault may end the handler anywhere; what counts is what it leaves when it returns.
-/

namespace Rpl

open Faults

namespace Instance

variable {cfg : Nat → Conf} {sent : List Sent} {env : Surroundings} {dio : Dio} {s : Instance}

theorem meets_true {α : Type} (x : Except Fault α) : Meets (fun _ => True) x fun _ => True := by
  cases x <;> trivial

/-! ## The sender's entry -/

theorem Shrunk.updateNeighbour (s : Instance) {ref : Nat} {f : Neighbour → Neighbour}
    (hf : ∀ n, (f n).ref = n.ref) : Shrunk cfg s (s.updateNeighbour ref f) where
  dodags := fun e he => ⟨e, he, .rfl⟩
  refs := .refl _
  ids := .refl _
  versions := .refl _
  neighbours := s.updateNeighbour_refs ref hf ▸ .refl _
  fresh := rfl
  of := .inl rfl
  current := .inl rfl
  rank := .inl rfl

theorem Ruled.meets_invalidParent (hs : Ruled cfg sent s) (sender : Option Nat) :
    Meets (fun _ => True) (s.invalidParent sender) (Ruled cfg sent) := by
  cases sender with
  | none => exact hs
  | some n =>
      unfold invalidParent rpl_delete_neighbour
      dsimp only
      rw [meets_bind]
      refine meets_neighbour (.inl trivial) fun m _ => ?_
      have htrim : Trimmed s { s with
          candidateNeighbours := s.candidateNeighbours.filter (·.ref ≠ n) } :=
        ⟨rfl, rfl, rfl, rfl, rfl, List.filter_sublist⟩
      exact htrim.shrunk.ruled hs

theorem Ruled.meets_rpl_neighbour_update_dodag_version (hs : Ruled cfg sent s)
    (neighbourRef version : Nat) :
    Meets (fun _ => True) (s.rpl_neighbour_update_dodag_version dio neighbourRef version)
      (Ruled cfg sent) := by
  unfold rpl_neighbour_update_dodag_version
  rw [meets_bind]
  refine meets_neighbour (.inl trivial) fun n _ => ?_
  rw [meets_bind]
  refine meets_version (.inl trivial) fun d v _ => ?_
  dsimp only
  rw [meets_bind]
  refine (meets_true _).mono fun follows _ => ?_
  rw [meets_pure]
  refine (@Shrunk.updateNeighbour cfg _ _ _ fun _ => by rfl).ruled ?_
  cases follows with
  | false => exact hs
  | true =>
      have hshrunk : Shrunk cfg s (s.updateDodag d.ref fun d => { d with gMopPrf := dio.gMopPrf }) :=
        .updateDodag s (fun e _ _ => ⟨rfl, rfl, rfl, fun h => h, fun h => h, .refl _⟩)
          (fun _ => rfl) (fun _ => rfl) fun _ => rfl
      exact hshrunk.ruled hs

theorem Ruled.meets_updateSender (hs : Ruled cfg sent s) (dodagRef version neighbourRef : Nat)
    (becomeLeaf : Bool) :
    Meets (fun _ => True) (s.updateSender dio dodagRef version neighbourRef becomeLeaf)
      (Ruled cfg sent) := by
  unfold updateSender
  rw [meets_bind]
  refine (hs.meets_rpl_neighbour_update_dodag_version neighbourRef version).mono fun t ht => ?_
  rw [meets_bind]
  refine meets_neighbour (.inl trivial) fun _ _ => ?_
  have hshrunk : Shrunk cfg t (t.updateNeighbour neighbourRef fun n =>
      { n with dtsn := dio.dtsn }) := .updateNeighbour t fun _ => rfl
  have hu := hshrunk.ruled ht
  dsimp only
  rw [meets_bind]
  refine meets_dodag (.inl trivial) fun _ _ => ?_
  rw [meets_bind]
  refine (meets_true _).mono fun _ _ => ?_
  rw [meets_pure]
  split
  · set u := t.updateNeighbour neighbourRef fun n => { n with dtsn := dio.dtsn }
    have hleaf : Shrunk cfg u (u.updateDodag dodagRef fun d => { d with leaf := true }) :=
      .updateDodag u (fun e _ _ => ⟨rfl, rfl, rfl, fun h => h, fun h => h, .refl _⟩)
        (fun _ => rfl) (fun _ => rfl) fun _ => rfl
    exact hleaf.ruled hu
  · exact hu

theorem Ruled.meets_enterSender (hs : Ruled cfg sent s) (dodagRef version : Nat)
    (sender : Option Nat) (becomeLeaf : Bool) :
    Meets (fun _ => True) (s.enterSender env dio dodagRef version sender becomeLeaf)
      (Ruled cfg sent) := by
  unfold enterSender
  cases sender with
  | some n => exact hs.meets_updateSender dodagRef version n becomeLeaf
  | none =>
      dsimp only
      split
      · exact hs
      · exact (hs.rpl_create_neighbour _ _ _ _ _).meets_updateSender ..

/-! ## The version -/

theorem Ruled.meets_inVersion (hs : Ruled cfg sent s) (dodagRef version : Nat)
    (sender : Option Nat) (becomeLeaf : Bool) :
    Meets (fun _ => True) (s.inVersion env dio dodagRef version sender becomeLeaf)
      (Ruled cfg sent) := by
  unfold inVersion
  rw [meets_bind]
  refine (meets_true _).mono fun sub _ => ?_
  split
  · exact hs.meets_invalidParent sender
  · rw [meets_bind]
    refine meets_dodag (.inl trivial) fun d _ => ?_
    rw [meets_bind]
    exact (meets_true _).mono fun _ _ => hs.meets_enterSender dodagRef version sender becomeLeaf

theorem Ruled.meets_chooseVersion (hs : Ruled cfg sent s) {dodagRef : Nat}
    (hunsent : ∀ d, s.dodag dodagRef = .ok d → (∀ v ∈ d.versions, v.number ≠ dio.versionNumber) →
      Unsent sent d.id dio.versionNumber) (sender : Option Nat) (becomeLeaf : Bool) :
    Meets (fun _ => True) (s.chooseVersion env dio dodagRef sender becomeLeaf)
      (Ruled cfg sent) := by
  unfold chooseVersion
  rw [meets_bind]
  refine meets_dodag (.inl trivial) fun d hfound => ?_
  split
  · exact hs.meets_invalidParent sender
  case isFalse haccept =>
    simp only [Bool.not_eq_true', Bool.not_eq_false, Bool.and_eq_true] at haccept
    obtain ⟨-, rfl⟩ := dodag_spec hfound
    cases hfind : d.versions.find? (·.number = dio.versionNumber) with
    | some v => exact hs.meets_inVersion ..
    | none =>
        have hnew : ∀ v ∈ d.versions, v.number ≠ dio.versionNumber := fun v hv => by
          simpa using List.find?_eq_none.mp hfind v hv
        dsimp only
        split
        · exact hs.meets_invalidParent sender
        · rw [meets_bind]
          refine (hs.meets_rpl_create_dodag_version hfound haccept.1 hnew
            (hunsent d hfound hnew)).mono fun r hr => ?_
          exact hr.meets_inVersion ..

/-! ## The configuration -/

/-- The configuration is that of the node, and its objective function is MRHOF. -/
def Ordinary (cfg : Nat → Conf) (env : Surroundings) (dio : Dio) : Prop :=
  ∀ conf ∈ dio.conf, conf = cfg dio.dodagId ∧
    env.objective conf.objectiveCodePoint = some .mrhof

theorem Ruled.meets_rpl_dodag_update_config (hs : Ruled cfg sent s) {d : Dodag} {conf : Conf}
    (hd : s.dodag d.ref = .ok d) (hconf : conf = cfg d.id)
    (hobjective : env.objective conf.objectiveCodePoint = some .mrhof) (src : Option Nat) :
    Meets (fun _ => True) (s.rpl_dodag_update_config env d.ref conf src) fun r =>
      Ruled cfg sent r.1 ∧ ∀ e, r.1.dodag d.ref = .ok e → e.id = d.id ∧ e.versions = d.versions := by
  have hmem := (dodag_spec hd).1
  have hsame : ∀ e ∈ s.dodags, e.ref = d.ref → e = d := fun e he href =>
    List.inj_on_of_nodup_map hs.numbered.distinct he hmem href
  unfold rpl_dodag_update_config
  rw [hd, meets_bind, meets_ok]
  split
  · refine ⟨hs, fun e he => ?_⟩
    obtain ⟨he, href⟩ := dodag_spec he
    rw [hsame e he href]
    exact ⟨rfl, rfl⟩
  · rw [meets_bind]
    refine (meets_true _).mono fun _ _ => ?_
    dsimp only
    rw [hobjective]
    dsimp only
    set t := s.updateDodag d.ref fun d => { d with config := conf, haveConfig := true } with ht
    have hshrunk : Shrunk cfg s t := by
      refine .updateDodag s (fun e he href => ?_) (fun _ => rfl) (fun _ => rfl) fun _ => rfl
      rw [hsame e he href]
      exact ⟨rfl, rfl, rfl, fun _ _ => hconf, fun _ => rfl, .refl _⟩
    have hof : Shrunk cfg s { t with of := some .mrhof } :=
      ⟨hshrunk.dodags, hshrunk.refs, hshrunk.ids, hshrunk.versions, hshrunk.neighbours,
        hshrunk.fresh, .inr rfl, hshrunk.current, hshrunk.rank⟩
    refine ⟨hof.ruled hs, fun e he => ?_⟩
    obtain ⟨he, href⟩ := dodag_spec he
    obtain ⟨f, hf, ⟨hfref, rfl⟩ | ⟨hne, rfl⟩⟩ := mem_updateDodag he
    · rw [hsame f hf hfref]
      exact ⟨rfl, rfl⟩
    · exact absurd href hne

theorem Ruled.meets_readConf (hs : Ruled cfg sent s) {d : Dodag} (hd : s.dodag d.ref = .ok d)
    (hid : d.id = dio.dodagId) (hdio : Ordinary cfg env dio)
    (hunsent : (∀ v ∈ d.versions, v.number ≠ dio.versionNumber) →
      Unsent sent d.id dio.versionNumber) (sender : Option Nat) :
    Meets (fun _ => True) (s.readConf env dio d.ref sender) (Ruled cfg sent) := by
  unfold readConf
  split
  · exact hs.meets_invalidParent sender
  · cases hconf : dio.conf with
    | none =>
        refine hs.meets_chooseVersion (fun e he => ?_) sender false
        rw [hd] at he
        cases he
        exact hunsent
    | some conf =>
        obtain ⟨hcfg, hobjective⟩ := hdio conf hconf
        dsimp only
        rw [meets_bind]
        refine (hs.meets_rpl_dodag_update_config hd (hid ▸ hcfg) hobjective _).mono fun r hr => ?_
        obtain ⟨hruled, hsame⟩ := hr
        split
        · exact hruled.meets_invalidParent sender
        · refine hruled.meets_chooseVersion (fun e he => ?_) sender _
          obtain ⟨heid, hversions⟩ := hsame e he
          rw [heid, hversions]
          exact hunsent

/-! ## The handler -/

/-- The version of the DIO is alive, or no finite rank was sent for it. -/
def AliveOrUnsent (sent : List Sent) (dio : Dio) (s : Instance) : Prop :=
  (∃ d ∈ s.dodags, d.id = dio.dodagId ∧ ∃ v ∈ d.versions, v.number = dio.versionNumber) ∨
    Unsent sent dio.dodagId dio.versionNumber

theorem Ruled.meets_inDodag (hs : Ruled cfg sent s) {d : Dodag} (hd : s.dodag d.ref = .ok d)
    (hid : d.id = dio.dodagId) (hdio : Ordinary cfg env dio)
    (halive : AliveOrUnsent sent dio s) (sender : Option Nat) :
    Meets (fun _ => True) (s.inDodag env dio d.ref sender) (Ruled cfg sent) := by
  have hmem := (dodag_spec hd).1
  unfold inDodag
  rw [hd, meets_bind, meets_ok, (hs.notRoot d hmem).1, (hs.notRoot d hmem).2]
  refine hs.meets_readConf hd hid hdio (fun hnew => ?_) sender
  rcases halive with ⟨e, he, heid, v, hv, hnumber⟩ | hunsent
  · have hsame : e = d := List.inj_on_of_nodup_map hs.ids he hmem (heid.trans hid.symm)
    exact absurd hnumber (hnew v (hsame ▸ hv))
  · exact hid ▸ hunsent

/-- **A DIO breaks no rule**, if no version that was advertised is made again. -/
theorem Ruled.meets_rpl_control_dio_handler (hs : Ruled cfg sent s) (hdio : Ordinary cfg env dio)
    (halive : Heard env dio → AliveOrUnsent sent dio s) :
    Meets (fun _ => True) (s.rpl_control_dio_handler env dio) (Ruled cfg sent) := by
  unfold rpl_control_dio_handler
  split
  · exact hs
  case isFalse hwell =>
    dsimp only
    split
    · exact hs.meets_invalidParent _
    case isFalse hfinite =>
      split
      · exact hs.meets_invalidParent _
      case isFalse hjoin =>
        have halive := halive ⟨by simpa using hwell, hfinite, by simpa using hjoin⟩
        cases hlookup : s.rpl_lookup_dodag dio.dodagId with
        | some d =>
            have hmem : d ∈ s.dodags := List.mem_of_find?_eq_some hlookup
            exact hs.meets_inDodag (dodag_of_mem hs.numbered hmem)
              (by simpa using List.find?_some hlookup) hdio halive _
        | none =>
            have hnone : ∀ d ∈ s.dodags, d.id ≠ dio.dodagId := fun d hd => by
              simpa using List.find?_eq_none.mp hlookup d hd
            dsimp only
            split
            · exact hs.meets_invalidParent _
            · have ht := hs.rpl_create_dodag hnone dio.gMopPrf env.memory
              refine ht.meets_inDodag (dodag_of_mem ht.numbered List.mem_cons_self) rfl hdio ?_ _
              refine halive.imp_left ?_
              rintro ⟨d, hd, hid, hv⟩
              exact absurd hid (hnone d hd)

end Instance

end Rpl
