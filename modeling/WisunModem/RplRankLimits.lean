import WisunModem.RplRuledSelect
import WisunModem.RplConfigs
import Mathlib.Tactic.FinCases

/-!
# Rank limits within a DODAG version

A node with the DIOs it has sent.  Three things break the limits: the greediness limit
stays where it was when a lower rank brings the hard limit down, a unicast DIO does not
count for the lowest advertised rank, and a version that is made again has forgotten it.
Without them the limits hold over whole runs.
-/

namespace Rpl

open Faults Instance

/-- The later of two finite ranks advertised in a version is within the rise allowed. -/
def Bound (cfg : Nat → Conf) (x y : Sent) : Prop :=
  x.dodagId = y.dodagId → x.versionNumber = y.versionNumber → x.rank ≠ infinite →
    y.rank ≠ infinite →
    dagRank (cfg y.dodagId).minHopRankIncrease y.rank ≤
      dagRank (cfg y.dodagId).minHopRankIncrease x.rank +
        dagRank (cfg y.dodagId).minHopRankIncrease (cfg y.dodagId).dagMaxRankIncrease

namespace Instance

variable {cfg : Nat → Conf} {sent : List Sent} {s t : Instance}

/-- The DAGRank of the node is not below the lowest one it advertised. -/
def NotLower (s : Instance) : Prop :=
  ∀ d v, s.current = .ok (some (d, v)) → s.poisonCount = 0 → s.currentRank ≠ infinite →
    dagRank d.config.minHopRankIncrease v.lowestAdvertisedRank ≤
      dagRank d.config.minHopRankIncrease s.currentRank

/-! ## Transmission -/

theorem advertisedVersion_spec (s : Instance) :
    Meets (fun _ => True) s.advertisedVersion fun r => ∀ d v, r = some (d, v) →
      d ∈ s.dodags ∧ v ∈ d.versions ∧ (s.poisonCount = 0 → s.current = .ok (some (d, v)) ∧
        s.currentDodagVersion = some v.ref) := by
  unfold advertisedVersion
  rw [meets_bind]
  cases hcurrent : s.current with
  | error e => trivial
  | ok found =>
      rw [meets_ok]
      cases found with
      | some dv =>
          rintro d v ⟨⟩
          have hsome := hcurrent
          unfold current at hsome
          cases href : s.currentDodagVersion with
          | none =>
              rw [href] at hsome
              cases hsome
          | some ref =>
              rw [href] at hsome
              dsimp only at hsome
              cases hv : s.version ref with
              | error e =>
                  rw [hv] at hsome
                  cases hsome
              | ok dv =>
                  rw [hv] at hsome
                  cases hsome
                  obtain ⟨hd, hmem, hvref⟩ := version_spec hv
                  exact ⟨hd, hmem, fun _ => ⟨rfl, by rw [hvref]⟩⟩
      | none =>
          dsimp only
          split
          · rintro d v ⟨⟩
          case isFalse hpoison =>
            intro d v hhead
            obtain ⟨e, he, hw⟩ := Option.bind_eq_some_iff.mp hhead
            obtain ⟨w, hw, hpair⟩ := Option.map_eq_some_iff.mp hw
            cases hpair
            exact ⟨List.mem_of_mem_head? he, List.mem_of_mem_head? hw,
              fun hzero => absurd hzero hpoison⟩

/-- What a multicast DIO of this rank makes of the limits of its version. -/
structure Advertised (conf : Conf) (v : Version) (rank : UInt16) (w : Version) : Prop where
  hard : ∀ r, r ≠ infinite → (r ≤ w.hardRankLimit ↔
    dagRank conf.minHopRankIncrease r ≤ dagRank conf.minHopRankIncrease w.lowestAdvertisedRank +
      dagRank conf.minHopRankIncrease conf.dagMaxRankIncrease)
  lower : w.lowestAdvertisedRank ≤ v.lowestAdvertisedRank
  lowest : w.lowestAdvertisedRank ≤ rank
  within : rank ≠ infinite → rank ≤ w.hardRankLimit
  kept : rank = infinite → w.hardRankLimit = v.hardRankLimit

theorem limitGreediness_spec (minHop : UInt16) (v : Version) (rank : UInt16) :
    Meets (fun _ => True) (limitGreediness minHop v rank) fun w =>
      w.hardRankLimit = v.hardRankLimit ∧ w.lowestAdvertisedRank = v.lowestAdvertisedRank := by
  unfold limitGreediness
  split
  · rw [meets_bind]
    exact (meets_true _).mono fun _ _ => ⟨rfl, rfl⟩
  · exact ⟨rfl, rfl⟩

/-- **Advertising** moves the hard limit with the lowest rank. -/
theorem advertised_spec {conf : Conf} {v : Version} {rank : UInt16} {id : Nat}
    (hm : conf.minHopRankIncrease ≠ 0) (hi : conf.dagMaxRankIncrease ≠ 0)
    (hv : Limited conf sent id v) (hrank : rank ≠ infinite → rank ≤ v.hardRankLimit) :
    Meets (fun _ => True) (advertised conf v rank) (Advertised conf v rank) := by
  have hlower : Meets (fun _ => True) (lowerLimit conf { v with lastAdvertisedRank := rank } rank)
      (Advertised conf v rank) := by
    unfold lowerLimit
    split
    case isTrue hlt =>
      obtain ⟨limit, hlimit, hspec⟩ := hardLimit_spec hm rank
      rw [hlimit, meets_bind, meets_ok, meets_pure]
      refine ⟨hspec, UInt16.le_of_lt hlt.1, UInt16.le_refl _, fun hfinite =>
        (hspec rank hfinite).mpr (Nat.le_add_right _ _), fun hinf => ?_⟩
      rw [hinf] at hlt
      exact absurd (le_infinite _) (UInt16.not_le.mpr hlt.1)
    case isFalse hnot =>
      have hle : v.lowestAdvertisedRank ≤ rank :=
        UInt16.not_lt.mp fun hlt => hnot ⟨hlt, hi⟩
      exact ⟨hv.hard, UInt16.le_refl _, hle, hrank, fun _ => rfl⟩
  unfold advertised
  rw [meets_bind]
  refine hlower.mono fun w hw => ?_
  refine (limitGreediness_spec _ w rank).mono fun u hu => ?_
  obtain ⟨hhard, hlow⟩ := hu
  exact ⟨hhard ▸ hlow ▸ hw.hard, hlow ▸ hw.lower, hlow ▸ hw.lowest, hhard ▸ hw.within,
    hhard ▸ hw.kept⟩

/-- One more DIO that is not below the lowest rank of its version. -/
theorem Ruled.send (hs : Ruled cfg sent s) {x : Sent}
    (hx : ∀ d ∈ s.dodags, ∀ v ∈ d.versions, x.dodagId = d.id → x.versionNumber = v.number →
      x.rank ≠ infinite → dagRank (cfg d.id).minHopRankIncrease v.lowestAdvertisedRank ≤
        dagRank (cfg d.id).minHopRankIncrease x.rank) : Ruled cfg (sent ++ [x]) s := by
  refine { hs with limited := fun d hd v hv => ⟨(hs.limited d hd v hv).hard, ?_⟩ }
  intro y hy hid hnumber hfinite
  rcases List.mem_append.mp hy with hy | hy
  · exact (hs.limited d hd v hv).lowest y hy hid hnumber hfinite
  · obtain rfl := List.mem_singleton.mp hy
    exact hx d hd v hv hid hnumber hfinite

/-- A version has one identifier and number. -/
theorem Ruled.version_eq (hs : Ruled cfg sent s) {d e : Dodag} {v w : Version} (hd : d ∈ s.dodags)
    (he : e ∈ s.dodags) (hv : v ∈ d.versions) (hw : w ∈ e.versions) (hid : d.id = e.id)
    (hnumber : v.number = w.number) : d = e ∧ v = w := by
  have hsame : d = e := List.inj_on_of_nodup_map hs.ids hd he hid
  subst hsame
  exact ⟨rfl, List.inj_on_of_nodup_map (hs.numbers d hd) hv hw hnumber⟩

/-- The record of a version with new limits. -/
theorem Ruled.multicast {x : Sent} {d : Dodag} {v w : Version} (hs : Ruled cfg sent s)
    (hd : d ∈ s.dodags) (hv : v ∈ d.versions) (hid : x.dodagId = d.id)
    (hnumber : x.versionNumber = v.number) (hw : Advertised (cfg d.id) v x.rank w)
    (hrank : x.rank = infinite ∨ x.rank = s.currentRank) :
    Ruled cfg (sent ++ [x]) (s.updateVersion v.ref fun u => withRanks u w) := by
  have hkept : Kept s (s.updateVersion v.ref fun u => withRanks u w) :=
    .updateVersion fun _ _ _ => rfl
  have hmem : ∀ e ∈ (s.updateVersion v.ref fun u => withRanks u w).dodags, ∃ f ∈ s.dodags,
      e = changed v.ref (fun u => withRanks u w) f := by
    intro e he
    obtain ⟨f, hf, rfl⟩ := List.mem_map.mp he
    exact ⟨f, hf, rfl⟩
  have hversion : ∀ f ∈ s.dodags, ∀ u ∈ (changed v.ref (fun u => withRanks u w) f).versions,
      (f = d ∧ u = withRanks v w) ∨ (u ∈ f.versions ∧ u.ref ≠ v.ref) := by
    intro f hf u hu
    obtain ⟨z, hz, rfl⟩ := List.mem_map.mp hu
    split
    case isTrue href =>
      obtain ⟨rfl, rfl⟩ := version_unique hs.versions hf hd hz hv href
      exact .inl ⟨rfl, rfl⟩
    case isFalse href => exact .inr ⟨hz, href⟩
  constructor
  case numbered => exact hkept.numbered hs.numbered
  case ids =>
    have hids : (s.updateVersion v.ref fun u => withRanks u w).dodags.map (·.id) =
        s.dodags.map (·.id) := List.map_map
    exact hids ▸ hs.ids
  case versions => exact hkept.versionRefs ▸ hs.versions
  case versionsBelow =>
    rw [hkept.versionRefs]
    exact hs.versionsBelow
  case neighbours => exact hs.neighbours
  case neighboursBelow => exact hs.neighboursBelow
  case config =>
    intro e he
    obtain ⟨f, hf, rfl⟩ := hmem e he
    exact hs.config f hf
  case haveConfig =>
    intro e he hne
    obtain ⟨f, hf, rfl⟩ := hmem e he
    refine hs.haveConfig f hf fun hnil => hne ?_
    unfold changed
    dsimp only
    rw [hnil]
    rfl
  case notRoot =>
    intro e he
    obtain ⟨f, hf, rfl⟩ := hmem e he
    exact hs.notRoot f hf
  case of => exact hs.of
  case numbers =>
    intro e he
    obtain ⟨f, hf, rfl⟩ := hmem e he
    have hnumbers : (changed v.ref (fun u => withRanks u w) f).versions.map (·.number) =
        f.versions.map (·.number) := by
      unfold changed
      rw [List.map_map]
      refine List.map_congr_left fun u _ => ?_
      rw [Function.comp_apply]
      split <;> rfl
    exact hnumbers ▸ hs.numbers f hf
  case limited =>
    intro e he u hu
    obtain ⟨f, hf, rfl⟩ := hmem e he
    rcases hversion f hf u hu with ⟨rfl, rfl⟩ | ⟨hold, hne⟩
    · refine ⟨hw.hard, fun y hy hyid hynumber hfinite => ?_⟩
      rcases List.mem_append.mp hy with hy | hy
      · exact (dagRank_mono hw.lower).trans
          ((hs.limited f hf v hv).lowest y hy hyid hynumber hfinite)
      · obtain rfl := List.mem_singleton.mp hy
        exact dagRank_mono hw.lowest
    · refine ⟨(hs.limited f hf u hold).hard, fun y hy hyid hynumber hfinite => ?_⟩
      rcases List.mem_append.mp hy with hy | hy
      · exact (hs.limited f hf u hold).lowest y hy hyid hynumber hfinite
      · obtain rfl := List.mem_singleton.mp hy
        obtain ⟨-, rfl⟩ := hs.version_eq hd hf hv hold (hid.symm.trans hyid)
          (hnumber.symm.trans hynumber)
        exact absurd rfl hne
  case rank =>
    intro e he u hu hcurrent hfinite
    obtain ⟨f, hf, rfl⟩ := hmem e he
    rcases hversion f hf u hu with ⟨rfl, rfl⟩ | ⟨hold, hne⟩
    · change s.currentRank ≤ w.hardRankLimit
      rcases hrank with hinf | hsame
      · rw [hw.kept hinf]
        exact hs.rank f hf v hv hcurrent hfinite
      · exact hsame ▸ hw.within (hsame ▸ hfinite)
    · exact hs.rank f hf u hold hcurrent hfinite

/-- **A DIO is within the rise allowed.** -/
theorem Ruled.bound (hs : Ruled cfg sent s) {y : Sent} {d : Dodag} {v : Version}
    (hd : d ∈ s.dodags) (hv : v ∈ d.versions) (hid : y.dodagId = d.id)
    (hnumber : y.versionNumber = v.number) (hrank : y.rank ≠ infinite → y.rank ≤ v.hardRankLimit) :
    ∀ x ∈ sent, Bound cfg x y := by
  intro x hx hsame hversion hxfinite hyfinite
  have hlimited := hs.limited d hd v hv
  have hlow := hlimited.lowest x hx (hsame.trans hid) (hversion.trans hnumber) hxfinite
  rw [hid]
  exact ((hlimited.hard y.rank hyfinite).mp (hrank hyfinite)).trans (Nat.add_le_add_right hlow _)

/-- **A transmission breaks no rule.** -/
theorem Ruled.meets_rpl_instance_dio_trigger (hs : Ruled cfg sent s)
    (hm : ∀ id, (cfg id).minHopRankIncrease ≠ 0) (hi : ∀ id, (cfg id).dagMaxRankIncrease ≠ 0)
    {unicast parentSelected : Bool} (hlower : unicast → parentSelected → NotLower s) :
    Meets (fun _ => True) (s.rpl_instance_dio_trigger unicast parentSelected) fun r =>
      Ruled cfg (sent ++ r.2.toList) r.1 ∧ ∀ y ∈ r.2, ∀ x ∈ sent, Bound cfg x y := by
  unfold rpl_instance_dio_trigger
  rw [meets_bind]
  refine (advertisedVersion_spec s).mono fun found hfound => ?_
  cases found with
  | none =>
      refine ⟨?_, by rintro y ⟨⟩⟩
      change Ruled cfg (sent ++ []) s
      rwa [List.append_nil]
  | some dv =>
      obtain ⟨d, v⟩ := dv
      obtain ⟨hd, hv, hcurrent⟩ := hfound d v rfl
      dsimp only
      set rank := if s.poisonCount = 0 then s.currentRank else infinite with hrankdef
      set u : Instance := { s with poisonCount := s.poisonCount - 1 } with hudef
      have hu : Ruled cfg sent u := by
        have hshrunk : Shrunk cfg s u := ⟨fun e he => ⟨e, he, .rfl⟩, .refl _, .refl _, .refl _,
          .refl _, rfl, .inl rfl, .inl rfl, .inl rfl⟩
        exact hshrunk.ruled hs
      have hpoison : rank ≠ infinite → s.poisonCount = 0 := by
        intro hfinite
        by_contra hne
        rw [hrankdef, if_neg hne] at hfinite
        exact hfinite rfl
      have hsame : rank = infinite ∨ rank = s.currentRank := by
        rw [hrankdef]
        split
        · exact .inr rfl
        · exact .inl rfl
      have hhard : rank ≠ infinite → rank ≤ v.hardRankLimit := by
        intro hfinite
        have hrank := hsame.resolve_left hfinite
        rw [hrank]
        exact hs.rank d hd v hv (hcurrent (hpoison hfinite)).2 (hrank ▸ hfinite)
      cases unicast with
      | true =>
          rw [if_pos rfl, meets_pure]
          refine ⟨hu.send ?_, ?_⟩
          · intro e he w hw hid hnumber hfinite
            obtain ⟨rfl, rfl⟩ := hs.version_eq hd he hv hw hid hnumber
            dsimp only at hfinite ⊢
            cases parentSelected with
            | false => exact absurd rfl hfinite
            | true =>
                have hrank := hsame.resolve_left hfinite
                have hzero := hpoison hfinite
                have hle := hlower rfl rfl d v (hcurrent hzero).1 hzero (hrank ▸ hfinite)
                rw [hs.config_of_version hd hv] at hle
                rw [if_pos rfl, hrank]
                exact hle
          · rintro y ⟨⟩
            refine hs.bound hd hv rfl rfl fun hfinite => ?_
            dsimp only at hfinite ⊢
            cases parentSelected with
            | false => exact absurd rfl hfinite
            | true => exact hhard hfinite
      | false =>
          rw [if_neg (by decide), hs.config_of_version hd hv, meets_bind]
          refine (advertised_spec (hm d.id) (hi d.id) (hs.limited d hd v hv) hhard).mono
            fun w hw => ?_
          refine ⟨hu.multicast (x := ⟨d.id, v.number, rank⟩) hd hv rfl rfl hw hsame, ?_⟩
          rintro y ⟨⟩
          exact hs.bound hd hv rfl rfl hhard

end Instance

/-! ## Nodes and their runs -/

namespace Event

/-- What happens to a node that is no root and has these configurations. -/
def OfNode (cfg : Nat → Conf) : Event → Prop
  | .dio env message => Ordinary cfg env message
  | .createRoot .. => False
  | .deleteRoot _ => False
  | .incrementVersion _ => False
  | .updateConfig .. => False
  | _ => True

end Event

/-- A node with the DIOs it has sent, the oldest first. -/
structure Node where
  inst : Instance
  sent : List Sent
deriving DecidableEq, Repr

namespace Node

def step (n : Node) : Event → Except Fault Node
  | .transmit unicast parentSelected => do
      let (t, x) ← n.inst.rpl_instance_dio_trigger unicast parentSelected
      pure ⟨t, n.sent ++ x.toList⟩
  | event => (fun t => ⟨t, n.sent⟩) <$> n.inst.step event

/-- The condition of an event: a version that was advertised is not made again, no
candidate slips through between the limits, and a unicast is not below the lowest rank. -/
def InLimits (n : Node) : Event → Prop
  | .dio env message => Heard env message → AliveOrUnsent n.sent message n.inst
  | .select policy link _ _ => AllCapped policy (etxRead link) n.inst
  | .transmit unicast parentSelected => unicast → parentSelected → NotLower n.inst
  | _ => True

/-- A node that was just made. -/
def start (forceLeaf : Bool) : Node := ⟨rpl_create_instance forceLeaf, []⟩

/-- What holds in every state of a run. -/
structure Good (cfg : Nat → Conf) (n : Node) : Prop where
  ruled : Ruled cfg n.sent n.inst
  bound : n.sent.Pairwise (Bound cfg)

section

variable {cfg : Nat → Conf} {n : Node}

theorem Good.meets_select {policy : Policy} {link : Nat → Nat → UInt16}
    {aged : Neighbour → Bool} {poison : Nat} (h : n.Good cfg)
    (hm : ∀ id, (cfg id).minHopRankIncrease ≠ 0) (hcapped : AllCapped policy (etxRead link) n.inst) :
    Meets (fun _ => True)
      (n.inst.rpl_instance_run_parent_selection policy (etxRead link) aged poison) fun r =>
        Ruled cfg n.sent r.1 ∧ r.2 = false ∧ RankOk (etxRead link) r.1 := by
  unfold rpl_instance_run_parent_selection
  rcases h.ruled.of with hof | ⟨hof, hnone⟩
  · have hselect := @Ruled.meets_selectParents _ _ _ _ _ aged poison h.ruled hm hof hcapped
    rw [hof]
    dsimp only
    rw [meets_bind]
    refine (Mrhof.sound_of_all n.inst).meets_current (fun _ => hselect) fun ref d v _ hv => ?_
    dsimp only
    rw [(h.ruled.notRoot d (version_spec hv).1).1, (h.ruled.notRoot d (version_spec hv).1).2]
    exact hselect
  · rw [hof]
    exact ⟨h.ruled, rfl, (Rated.of_none hnone).rankOk⟩

/-- Nothing is sent and nothing is new. -/
theorem Good.meets_shrunk {x : Except Fault Instance} (h : n.Good cfg)
    (hx : Meets (fun _ => True) x (Shrunk cfg n.inst)) :
    Meets (fun _ => True) ((fun t => (⟨t, n.sent⟩ : Node)) <$> x) (Good cfg) := by
  rw [meets_map]
  exact hx.mono fun t ht => ⟨ht.ruled h.ruled, h.bound⟩

theorem shrunk_refl (s : Instance) : Shrunk cfg s s :=
  ⟨fun e he => ⟨e, he, .rfl⟩, .refl _, .refl _, .refl _, .refl _, rfl, .inl rfl, .inl rfl, .inl rfl⟩

theorem meets_onDodag_shrunk {s : Instance} {ref : Nat} {f : Dodag → Except Fault Instance}
    (hf : ∀ d, Meets (fun _ => True) (f d) (Shrunk cfg s)) :
    Meets (fun _ => True) (s.onDodag ref f) (Shrunk cfg s) := by
  unfold onDodag
  split
  · exact shrunk_refl s
  case h_2 d _ => exact hf d

theorem meets_daoUpdate_shrunk {s : Instance} {busy exhausted : Bool} {targets : List DaoTarget} :
    Meets (fun _ => True) (s.rpl_instance_send_dao_update busy exhausted targets) fun r =>
      Shrunk cfg s r.1 := by
  unfold rpl_instance_send_dao_update
  rw [meets_bind]
  refine (meets_true _).mono fun found _ => ?_
  cases found with
  | none => exact shrunk_refl s
  | some dv =>
      dsimp only
      split
      · exact shrunk_refl s
      · split
        · cases s.candidateNeighbours.head? with
          | none => exact shrunk_refl s
          | some k =>
              dsimp only
              rw [meets_bind]
              refine (meets_delete (.inl trivial)).mono fun t ht => ?_
              subst ht
              have htrim : Trimmed s { s with
                  candidateNeighbours := s.candidateNeighbours.filter (·.ref ≠ k.ref) } :=
                ⟨rfl, rfl, rfl, rfl, rfl, List.filter_sublist⟩
              exact htrim.shrunk
        · rw [meets_bind]
          exact (meets_true _).mono fun _ _ => shrunk_refl s

/-- **Step lemma.**  An event within the limits leaves a node within its limits. -/
theorem meets_step (hm : ∀ id, (cfg id).minHopRankIncrease ≠ 0)
    (hi : ∀ id, (cfg id).dagMaxRankIncrease ≠ 0) {event : Event} (h : n.Good cfg)
    (hnode : event.OfNode cfg) (hlimits : n.InLimits event) :
    Meets (fun _ => True) (n.step event) (Good cfg) := by
  cases event with
  | dio env message =>
      refine meets_map.mpr ?_
      exact (h.ruled.meets_rpl_control_dio_handler hnode hlimits).mono fun t ht => ⟨ht, h.bound⟩
  | select policy link aged poison =>
      refine meets_map.mpr (meets_map.mpr ?_)
      exact (h.meets_select hm hlimits).mono fun r hr => ⟨hr.1, h.bound⟩
  | transmit unicast parentSelected =>
      refine meets_bind.mpr ?_
      refine (h.ruled.meets_rpl_instance_dio_trigger hm hi hlimits).mono fun r hr => ?_
      obtain ⟨t, x⟩ := r
      refine ⟨hr.1, ?_⟩
      cases x with
      | none =>
          change (n.sent ++ []).Pairwise _
          rw [List.append_nil]
          exact h.bound
      | some y =>
          refine List.pairwise_append.mpr ⟨h.bound, List.pairwise_singleton _ _, ?_⟩
          intro x hx z hz
          obtain rfl := List.mem_singleton.mp hz
          exact hr.2 z rfl x hx
  | forward packet =>
      refine h.meets_shrunk (meets_map.mpr ?_)
      exact (meets_true _).mono fun _ _ => shrunk_refl n.inst
  | daoUpdate busy exhausted targets =>
      exact h.meets_shrunk (meets_map.mpr meets_daoUpdate_shrunk)
  | deleteNeighbours gone =>
      refine h.meets_shrunk ?_
      exact (meets_deleteWhere (Mrhof.sound_of_all n.inst) fun _ _ _ _ =>
        meets_pure.mpr trivial).mono fun t ht => ht.shrunk
  | purgeDodag ref =>
      refine h.meets_shrunk (meets_onDodag_shrunk fun d => ?_)
      unfold purgeDodag
      rw [meets_bind]
      refine (meets_true _).mono fun inUse _ => ?_
      split
      · exact shrunk_refl n.inst
      · exact Shrunk.rpl_delete_dodag n.inst d
  | poison count =>
      refine h.meets_shrunk (x := pure _) ?_
      exact ⟨fun e he => ⟨e, he, .rfl⟩, .refl _, .refl _, .refl _, .refl _, rfl, .inl rfl, .inl rfl,
        .inl rfl⟩
  | forceLeaf leaf =>
      refine h.meets_shrunk (x := pure _) ?_
      refine ⟨fun e he => ⟨e, he, .rfl⟩, .refl _, .refl _, .refl _, .refl _, rfl, .inl rfl, .inl rfl,
        ?_⟩
      cases leaf with
      | false => exact .inl rfl
      | true => exact .inr rfl
  | createRoot env id conf rank gMopPrf => exact hnode.elim
  | deleteRoot ref => exact hnode.elim
  | incrementVersion ref => exact hnode.elim
  | updateConfig env ref conf => exact hnode.elim

end

/-! ## A run that goes wrong -/

/-- A DIO of this rank from this neighbour. -/
def dioOf (llAddress : Nat) (rank : UInt16) : Event :=
  .dio DioRecords.env { DioRecords.dio llAddress 50 with rank := rank }

/-- A parent selection with links of ETX 1. -/
def select : Event := .select RplConfigs.policy (fun _ _ => 256) (fun _ => false) 0

/-- The node joins with rank 600, finds a better parent, and then needs the first one as a
backup. -/
def backAgain : List Event :=
  [dioOf 1 472, select, .transmit false true, dioOf 2 172, select, .transmit false true,
    dioOf 2 372, select, .transmit false true]

/-- The node advertises 600, then 300, then 512, a DAGRank of 4 behind one of 2 where 1 is
allowed. -/
theorem backAgain_advertises :
    (fun n => n.sent) <$> backAgain.foldlM step (start false) =
        .ok [⟨7, 50, 600⟩, ⟨7, 50, 300⟩, ⟨7, 50, 512⟩] ∧
      (∀ event ∈ backAgain, event.OfNode fun _ => DioRecords.conf) ∧
      ¬Bound (fun _ => DioRecords.conf) ⟨7, 50, 300⟩ ⟨7, 50, 512⟩ := by
  refine ⟨rfl, ?_, fun h => absurd (h rfl rfl (by decide) (by decide)) (by decide)⟩
  intro event hevent
  fin_cases hevent
  all_goals first
    | trivial
    | (rintro conf ⟨⟩; exact ⟨rfl, rfl⟩)

/-! ## All runs -/

/-- **Rank limits.**  In every run whose events meet the condition, each DIO is within the
rise allowed behind each earlier one, and so is every selection behind the run: it takes
no excess, and a finite rank has a DAGRank above the parents and is no less than the path
cost. -/
theorem rank_limits (cfg : Nat → Conf) (hm : ∀ id, (cfg id).minHopRankIncrease ≠ 0)
    (hi : ∀ id, (cfg id).dagMaxRankIncrease ≠ 0) (forceLeaf : Bool) (events : List Event)
    (h : Along step (fun n event => event.OfNode cfg ∧ n.InLimits event) (start forceLeaf) events) :
    Meets (fun _ => True) (events.foldlM step (start forceLeaf)) fun n =>
      n.sent.Pairwise (Bound cfg) ∧ ∀ policy link aged poison,
        n.InLimits (.select policy link aged poison) →
          Meets (fun _ => True)
            (n.inst.rpl_instance_run_parent_selection policy (etxRead link) aged poison) fun r =>
              r.2 = false ∧ RankOk (etxRead link) r.1 := by
  have hstart : (start forceLeaf).Good cfg :=
    ⟨rpl_create_instance_ruled cfg forceLeaf, List.Pairwise.nil⟩
  refine (meets_run (fun n event hn hc => meets_step hm hi hn hc.1 hc.2) hstart h).mono
    fun n hn => ⟨hn.bound, fun policy link aged poison hcapped => ?_⟩
  exact (hn.meets_select hm hcapped).mono fun r hr => hr.2

/-- A node that joins and advertises its rank. -/
def joins : List Event := [dioOf 1 472, select, .transmit false true]

/-- Behind the DIO. -/
def heard : Node := ((start false).step (dioOf 1 472)).toOption.getD (start false)

theorem rank_limits_joins :
    Meets (fun _ => True) (joins.foldlM step (start false)) fun n =>
      n.sent.Pairwise (Bound fun _ => DioRecords.conf) ∧ ∀ policy link aged poison,
        n.InLimits (.select policy link aged poison) →
          Meets (fun _ => True)
            (n.inst.rpl_instance_run_parent_selection policy (etxRead link) aged poison) fun r =>
              r.2 = false ∧ RankOk (etxRead link) r.1 := by
  refine rank_limits (fun _ => DioRecords.conf) (fun _ => by decide) (fun _ => by decide) false
    joins ⟨⟨?_, fun _ => .inr ?_⟩, fun t ht => ⟨⟨trivial, ?_⟩, fun _ _ => ⟨⟨trivial, ?_⟩,
      fun _ _ => trivial⟩⟩⟩
  · rintro conf ⟨⟩
    exact ⟨rfl, rfl⟩
  · rintro x ⟨⟩
  · have hheard : t = heard := (Except.ok.inj ht).symm
    subst hheard
    intro d hd v hv n hn _ _ rank _ _ _
    obtain rfl := List.mem_singleton.mp hd
    obtain rfl := List.mem_singleton.mp hv
    exact le_infinite rank
  · rintro ⟨⟩

end Node

end Rpl
