import WisunModem.RplSelectionRun
import Mathlib.Data.List.TakeWhile

/-!
# Tidy records and good configurations

`Records` is what makes every pointer of an instance safe to follow: numbers are handed out
once, neighbours and the current version lie in DODAGs, and in each DODAG the newest
version comes first with all others less than it.  `Configured` is what makes every
division of an instance safe.
-/

namespace Rpl

open Faults

/-- A configuration that policy accepts and whose lifetime unit is not zero. -/
def Conf.Good (conf : Conf) : Prop := rpl_policy_join_config conf ∧ conf.lifetimeUnit ≠ 0

instance (conf : Conf) : Decidable conf.Good :=
  inferInstanceAs (Decidable (rpl_policy_join_config conf ∧ conf.lifetimeUnit ≠ 0))

theorem Conf.Good.minHop_ne_zero {conf : Conf} (h : conf.Good) : conf.minHopRankIncrease ≠ 0 := by
  have haccepted := h.1
  unfold rpl_policy_join_config at haccepted
  simp only [Bool.and_eq_true, decide_eq_true_eq] at haccepted
  exact haccepted.1

/-- No version stands in front of one that it is less than. -/
def Descending (vs : List Version) : Prop :=
  (vs.map (·.number)).Pairwise fun a b => rpl_seq_compare a b ≠ .less

/-- The DODAG has a version or its configuration allows one. -/
def Dodag.InUse (d : Dodag) : Prop := d.versions ≠ [] ∨ rpl_policy_join_config d.config

/-- The newest version first, all others less than it, and no number twice; if strict, the
others descend as well. -/
def Ordered (strict : Bool) : List Version → Prop
  | [] => True
  | newest :: older =>
      (∀ v ∈ older, rpl_seq_compare v.number newest.number = .less) ∧
        (older.map (·.number)).Nodup ∧ (strict → Descending (newest :: older))

/-- A number is less than no version behind the first one that it is not less than. -/
def InPlace (number : UInt8) (vs : List Version) : Prop :=
  ∀ v ∈ vs.dropWhile fun v => rpl_seq_compare number v.number = .less,
    rpl_seq_compare number v.number ≠ .less

section

variable {strict : Bool}

/-! ## Inserting a version -/

theorem rpl_seq_compare_self (a : UInt8) : rpl_seq_compare a a = .equal :=
  rpl_seq_compare_eq_equal.mpr rfl

theorem compareCircular_asymm {a b : Nat} (h : compareCircular a b = .less) :
    compareCircular b a ≠ .less := by
  unfold compareCircular sequenceWindow at *
  dsimp only at *
  split at h
  · cases h
  · split at h
    · rw [if_pos (by omega)]
      decide
    · cases h

theorem compareLinear_asymm {a b : Nat} (hne : a ≠ b) (h : compareLinear a b = .less) :
    compareLinear b a ≠ .less := by
  unfold compareLinear sequenceWindow at *
  split at h
  · cases h
  · split at h
    · cases h
    · rw [if_neg (by omega), if_pos (by omega)]
      decide

/-- What is less is not greater. -/
theorem rpl_seq_compare_asymm {a b : UInt8} (h : rpl_seq_compare a b = .less) :
    rpl_seq_compare b a ≠ .less := by
  have hne : a ≠ b := by
    rintro rfl
    rw [rpl_seq_compare_self] at h
    cases h
  have hnat : a.toNat ≠ b.toNat := fun heq => hne (UInt8.toNat_inj.mp heq)
  unfold rpl_seq_compare at *
  rw [if_neg hne] at h
  rw [if_neg hne.symm]
  by_cases ha : a < 128
  · have ha' : ¬128 ≤ a := UInt8.not_le.mpr ha
    by_cases hb : b < 128
    · have hb' : ¬128 ≤ b := UInt8.not_le.mpr hb
      simp only [ha, ha', hb, hb', false_and, if_false, if_true] at h ⊢
      exact compareCircular_asymm h
    · have hb' : 128 ≤ b := UInt8.not_lt.mp hb
      simp only [ha, ha', hb, hb', false_and, and_true, if_false, if_true] at h ⊢
      split at h
      · cases h
      case isFalse hfar => rw [if_neg hfar]; decide
  · have ha' : 128 ≤ a := UInt8.not_lt.mp ha
    by_cases hb : b < 128
    · have hb' : ¬128 ≤ b := UInt8.not_le.mpr hb
      simp only [ha, ha', hb, hb', and_true, false_and, if_false, if_true] at h ⊢
      split at h
      case isTrue hnear => rw [if_pos hnear]; decide
      · cases h
    · have hb' : 128 ≤ b := UInt8.not_lt.mp hb
      simp only [ha, ha', hb, hb', and_false, if_false] at h ⊢
      exact compareLinear_asymm hnat h

/-- In an ordered list no number is there twice. -/
theorem Ordered.nodup {vs : List Version} (h : Ordered strict vs) : (vs.map (·.number)).Nodup := by
  cases vs with
  | nil => exact List.nodup_nil
  | cons v vs =>
      refine List.nodup_cons.mpr ⟨fun hmem => ?_, h.2.1⟩
      obtain ⟨w, hw, heq⟩ := List.mem_map.mp hmem
      have hless := h.1 w hw
      rw [heq, rpl_seq_compare_self] at hless
      cases hless

theorem insertVersion_perm (v : Version) (vs : List Version) :
    (insertVersion v vs).Perm (v :: vs) := by
  induction vs with
  | nil => exact .refl _
  | cons w ws ih =>
      unfold insertVersion
      split
      · exact .refl _
      · exact (ih.cons w).trans (.swap v w ws)

/-- The first version of the list with `v`: `v` itself unless it is less than the newest. -/
theorem insertVersion_cons (v w : Version) (ws : List Version) :
    insertVersion v (w :: ws) =
      if rpl_seq_compare v.number w.number = .greater ∨
          rpl_seq_compare v.number w.number = .unordered
      then v :: w :: ws else w :: insertVersion v ws := rfl

/-- What is left when a version is made. -/
def keptVersions (vs : List Version) : List Version :=
  match vs with
  | [] => []
  | newest :: older =>
      newest :: older.takeWhile fun v => rpl_seq_compare v.number newest.number = .less

theorem kept_append_stale (vs : List Version) : keptVersions vs ++ staleVersions vs = vs := by
  cases vs with
  | nil => rfl
  | cons v vs => exact congrArg (v :: ·) List.takeWhile_append_dropWhile

/-- **What is left is ordered.** -/
theorem keptVersions_ordered {vs : List Version} (h : (vs.map (·.number)).Nodup)
    (hdescending : strict → Descending vs) : Ordered strict (keptVersions vs) := by
  cases vs with
  | nil => trivial
  | cons v vs =>
      refine ⟨fun w hw => ?_, (List.nodup_cons.mp h).2.sublist
        ((List.takeWhile_sublist _).map _), fun hstrict => (hdescending hstrict).sublist
        (((List.takeWhile_sublist _).cons_cons v).map _)⟩
      simpa using List.mem_takeWhile_imp hw

/-- A version that is put in its place leaves the list descending. -/
theorem insertVersion_descending {v : Version} {vs : List Version} (h : Descending vs)
    (hplace : InPlace v.number vs) (hnew : ∀ w ∈ vs, w.number ≠ v.number) :
    Descending (insertVersion v vs) := by
  induction vs with
  | nil => exact List.pairwise_singleton _ _
  | cons w ws ih =>
      obtain ⟨hfirst, hrest⟩ := List.pairwise_cons.mp h
      by_cases hless : rpl_seq_compare v.number w.number = .less
      · have hplace' : InPlace v.number ws := by
          unfold InPlace at hplace ⊢
          rwa [List.dropWhile_cons_of_pos (by simpa using hless)] at hplace
        rw [insertVersion_cons, if_neg (by simp [hless])]
        refine List.pairwise_cons.mpr ⟨fun number hnumber => ?_,
          ih hrest hplace' fun u hu => hnew u (List.mem_cons_of_mem w hu)⟩
        obtain ⟨u, hu, rfl⟩ := List.mem_map.mp hnumber
        rcases List.mem_cons.mp ((insertVersion_perm v ws).mem_iff.mp hu) with rfl | hu
        · exact rpl_seq_compare_asymm hless
        · exact hfirst _ (List.mem_map_of_mem hu)
      · have hbefore : rpl_seq_compare v.number w.number = .greater ∨
            rpl_seq_compare v.number w.number = .unordered := by
          cases hcmp : rpl_seq_compare v.number w.number with
          | less => exact absurd hcmp hless
          | equal => exact absurd (rpl_seq_compare_eq_equal.mp hcmp).symm (hnew w List.mem_cons_self)
          | greater => exact .inl rfl
          | unordered => exact .inr rfl
        rw [insertVersion_cons, if_pos hbefore]
        refine List.pairwise_cons.mpr ⟨fun number hnumber => ?_, h⟩
        obtain ⟨u, hu, rfl⟩ := List.mem_map.mp hnumber
        unfold InPlace at hplace
        rw [List.dropWhile_cons_of_neg (by simpa using hless)] at hplace
        exact hplace u hu

/-- The new version is among what is left. -/
theorem mem_keptVersions_insertVersion {v : Version} {vs : List Version} (h : Ordered strict vs)
    (hnew : ∀ w ∈ vs, w.number ≠ v.number) : v ∈ keptVersions (insertVersion v vs) := by
  cases vs with
  | nil => exact List.mem_singleton_self v
  | cons w ws =>
      rw [insertVersion_cons]
      split
      · exact List.mem_cons_self
      case isFalse hnot =>
        have hless : rpl_seq_compare v.number w.number = .less := by
          cases hcmp : rpl_seq_compare v.number w.number with
          | less => rfl
          | equal => exact absurd (rpl_seq_compare_eq_equal.mp hcmp).symm (hnew w List.mem_cons_self)
          | greater => exact absurd (.inl hcmp) hnot
          | unordered => exact absurd (.inr hcmp) hnot
        have hall : ∀ u ∈ insertVersion v ws, rpl_seq_compare u.number w.number = .less := by
          intro u hu
          rcases List.mem_cons.mp ((insertVersion_perm v ws).mem_iff.mp hu) with rfl | hu
          · exact hless
          · exact h.1 u hu
        unfold keptVersions
        dsimp only
        rw [List.takeWhile_eq_self_iff.mpr (by simpa using hall)]
        exact List.mem_cons_of_mem w
          ((insertVersion_perm v ws).mem_iff.mpr List.mem_cons_self)

/-- The number of the newest version moves on. -/
theorem Ordered.advance {v : Version} {older : List Version} {number : UInt8}
    (h : Ordered strict (v :: older))
    (hless : ∀ w ∈ older, rpl_seq_compare w.number number = .less) :
    Ordered strict ({ v with number := number } :: older) := by
  refine ⟨hless, h.2.1, fun hstrict => ?_⟩
  refine List.pairwise_cons.mpr ⟨fun number' hnumber => ?_,
    (List.pairwise_cons.mp (h.2.2 hstrict)).2⟩
  obtain ⟨w, hw, rfl⟩ := List.mem_map.mp hnumber
  exact rpl_seq_compare_asymm (hless w hw)

end

namespace Instance

variable {strict : Bool} {allowed : Fault → Prop} {s t : Instance}

/-! ## Tidy records -/

/-- The numbers of DODAGs are handed out once. -/
structure Numbered (s : Instance) : Prop where
  below : ∀ d ∈ s.dodags, d.ref < s.fresh
  distinct : (s.dodags.map (·.ref)).Nodup

/-- Numbers are handed out once and lead to records. -/
structure Alive (s : Instance) : Prop where
  versionsDistinct : s.versionRefs.Nodup
  versionsBelow : ∀ ref ∈ s.versionRefs, ref < s.fresh
  neighboursBelow : ∀ n ∈ s.candidateNeighbours, n.ref < s.fresh
  distinct : (s.candidateNeighbours.map (·.ref)).Nodup
  neighbours : ∀ n ∈ s.candidateNeighbours, n.version ∈ s.versionRefs
  current : ∀ ref ∈ s.currentDodagVersion, ref ∈ s.versionRefs

/-- The records of an instance are in order. -/
structure Records (strict : Bool) (s : Instance) : Prop extends Alive s where
  ordered : ∀ d ∈ s.dodags, Ordered strict d.versions

/-- Each DODAG that has a version has a configuration, and that of a DODAG in use is good
unless a division by zero is allowed. -/
structure Configured (allowed : Fault → Prop) (s : Instance) : Prop where
  config : ∀ d ∈ s.dodags, d.haveConfig → d.InUse → allowed .divideByZero ∨ d.config.Good
  versions : ∀ d ∈ s.dodags, d.versions ≠ [] → d.haveConfig

/-- What holds of an instance for the faults that are not allowed. -/
structure Tidy (strict : Bool) (allowed : Fault → Prop) (s : Instance) : Prop where
  numbered : Numbered s
  records : allowed .freed ∨ Records strict s
  configured : Configured allowed s

theorem Configured.divides (h : Configured allowed s) {d : Dodag} (hd : d ∈ s.dodags)
    (hhave : d.haveConfig) (huse : d.InUse) :
    allowed .divideByZero ∨ d.config.minHopRankIncrease ≠ 0 :=
  (h.config d hd hhave huse).imp_right (·.minHop_ne_zero)

theorem Tidy.sound (h : Tidy strict allowed s) : Sound allowed s where
  distinct := h.records.imp_right (·.distinct)
  neighbours := fun n hn => h.records.imp_right (·.neighbours n hn)
  current := fun ref href => h.records.imp_right (·.current ref href)
  divides := fun d hd hne => h.configured.divides hd (h.configured.versions d hd hne) (.inl hne)

theorem map_number_bare (d : Dodag) :
    d.bare.versions.map (·.number) = d.versions.map (·.number) := by
  simp only [Dodag.bare, List.map_map]
  rfl

/-- Order is a matter of the numbers. -/
theorem Ordered.of_numbers {vs ws : List Version} (h : Ordered strict vs)
    (heq : ws.map (·.number) = vs.map (·.number)) : Ordered strict ws := by
  cases ws with
  | nil => trivial
  | cons w ws =>
      cases vs with
      | nil => cases heq
      | cons v vs =>
          obtain ⟨hhead, htail⟩ := List.cons_eq_cons.mp heq
          refine ⟨fun u hu => ?_, htail ▸ h.2.1, fun hstrict => ?_⟩
          · have hmem : u.number ∈ ws.map (·.number) := List.mem_map_of_mem hu
            rw [htail] at hmem
            obtain ⟨x, hx, hnumber⟩ := List.mem_map.mp hmem
            change w.number = v.number at hhead
            rw [hhead, ← hnumber]
            exact h.1 x hx
          · unfold Descending
            rw [heq]
            exact h.2.2 hstrict

theorem Kept.numbered (h : Kept s t) (hs : Numbered s) : Numbered t := by
  have hrefs : t.dodags.map (·.ref) = s.dodags.map (·.ref) := by
    have hmap := congrArg (List.map Dodag.ref) h.dodags
    rwa [List.map_map, List.map_map] at hmap
  refine ⟨fun d hd => ?_, hrefs ▸ hs.distinct⟩
  obtain ⟨e, he, hbare⟩ := h.mem_dodags hd
  have href : e.bare.ref = d.bare.ref := by rw [hbare]
  change e.ref = d.ref at href
  rw [h.fresh, ← href]
  exact hs.below e he

/-- **Parent selection leaves the records tidy.** -/
theorem Kept.records (h : Kept s t) (hs : Records strict s) : Records strict t where
  versionsDistinct := by
    rw [h.versionRefs]
    exact hs.versionsDistinct
  versionsBelow := by
    rw [h.versionRefs, h.fresh]
    exact hs.versionsBelow
  neighboursBelow := by
    intro n hn
    obtain ⟨m, hm, href, -⟩ := h.mem_neighbours hn
    rw [h.fresh, ← href]
    exact hs.neighboursBelow m hm
  distinct := by
    obtain ⟨refs, hperm, hsub⟩ := h.refs
    exact hperm.nodup_iff.mp (hs.distinct.sublist hsub)
  neighbours := by
    intro n hn
    obtain ⟨m, hm, -, hversion⟩ := h.mem_neighbours hn
    rw [h.versionRefs, ← hversion]
    exact hs.neighbours m hm
  current := by
    intro ref href
    rw [h.versionRefs]
    rcases h.current ref href with hold | ⟨m, hm, rfl⟩
    · exact hs.current ref hold
    · exact hs.neighbours m hm
  ordered := by
    intro d hd
    obtain ⟨e, he, hbare⟩ := h.mem_dodags hd
    refine Ordered.of_numbers (hs.ordered e he) ?_
    rw [← map_number_bare d, ← hbare, map_number_bare]

/-- It leaves the configurations alone. -/
theorem Kept.configured (h : Kept s t) (hs : Configured allowed s) : Configured allowed t := by
  have hfield : ∀ d ∈ t.dodags, ∃ e ∈ s.dodags, e.config = d.config ∧
      e.haveConfig = d.haveConfig ∧ (d.versions ≠ [] → e.versions ≠ []) := by
    intro d hd
    obtain ⟨e, he, hbare⟩ := h.mem_dodags hd
    have hconfig : e.bare.config = d.bare.config := by rw [hbare]
    have hhave : e.bare.haveConfig = d.bare.haveConfig := by rw [hbare]
    refine ⟨e, he, hconfig, hhave, fun hne hnil => hne ?_⟩
    have hnumbers := map_number_bare e
    rw [hbare, map_number_bare, hnil] at hnumbers
    exact List.map_eq_nil_iff.mp hnumbers
  constructor
  · intro d hd hhave huse
    obtain ⟨e, he, hconfig, hsame, hversions⟩ := hfield d hd
    rw [← hconfig]
    exact hs.config e he (hsame ▸ hhave) (huse.imp hversions fun h => hconfig ▸ h)
  · intro d hd hne
    obtain ⟨e, he, -, hsame, hversions⟩ := hfield d hd
    rw [← hsame]
    exact hs.versions e he (hversions hne)

theorem Kept.tidy (h : Kept s t) (hs : Tidy strict allowed s) : Tidy strict allowed t where
  numbered := h.numbered hs.numbered
  records := hs.records.imp_right h.records
  configured := h.configured hs.configured

end Instance

end Rpl
