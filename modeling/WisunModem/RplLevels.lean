import WisunModem.RplRuns

/-!
# The levels of ranks

DAGRank cuts the ranks into levels of `MinHopRankIncrease`.  The limits of a version lie at
the end of a level, so that what they admit is a matter of DAGRank.
-/

namespace Rpl

open Instance

section

variable {minHop a b : UInt16}

theorem dagRank_infinite (minHop : UInt16) : dagRank minHop infinite = 65535 := if_pos rfl

theorem dagRank_eq (h : a ≠ infinite) : dagRank minHop a = a.toNat / minHop.toNat := if_neg h

theorem dagRank_lt_infinite (h : a ≠ infinite) : dagRank minHop a < 65535 := by
  rw [dagRank_eq h]
  exact (Nat.div_le_self _ _).trans_lt (lt_infinite h)

theorem ne_infinite_of_le (h : a ≤ b) (hb : b ≠ infinite) : a ≠ infinite := by
  rintro rfl
  rw [UInt16.le_iff_toNat_le, toNat_infinite] at h
  exact absurd (lt_infinite hb) (by omega)

theorem le_infinite (a : UInt16) : a ≤ infinite := by
  rw [UInt16.le_iff_toNat_le]
  exact toNat_le_infinite a

theorem dagRank_mono (h : a ≤ b) : dagRank minHop a ≤ dagRank minHop b := by
  by_cases hb : b = infinite
  · subst hb
    rw [dagRank_infinite]
    by_cases ha : a = infinite
    · rw [ha, dagRank_infinite]
    · exact (dagRank_lt_infinite ha).le
  · rw [dagRank_eq hb, dagRank_eq (ne_infinite_of_le h hb)]
    exact Nat.div_le_div_right (UInt16.le_iff_toNat_le.mp h)

/-- A finite rank a whole increase behind another has a greater DAGRank. -/
theorem dagRank_lt_of_add_le (hm : minHop ≠ 0) (hb : b ≠ infinite)
    (h : rpl_rank_add a minHop ≤ b) : dagRank minHop a < dagRank minHop b := by
  have hlt := lt_infinite hb
  have hpos := toNat_ne_zero hm
  rw [UInt16.le_iff_toNat_le, toNat_rank_add] at h
  have ha : a ≠ infinite := by
    rintro rfl
    rw [toNat_infinite] at h
    omega
  have hsum : a.toNat + minHop.toNat ≤ b.toNat := by omega
  rw [dagRank_eq ha, dagRank_eq hb]
  have hdiv := Nat.div_le_div_right (c := minHop.toNat) hsum
  rw [Nat.add_div_right _ hpos] at hdiv
  exact hdiv

/-- So has the next level. -/
theorem dagRank_lt_next_level (hm : minHop ≠ 0) {r : UInt16}
    (h : rpl_rank_next_level minHop a = .ok r) (hr : r ≠ infinite) :
    dagRank minHop a < dagRank minHop r := by
  obtain ⟨r', hok, hval⟩ := rpl_rank_next_level_eq hm a
  rw [h] at hok
  cases hok
  have hlt := lt_infinite hr
  have hpos := toNat_ne_zero hm
  by_cases ha : a = infinite
  · rw [if_pos ha] at hval
    omega
  · rw [if_neg ha] at hval
    have hvalue : r.toNat = (a.toNat / minHop.toNat + 1) * minHop.toNat := by
      rw [Nat.succ_mul, Nat.mul_comm (a.toNat / minHop.toNat)]
      omega
    rw [dagRank_eq ha, dagRank_eq hr, hvalue, Nat.mul_div_cancel _ hpos]
    exact Nat.lt_succ_self _

/-- What lies before the end of a level. -/
theorem le_level_iff (hm : minHop ≠ 0) (ha : a ≠ infinite) (level : Nat) :
    a.toNat ≤ min ((level + 1) * minHop.toNat) 65535 - 1 ↔ dagRank minHop a ≤ level := by
  have hpos := toNat_ne_zero hm
  have hlt := lt_infinite ha
  have hmul : 0 < (level + 1) * minHop.toNat := Nat.mul_pos (Nat.succ_pos _) hpos
  have hdiv : a.toNat / minHop.toNat < level + 1 ↔ a.toNat < (level + 1) * minHop.toNat :=
    Nat.div_lt_iff_lt_mul hpos
  rw [dagRank_eq ha, ← Nat.lt_succ_iff (n := level), hdiv]
  omega

/-- **The hard limit** admits the DAGRanks up to the rise that is allowed. -/
theorem hardLimit_spec {conf : Conf} (hm : conf.minHopRankIncrease ≠ 0) (rank : UInt16) :
    ∃ limit, hardLimit conf rank = .ok limit ∧ ∀ r, r ≠ infinite →
      (r ≤ limit ↔ dagRank conf.minHopRankIncrease r ≤
        dagRank conf.minHopRankIncrease rank +
          dagRank conf.minHopRankIncrease conf.dagMaxRankIncrease) := by
  obtain ⟨d, hd, hval⟩ := nrpl_dag_rank_eq hm rank
  obtain ⟨i, hi, hival⟩ := nrpl_dag_rank_eq hm conf.dagMaxRankIncrease
  have hsum := toNat_rank_add d i
  rw [hval, hival] at hsum
  unfold hardLimit
  rw [hd, hi]
  refine ⟨_, rfl, fun r hr => ?_⟩
  have hlevel : dagRank conf.minHopRankIncrease r < 65535 := dagRank_lt_infinite hr
  by_cases hmax : rpl_rank_add d i = infinite
  · rw [if_pos hmax]
    rw [hmax, toNat_infinite] at hsum
    exact ⟨fun _ => by omega, fun _ => le_infinite r⟩
  · rw [if_neg hmax]
    have hfinite := lt_infinite hmax
    rw [← le_level_iff hm hr, UInt16.le_iff_toNat_le]
    have hone : (1 + rpl_rank_add d i).toNat = (rpl_rank_add d i).toNat + 1 := by
      have honeval : (1 : UInt16).toNat = 1 := rfl
      rw [UInt16.toNat_add, honeval]
      omega
    have hpos := toNat_ne_zero hm
    have hproduct : 0 < ((rpl_rank_add d i).toNat + 1) * conf.minHopRankIncrease.toNat :=
      Nat.mul_pos (Nat.succ_pos _) hpos
    have hvalue : (nrpl_rank conf.minHopRankIncrease (1 + rpl_rank_add d i) - 1).toNat =
        min (((rpl_rank_add d i).toNat + 1) * conf.minHopRankIncrease.toNat) 65535 - 1 := by
      have honeval : (1 : UInt16).toNat = 1 := rfl
      unfold nrpl_rank
      rw [hone, toNat_infinite]
      split
      case isTrue hfits =>
        rw [UInt16.toNat_sub, UInt16.toNat_mul, hone, honeval]
        omega
      case isFalse hover =>
        rw [UInt16.toNat_sub, toNat_infinite, honeval]
        omega
    rw [hvalue]
    have hsum' : (rpl_rank_add d i).toNat =
        dagRank conf.minHopRankIncrease rank +
          dagRank conf.minHopRankIncrease conf.dagMaxRankIncrease := by omega
    rw [hsum']

/-- The greediness limit admits the DAGRanks up to its level. -/
theorem max_at_level_spec (hm : minHop ≠ 0) (ha : a ≠ infinite) :
    ∃ limit, rpl_rank_max_at_level minHop a = .ok limit ∧ a ≤ limit ∧ ∀ r, r ≠ infinite →
      (r ≤ limit ↔ dagRank minHop r ≤ dagRank minHop a) := by
  obtain ⟨limit, hlimit, hval⟩ := rpl_rank_max_at_level_eq hm a
  rw [if_neg ha] at hval
  have hpos := toNat_ne_zero hm
  have hiff : ∀ r, r ≠ infinite → (r ≤ limit ↔ dagRank minHop r ≤ dagRank minHop a) := by
    intro r hr
    have hlt := lt_infinite hr
    rw [← le_level_iff hm hr, UInt16.le_iff_toNat_le, hval, dagRank_eq ha, Nat.succ_mul,
      Nat.mul_comm (a.toNat / minHop.toNat)]
    omega
  exact ⟨limit, hlimit, (hiff a ha).mpr le_rfl, hiff⟩

theorem max_at_level_infinite (hm : minHop ≠ 0) :
    rpl_rank_max_at_level minHop infinite = .ok infinite := by
  obtain ⟨limit, hlimit, hval⟩ := rpl_rank_max_at_level_eq hm infinite
  rw [if_pos rfl] at hval
  rw [hlimit]
  exact congrArg Except.ok (UInt16.toNat_inj.mp hval)

end

end Rpl
