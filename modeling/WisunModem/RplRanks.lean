import WisunModem.Faults
import Mathlib.Data.UInt

/-!
# Ranks and sequence numbers of RPL

The rank arithmetic of `rpl_upward.c` in its 16 bits, where `RPL_RANK_INFINITE` is the
largest value, and the comparison of lollipop sequence numbers.  A rank is divided by
`MinHopRankIncrease`, so each of the functions that do can fault.
-/

namespace Rpl

/-- What ends a run of the program. -/
inductive Fault
  | divideByZero
  | freed
  | null
deriving DecidableEq, Repr

/-- `rpl_cmp_t`. -/
inductive Cmp
  | less
  | equal
  | greater
  | unordered
deriving DecidableEq, Repr

/-! ## Ranks -/

/-- `RPL_RANK_INFINITE`. -/
def infinite : UInt16 := 0xffff

/-- `nrpl_dag_rank` in a DODAG with this `min_hop_rank_increase`. -/
def nrpl_dag_rank (minHop rank : UInt16) : Except Fault UInt16 :=
  if rank = infinite then .ok rank
  else if minHop = 0 then .error .divideByZero
  else .ok (rank / minHop)

/-- `nrpl_rank`. -/
def nrpl_rank (minHop dagRank : UInt16) : UInt16 :=
  if dagRank.toNat * minHop.toNat < infinite.toNat then dagRank * minHop else infinite

/-- `rpl_rank_compare_dagrank_rank`; a DODAG is at hand in all calls. -/
def rpl_rank_compare_dagrank_rank (minHop dagRankA b : UInt16) : Except Fault Cmp :=
  if dagRankA = infinite then .ok (if b = infinite then .unordered else .greater)
  else if b = infinite then .ok .less
  else do
    let dagRankB ← nrpl_dag_rank minHop b
    pure (if dagRankA < dagRankB then .less else if dagRankA = dagRankB then .equal else .greater)

def rpl_rank_compare (minHop a b : UInt16) : Except Fault Cmp := do
  let dagRankA ← nrpl_dag_rank minHop a
  rpl_rank_compare_dagrank_rank minHop dagRankA b

/-- `rpl_rank_next_level`; the product is cut to 16 bits. -/
def rpl_rank_next_level (minHop a : UInt16) : Except Fault UInt16 := do
  let dagRank ← nrpl_dag_rank minHop a
  let r := minHop * (1 + dagRank)
  pure (if a ≤ r then r else infinite)

/-- `rpl_rank_max_at_level`. -/
def rpl_rank_max_at_level (minHop a : UInt16) : Except Fault UInt16 := do
  let dagRank ← nrpl_dag_rank minHop a
  let r := minHop * (1 + dagRank) - 1
  pure (if a ≤ r then r else infinite)

def rpl_rank_add (a b : UInt16) : UInt16 := if a ≤ a + b then a + b else infinite

def rpl_rank_sub (a b : UInt16) : UInt16 := if a - b ≤ a then a - b else 0

/-! ## Their values -/

section

variable {allowed : Fault → Prop}

@[simp] theorem toNat_infinite : infinite.toNat = 65535 := rfl

theorem toNat_le_infinite (r : UInt16) : r.toNat ≤ 65535 := by
  have hlt := r.toNat_lt
  omega

/-- Addition saturates. -/
theorem toNat_rank_add (a b : UInt16) :
    (rpl_rank_add a b).toNat = min (a.toNat + b.toNat) 65535 := by
  have ha := a.toNat_lt
  have hb := b.toNat_lt
  unfold rpl_rank_add
  split
  case isTrue h =>
    rw [UInt16.le_iff_toNat_le, UInt16.toNat_add] at h
    rw [UInt16.toNat_add]
    omega
  case isFalse h =>
    rw [UInt16.le_iff_toNat_le, UInt16.toNat_add] at h
    rw [toNat_infinite]
    omega

/-- DAGRank of a rank, as a number; infinite stays so. -/
def dagRank (minHop rank : UInt16) : Nat :=
  if rank = infinite then 65535 else rank.toNat / minHop.toNat

theorem nrpl_dag_rank_eq {minHop : UInt16} (h : minHop ≠ 0) (rank : UInt16) :
    ∃ d, nrpl_dag_rank minHop rank = .ok d ∧ d.toNat = dagRank minHop rank := by
  unfold nrpl_dag_rank dagRank
  split
  case isTrue hinf => exact ⟨rank, rfl, by rw [hinf]; rfl⟩
  case isFalse => exact ⟨rank / minHop, by simp, UInt16.toNat_div ..⟩

theorem toNat_ne_zero {a : UInt16} (h : a ≠ 0) : 0 < a.toNat :=
  Nat.pos_of_ne_zero fun hzero => h (UInt16.toNat_inj.mp hzero)

theorem lt_infinite {a : UInt16} (h : a ≠ infinite) : a.toNat < 65535 := by
  have hlt := a.toNat_lt
  have hne : a.toNat ≠ infinite.toNat := fun heq => h (UInt16.toNat_inj.mp heq)
  rw [toNat_infinite] at hne
  omega

/-- The multiple of `minHop` behind a finite rank, in 16 bits. -/
theorem toNat_next_multiple {minHop a d : UInt16} (ha : a ≠ infinite)
    (hd : d.toNat = a.toNat / minHop.toNat) :
    (minHop * (1 + d)).toNat = (minHop.toNat * (a.toNat / minHop.toNat) + minHop.toNat) % 65536 := by
  have hlt := lt_infinite ha
  have hle := Nat.div_le_self a.toNat minHop.toNat
  have hsum : (1 + a.toNat / minHop.toNat) % 65536 = a.toNat / minHop.toNat + 1 := by omega
  have hone : (1 : UInt16).toNat = 1 := rfl
  rw [UInt16.toNat_mul, UInt16.toNat_add, hone, hd, hsum, Nat.mul_succ]

/-- The next level, saturated. -/
theorem rpl_rank_next_level_eq {minHop : UInt16} (h : minHop ≠ 0) (a : UInt16) :
    ∃ r, rpl_rank_next_level minHop a = .ok r ∧
      r.toNat = if a = infinite then 65535
        else min (minHop.toNat * (a.toNat / minHop.toNat) + minHop.toNat) 65535 := by
  obtain ⟨d, hd, hval⟩ := nrpl_dag_rank_eq h a
  unfold rpl_rank_next_level
  rw [hd]
  refine ⟨_, rfl, ?_⟩
  by_cases ha : a = infinite
  · rw [if_pos ha]
    split
    case isFalse => rfl
    case isTrue hle =>
      rw [UInt16.le_iff_toNat_le, ha, toNat_infinite] at hle
      have hmax := toNat_le_infinite (minHop * (1 + d))
      omega
  · rw [if_neg ha]
    unfold dagRank at hval
    rw [if_neg ha] at hval
    have hmult := toNat_next_multiple ha hval
    have hpos := toNat_ne_zero h
    have hm := minHop.toNat_lt
    have hdiv := Nat.div_add_mod a.toNat minHop.toNat
    have hmod := Nat.mod_lt a.toNat hpos
    have hlt := lt_infinite ha
    split
    case isTrue hle =>
      rw [UInt16.le_iff_toNat_le, hmult] at hle
      rw [hmult]
      omega
    case isFalse hle =>
      rw [UInt16.le_iff_toNat_le, hmult] at hle
      rw [toNat_infinite]
      omega

/-- The last rank of the level, saturated. -/
theorem rpl_rank_max_at_level_eq {minHop : UInt16} (h : minHop ≠ 0) (a : UInt16) :
    ∃ r, rpl_rank_max_at_level minHop a = .ok r ∧
      r.toNat = if a = infinite then 65535
        else min (minHop.toNat * (a.toNat / minHop.toNat) + minHop.toNat - 1) 65535 := by
  obtain ⟨d, hd, hval⟩ := nrpl_dag_rank_eq h a
  unfold rpl_rank_max_at_level
  rw [hd]
  refine ⟨_, rfl, ?_⟩
  have hone : (1 : UInt16).toNat = 1 := rfl
  by_cases ha : a = infinite
  · rw [if_pos ha]
    split
    case isFalse => rfl
    case isTrue hle =>
      rw [UInt16.le_iff_toNat_le, ha, toNat_infinite] at hle
      have hmax := toNat_le_infinite (minHop * (1 + d) - 1)
      omega
  · rw [if_neg ha]
    unfold dagRank at hval
    rw [if_neg ha] at hval
    have hmult := toNat_next_multiple ha hval
    have hpos := toNat_ne_zero h
    have hm := minHop.toNat_lt
    have hdiv := Nat.div_add_mod a.toNat minHop.toNat
    have hmod := Nat.mod_lt a.toNat hpos
    have hlt := lt_infinite ha
    split
    case isTrue hle =>
      rw [UInt16.le_iff_toNat_le, UInt16.toNat_sub, hmult, hone] at hle
      rw [UInt16.toNat_sub, hmult, hone]
      omega
    case isFalse hle =>
      rw [UInt16.le_iff_toNat_le, UInt16.toNat_sub, hmult, hone] at hle
      rw [toNat_infinite]
      omega

end

/-! ## Sequence numbers -/

/-- `RPL_SEQUENCE_WINDOW`. -/
def sequenceWindow : Nat := 16

def rpl_seq_inc (seq : UInt8) : UInt8 := if seq = 127 then 0 else seq + 1

/-- The comparison of two numbers of the circular region. -/
def compareCircular (a b : Nat) : Cmp :=
  let diff := (a + 128 - b) % 128
  if diff ≤ sequenceWindow then .greater
  else if 128 - sequenceWindow ≤ diff then .less
  else .unordered

/-- The comparison of two numbers of the linear region. -/
def compareLinear (a b : Nat) : Cmp :=
  if sequenceWindow < max a b - min a b then .unordered
  else if b < a then .greater
  else .less

def rpl_seq_compare (a b : UInt8) : Cmp :=
  if a = b then .equal
  else if 128 ≤ a ∧ b < 128 then
    if 256 + b.toNat - a.toNat ≤ sequenceWindow then .less else .greater
  else if 128 ≤ b ∧ a < 128 then
    if 256 + a.toNat - b.toNat ≤ sequenceWindow then .greater else .less
  else if a < 128 then compareCircular a.toNat b.toNat
  else compareLinear a.toNat b.toNat

theorem compareCircular_ne_equal (a b : Nat) : compareCircular a b ≠ .equal := by
  unfold compareCircular
  dsimp only
  split
  · decide
  · split <;> decide

theorem compareLinear_ne_equal (a b : Nat) : compareLinear a b ≠ .equal := by
  unfold compareLinear
  split
  · decide
  · split <;> decide

/-- Only a number itself compares equal to it. -/
theorem rpl_seq_compare_eq_equal {a b : UInt8} : rpl_seq_compare a b = .equal ↔ a = b := by
  unfold rpl_seq_compare
  constructor
  · intro h
    by_contra hne
    rw [if_neg hne] at h
    split at h
    · split at h <;> cases h
    · split at h
      · split at h <;> cases h
      · split at h
        · exact compareCircular_ne_equal _ _ h
        · exact compareLinear_ne_equal _ _ h
  · exact fun h => if_pos h

end Rpl
