import Mathlib.Data.BitVec
import Mathlib.Tactic.Common

/-!
# Serial numbers

Sequence numbers of 32 bits, compared going round.  Positions in an unbounded
sequence are integers; `SeqNum.plus base i` is the number of position `i` when
position 0 has the number `base`.  As long as two positions are less than half way
round apart, comparing their numbers compares the positions.

The comparison itself comes from a library.  `SerialOrder` is such a function with
what is promised of it: numbers exactly half way round apart are not promised
anything.
-/

/-- `uint32_t` -/
abbrev SeqNum := BitVec 32

/-- `common_serial_number_greater_32` and its specification. -/
structure SerialOrder where
  greater : SeqNum → SeqNum → Bool
  greater_iff : ∀ a b : SeqNum, (a - b).toNat ≠ 2 ^ 31 →
    (greater a b = true ↔ 0 < (a - b).toNat ∧ (a - b).toNat < 2 ^ 31)

namespace SerialOrder

/-- The comparison of RFC 1982. -/
def rfc1982 : SerialOrder where
  greater a b := decide (0 < (a - b).toNat ∧ (a - b).toNat < 2 ^ 31)
  greater_iff a b _ := by simp

end SerialOrder

namespace SeqNum

/-- `min <= val <= max`, going round. -/
def inRange (min val max : SeqNum) : Bool :=
  if min ≤ max then decide (min ≤ val ∧ val ≤ max) else decide (min ≤ val ∨ val ≤ max)

theorem inRange_iff (min val max : SeqNum) :
    inRange min val max = true ↔ (val - min).toNat ≤ (max - min).toNat := by
  unfold inRange
  split <;> rename_i h <;> simp only [decide_eq_true_eq] <;> bv_omega

/-- The number of the position `i` behind `base`. -/
def plus (base : SeqNum) (i : Int) : SeqNum := base + BitVec.ofInt 32 i

variable (base : SeqNum) {i j : Int}

@[simp] theorem plus_zero : plus base 0 = base := by simp [plus]

theorem plus_plus (i j : Int) : plus (plus base i) j = plus base (i + j) := by
  unfold plus
  rw [BitVec.ofInt_add, BitVec.add_assoc]

/-- Numbers are added as positions are. -/
theorem plus_add (i : Int) (n : Nat) : plus base i + BitVec.ofNat 32 n = plus base (i + n) := by
  unfold plus
  rw [BitVec.ofInt_add, BitVec.add_assoc, BitVec.ofInt_natCast]

theorem plus_sub_plus (i j : Int) : plus base i - plus base j = BitVec.ofInt 32 (i - j) := by
  unfold plus
  apply BitVec.eq_of_toNat_eq
  simp only [BitVec.toNat_sub, BitVec.toNat_add, BitVec.toNat_ofInt]
  omega

theorem toNat_plus_sub (i j : Int) :
    (plus base i - plus base j).toNat = ((i - j) % 2 ^ 32).toNat := by
  rw [plus_sub_plus, BitVec.toNat_ofInt]
  rfl

/-- Less than half way round, the difference of the numbers is that of the
positions. -/
theorem toInt_plus_sub (hlow : -2 ^ 31 ≤ i - j) (hhigh : i - j < 2 ^ 31) :
    (plus base i - plus base j).toInt = i - j := by
  rw [BitVec.toInt_eq_toNat_cond, toNat_plus_sub]
  split <;> omega

theorem plus_inj (hlow : -2 ^ 32 < i - j) (hhigh : i - j < 2 ^ 32) :
    plus base i = plus base j ↔ i = j := by
  constructor
  · intro h
    have hzero : (plus base i - plus base j).toNat = 0 := by
      rw [h, BitVec.sub_self]
      rfl
    rw [toNat_plus_sub] at hzero
    omega
  · rintro rfl
    rfl

/-- Every number is that of a position at most half way round. -/
theorem eq_plus (x : SeqNum) : x = plus base (x - base).toInt := by
  unfold plus
  rw [BitVec.ofInt_toInt]
  apply BitVec.eq_of_toNat_eq
  simp only [BitVec.toNat_sub, BitVec.toNat_add]
  omega

/-- The further on of two numbers. -/
def furthest (a b : SeqNum) : SeqNum := if (b - a).toNat < 2 ^ 31 then b else a

theorem furthest_of_le {a b : SeqNum} (h : (b - a).toNat < 2 ^ 31) : furthest a b = b :=
  if_pos h

/-- Ranges from `base` on are those of the positions, taken round. -/
theorem inRange_plus (i j : Int) :
    inRange base (plus base i) (plus base j) = true ↔ i % 2 ^ 32 ≤ j % 2 ^ 32 := by
  have hbase : base = plus base 0 := (plus_zero base).symm
  rw [inRange_iff]
  nth_rewrite 2 [hbase]
  nth_rewrite 4 [hbase]
  rw [toNat_plus_sub, toNat_plus_sub]
  omega

end SeqNum

namespace SerialOrder

variable (sn : SerialOrder)

/-- **Numbers compare as their positions do.** -/
theorem greater_plus (base : SeqNum) {i j : Int} (hlow : -2 ^ 31 < i - j)
    (hhigh : i - j < 2 ^ 31) :
    sn.greater (base.plus i) (base.plus j) = true ↔ j < i := by
  rw [sn.greater_iff, SeqNum.toNat_plus_sub]
  · omega
  · rw [SeqNum.toNat_plus_sub]
    omega

end SerialOrder
