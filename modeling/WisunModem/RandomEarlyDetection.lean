import Mathlib.Tactic.Ring
import WisunModem.Runs

/-!
# Random early detection

`random_early_detection.c`: the moving average of a queue length, scaled by 256, and the draw
that decides whether a packet is dropped before the queue is full.

* `drift` — how far the average is from a constant sample after one more of it;
* `settles_iff` — which averages arrive at a constant sample;
* `admitted_le` — how many packets pass between two drops.
-/

namespace RandomEarlyDetection

open Runs

/-! ## The average of a constant sample -/

/-- The distance from a constant sample, scaled by 256, after one more sample. -/
def drift (weight : Nat) (d : Int) : Int :=
  let r := (256 - weight) * d / 256
  r + r % 2

theorem drift_eq (weight : Nat) (d : Int) :
    drift weight d = d + -(weight * d) / 256 + (d + -(weight * d) / 256) % 2 := by
  have hsplit : (256 - (weight : Int)) * d = -(weight * d) + d * 256 := by
    rw [Int.sub_mul]
    omega
  unfold drift
  dsimp only
  rw [hsplit, Int.add_mul_ediv_right _ _ (by decide)]
  omega

section drift

variable {weight : Nat} {d : Int} (heven : d % 2 = 0)

include heven

theorem drift_above (hweight : weight ≤ 256) (hd : 0 ≤ d) :
    0 ≤ drift weight d ∧ drift weight d ≤ d := by
  have hlow : 0 ≤ (weight : Int) * d := Int.mul_nonneg (by omega) hd
  have hhigh : (weight : Int) * d ≤ 256 * d := Int.mul_le_mul_of_nonneg_right (by omega) hd
  rw [drift_eq]
  generalize (weight : Int) * d = p at *
  omega

theorem drift_below (hweight : weight ≤ 256) (hd : d ≤ 0) :
    d ≤ drift weight d ∧ drift weight d ≤ 0 := by
  have hlow : (weight : Int) * d ≤ 0 := Int.mul_nonpos_of_nonneg_of_nonpos (by omega) hd
  have hhigh : 256 * d ≤ (weight : Int) * d :=
    Int.mul_le_mul_of_nonpos_right (by omega) hd
  rw [drift_eq]
  generalize (weight : Int) * d = p at *
  omega

/-- From above the average comes down as long as its weight is not the least. -/
theorem drift_lt (hweight : 2 ≤ weight) (hd : 256 ≤ d) : drift weight d < d := by
  have hlow : 2 * d ≤ (weight : Int) * d :=
    Int.mul_le_mul_of_nonneg_right (by omega) (by omega)
  rw [drift_eq]
  generalize (weight : Int) * d = p at *
  omega

/-- From below it comes up as long as a new sample weighs at least one half. -/
theorem lt_drift (hweight : 128 ≤ weight) (hd : d < 0) : d < drift weight d := by
  have hlow : (weight : Int) * d ≤ 128 * d :=
    Int.mul_le_mul_of_nonpos_right (by omega) (by omega)
  rw [drift_eq]
  generalize (weight : Int) * d = p at *
  omega

/-- Else it stays one too low. -/
theorem drift_neg (hweight : weight < 128) (hd : d < 0) : drift weight d < 0 := by
  have hlow : 127 * d ≤ (weight : Int) * d :=
    Int.mul_le_mul_of_nonpos_right (by omega) (by omega)
  rw [drift_eq]
  generalize (weight : Int) * d = p at *
  omega

end drift

/-- With the least weight it stays one too high. -/
theorem le_drift_one {d : Int} (hd : 256 ≤ d) : 256 ≤ drift 1 d := by
  rw [drift_eq]
  omega

/-! ## The queue -/

structure RedConfig where
  weight : UInt16
  threshold_min : UInt16
  threshold_max : UInt16
  drop_maX_P : UInt8
deriving DecidableEq

structure RedInfo where
  parameters : RedConfig
  averageQ : UInt32
  count : UInt16
deriving DecidableEq

/-- `PROB_SCALE` -/
def probScale : UInt32 := 512

/-- `PROB_SCALE_MAX` -/
def probScaleMax : UInt32 := 512 * 100

def random_early_detection_create (threshold_min threshold_max : UInt16) (drop_max_p : UInt8)
    (weight : UInt16) : Option RedInfo :=
  if weight = 0 ∨ weight > 256 then none
  else if drop_max_p = 0 ∨ drop_max_p > 100 then none
  else if threshold_max ≤ threshold_min then none
  else some
    { parameters :=
        { weight := weight
          threshold_min := threshold_min
          threshold_max := threshold_max
          drop_maX_P := drop_max_p }
      averageQ := 0
      count := 0 }

/-- The new average of the queue length, and what is returned of it. -/
def random_early_detetction_aq_calc (info : RedInfo) (sampleLen : UInt16) : UInt16 × RedInfo :=
  if info.parameters.weight = 256 ∨ info.averageQ = 0 then
    (sampleLen, { info with averageQ := sampleLen.toUInt32 * 256 })
  else
    let averageSum := (256 - info.parameters.weight.toUInt32) * info.averageQ / 256
    let averageSum := averageSum + info.parameters.weight.toUInt32 * sampleLen.toUInt32
    -- an odd sum is rounded up
    let averageSum := if averageSum % 2 = 1 then averageSum + 1 else averageSum
    ((averageSum / 256).toUInt16, { info with averageQ := averageSum })

/-- The average in packets. -/
def RedInfo.length (info : RedInfo) : UInt16 := (info.averageQ / 256).toUInt16

/-- `tempP`, the probability of a drop of the first packet. -/
def RedInfo.tempP (info : RedInfo) : UInt32 :=
  info.parameters.drop_maX_P.toUInt32 * probScale *
      (info.length - info.parameters.threshold_min).toUInt32 /
    (info.parameters.threshold_max - info.parameters.threshold_min).toUInt32

/-- The packet is dropped, for what `randLIB_get_random_in_range` draws. -/
def random_early_detection_congestion_check (info : RedInfo) (random : UInt16) :
    Bool × RedInfo :=
  if info.length ≤ info.parameters.threshold_min then (false, { info with count := 0 })
  else if info.length > info.parameters.threshold_max then (true, { info with count := 0 })
  else
    let Prob := info.count.toUInt32 * info.tempP
    if Prob ≥ probScaleMax then (true, { info with count := 0 })
    else
      let Prob := info.tempP * probScaleMax / (probScaleMax - Prob)
      if Prob > random.toUInt32 then (true, { info with count := 0 })
      else (false, { info with count := info.count + 1 })

/-! ## Products and divisors -/

/-- Every product of one average, as a number. -/
def averageProducts (info : RedInfo) (sampleLen : UInt16) : List Nat :=
  [sampleLen.toNat * 256, (256 - info.parameters.weight.toNat) * info.averageQ.toNat,
    info.parameters.weight.toNat * sampleLen.toNat]

/-- The average is between the thresholds, where a check goes on to the probability. -/
def RedInfo.Between (info : RedInfo) : Prop :=
  info.parameters.threshold_min < info.length ∧ info.length ≤ info.parameters.threshold_max

instance (info : RedInfo) : Decidable info.Between :=
  inferInstanceAs (Decidable (_ ∧ _))

/-- Every product of one check. -/
def checkProducts (info : RedInfo) : List Nat :=
  if info.Between then
    [info.parameters.drop_maX_P.toNat * 512,
      info.parameters.drop_maX_P.toNat * 512 *
        (info.length.toNat - info.parameters.threshold_min.toNat),
      info.count.toNat * info.tempP.toNat, info.tempP.toNat * 51200]
  else []

/-- Every divisor of one check: the second one is there only when the draw is reached. -/
def checkDivisors (info : RedInfo) : List Nat :=
  if info.Between then
    (info.parameters.threshold_max.toNat - info.parameters.threshold_min.toNat) ::
      if info.count.toUInt32 * info.tempP ≥ probScaleMax then []
      else [(probScaleMax - info.count.toUInt32 * info.tempP).toNat]
  else []

/-! ## Averages as numbers -/

/-- The new average, without the limits of the machine. -/
def average (weight averageQ sampleLen : Nat) : Nat :=
  let averageSum := (256 - weight) * averageQ / 256 + weight * sampleLen
  averageSum + averageSum % 2

theorem average_eq_drift {weight : Nat} (hweight : weight ≤ 256) (averageQ sampleLen : Nat) :
    (average weight averageQ sampleLen : Int) =
      256 * sampleLen + drift weight (averageQ - 256 * sampleLen) := by
  have hprod : (256 - (weight : Int)) * (averageQ - 256 * sampleLen) =
      (256 - weight) * averageQ + -((256 - weight) * sampleLen) * 256 := by ring
  have hsum : (256 - (weight : Int)) * sampleLen = 256 * sampleLen - weight * sampleLen := by ring
  unfold average drift
  dsimp only
  rw [hprod, Int.add_mul_ediv_right _ _ (by decide), hsum]
  push_cast [Nat.cast_sub hweight]
  omega

theorem average_le {weight averageQ sampleLen largest : Nat} (hweight : weight ≤ 256)
    (haverage : averageQ ≤ 256 * largest) (hsample : sampleLen ≤ largest) :
    average weight averageQ sampleLen ≤ 256 * largest := by
  have hold : (256 - weight) * averageQ ≤ (256 - weight) * largest * 256 := by
    rw [Nat.mul_assoc, Nat.mul_comm largest]
    exact Nat.mul_le_mul_left _ haverage
  have hnew : weight * sampleLen ≤ weight * largest := Nat.mul_le_mul_left _ hsample
  have hsum : (256 - weight) * largest + weight * largest = 256 * largest := by
    rw [← Nat.add_mul, Nat.sub_add_cancel hweight]
  have hdiv : (256 - weight) * averageQ / 256 ≤ (256 - weight) * largest :=
    Nat.div_le_of_le_mul (by omega)
  unfold average
  dsimp only
  omega

theorem average_even (weight averageQ sampleLen : Nat) :
    average weight averageQ sampleLen % 2 = 0 := by
  unfold average
  dsimp only
  omega

/-! ## Histories -/

/-- A queue, with the largest sample since its average was last taken from zero. -/
structure History where
  info : RedInfo
  largest : Nat

inductive Event where
  | sample (sampleLen : UInt16)
  | check (random : UInt16)

def History.step (h : History) : Event → Option History
  | .sample sampleLen => some
      { info := (random_early_detetction_aq_calc h.info sampleLen).2
        largest :=
          if h.info.averageQ = 0 then sampleLen.toNat else max h.largest sampleLen.toNat }
  | .check random => some
      { h with info := (random_early_detection_congestion_check h.info random).2 }

/-- What `random_early_detection_create` accepts. -/
structure RedConfig.Accepted (c : RedConfig) : Prop where
  weight_pos : 1 ≤ c.weight.toNat
  weight_le : c.weight.toNat ≤ 256
  drop_pos : 1 ≤ c.drop_maX_P.toNat
  drop_le : c.drop_maX_P.toNat ≤ 100
  thresholds : c.threshold_min.toNat < c.threshold_max.toNat

/-- What every history keeps. -/
structure History.Sound (h : History) : Prop where
  accepted : h.info.parameters.Accepted
  bounded : h.info.averageQ.toNat ≤ 256 * h.largest
  largest : h.largest ≤ 65535
  even : h.info.averageQ.toNat % 2 = 0

theorem create_sound {threshold_min threshold_max weight : UInt16} {drop_max_p : UInt8}
    {info : RedInfo} (h : random_early_detection_create threshold_min threshold_max drop_max_p
      weight = some info) :
    History.Sound ⟨info, 0⟩ := by
  unfold random_early_detection_create at h
  split_ifs at h with hweight hdrop hthresholds
  cases h
  simp only [not_or, UInt16.not_lt, UInt8.not_lt, UInt16.not_le] at hweight hdrop hthresholds
  constructor
  case accepted =>
    have hw := UInt16.le_iff_toNat_le.mp hweight.2
    have hd := UInt8.le_iff_toNat_le.mp hdrop.2
    have hwne := mt UInt16.toNat_inj.mp hweight.1
    have hdne := mt UInt8.toNat_inj.mp hdrop.1
    exact ⟨Nat.one_le_iff_ne_zero.mpr hwne, hw, Nat.one_le_iff_ne_zero.mpr hdne, hd,
      UInt16.lt_iff_toNat_lt.mp hthresholds⟩
  case bounded => exact Nat.zero_le _
  case largest => exact Nat.zero_le _
  case even => rfl

/-! ## One sample -/

section sample

variable {info : RedInfo} (haccepted : info.parameters.Accepted)
  (hbounded : info.averageQ.toNat ≤ 256 * 65535)

include haccepted hbounded

theorem averageProducts_lt (sampleLen : UInt16) :
    ∀ p ∈ averageProducts info sampleLen, p < 2 ^ 32 := by
  have hsample := sampleLen.toNat_lt
  have hold : (256 - info.parameters.weight.toNat) * info.averageQ.toNat ≤ 255 * (256 * 65535) :=
    Nat.mul_le_mul (by have := haccepted.weight_pos; omega) hbounded
  have hnew : info.parameters.weight.toNat * sampleLen.toNat ≤ 256 * 65535 :=
    Nat.mul_le_mul haccepted.weight_le (by omega)
  intro p hp
  simp only [averageProducts, List.mem_cons, List.not_mem_nil, or_false] at hp
  rcases hp with rfl | rfl | rfl <;> omega

/-- The machine computes the average without a carry. -/
theorem averageQ_eq (sampleLen : UInt16)
    (hkept : ¬(info.parameters.weight = 256 ∨ info.averageQ = 0)) :
    (random_early_detetction_aq_calc info sampleLen).2.averageQ.toNat =
      average info.parameters.weight.toNat info.averageQ.toNat sampleLen.toNat := by
  have hproducts := averageProducts_lt haccepted hbounded sampleLen
  have hold := hproducts _ (List.mem_cons_of_mem _ (List.mem_cons_self ..))
  have hnew := hproducts _ (List.mem_cons_of_mem _ (List.mem_cons_of_mem _
    (List.mem_cons_self ..)))
  have hle := haccepted.weight_le
  have hsample := sampleLen.toNat_lt
  have hsum : average info.parameters.weight.toNat info.averageQ.toNat sampleLen.toNat ≤
      256 * 65535 :=
    average_le hle hbounded (by omega)
  have hfactor : (256 - info.parameters.weight.toUInt32).toNat =
      256 - info.parameters.weight.toNat :=
    UInt32.toNat_sub_of_le _ _ (UInt32.le_iff_toNat_le.mpr (by simpa using hle))
  have hodd (n : UInt32) : (if n % 2 = 1 then n + 1 else n).toNat =
      (n.toNat + n.toNat % 2) % 2 ^ 32 := by
    have hmod : n % 2 = 1 ↔ n.toNat % 2 = 1 := by
      rw [← UInt32.toNat_inj, UInt32.toNat_mod]
      rfl
    have hlt := n.toNat_lt
    split_ifs with hone
    · rw [UInt32.toNat_add, hmod.mp hone]
      rfl
    · rw [show n.toNat % 2 = 0 by have := mt hmod.mpr hone; omega, Nat.add_zero,
        Nat.mod_eq_of_lt hlt]
  unfold random_early_detetction_aq_calc
  rw [if_neg hkept]
  unfold average at hsum ⊢
  dsimp only at hsum ⊢
  rw [hodd, UInt32.toNat_add, UInt32.toNat_div, UInt32.toNat_mul, UInt32.toNat_mul, hfactor,
    UInt16.toNat_toUInt32, UInt16.toNat_toUInt32, Nat.mod_eq_of_lt hold, Nat.mod_eq_of_lt hnew,
    show (256 : UInt32).toNat = 256 by rfl]
  omega

end sample

@[simp] theorem aq_calc_parameters (info : RedInfo) (sampleLen : UInt16) :
    (random_early_detetction_aq_calc info sampleLen).2.parameters = info.parameters := by
  unfold random_early_detetction_aq_calc
  split_ifs <;> rfl

theorem averageQ_restart {info : RedInfo}
    (h : info.parameters.weight = 256 ∨ info.averageQ = 0) (sampleLen : UInt16) :
    (random_early_detetction_aq_calc info sampleLen).2.averageQ.toNat =
      256 * sampleLen.toNat := by
  have hsample := sampleLen.toNat_lt
  unfold random_early_detetction_aq_calc
  rw [if_pos h, UInt32.toNat_mul, UInt16.toNat_toUInt32, show (256 : UInt32).toNat = 256 by rfl]
  omega

theorem length_toNat {info : RedInfo} (h : info.averageQ.toNat ≤ 256 * 65535) :
    info.length.toNat = info.averageQ.toNat / 256 := by
  unfold RedInfo.length
  rw [UInt32.toNat_toUInt16, UInt32.toNat_div, show (256 : UInt32).toNat = 256 by rfl]
  omega

/-- What is returned is the new average. -/
theorem aq_calc_fst (info : RedInfo) (sampleLen : UInt16) :
    (random_early_detetction_aq_calc info sampleLen).1 =
      (random_early_detetction_aq_calc info sampleLen).2.length := by
  by_cases h : info.parameters.weight = 256 ∨ info.averageQ = 0
  · have haverage := averageQ_restart h sampleLen
    have hsample := sampleLen.toNat_lt
    have hfst : (random_early_detetction_aq_calc info sampleLen).1 = sampleLen := by
      unfold random_early_detetction_aq_calc
      rw [if_pos h]
    apply UInt16.toNat_inj.mp
    rw [hfst, length_toNat (by omega)]
    omega
  · unfold random_early_detetction_aq_calc
    rw [if_neg h]
    rfl

theorem History.Sound.limit {h : History} (hs : h.Sound) :
    h.info.averageQ.toNat ≤ 256 * 65535 := by
  have hlargest := hs.largest
  have hbounded := hs.bounded
  omega

/-- The samples since the restart bound the next average as well. -/
theorem History.Sound.sample {h : History} (hs : h.Sound) (sampleLen : UInt16) {largest : Nat}
    (hlargest : largest =
      if h.info.averageQ = 0 then sampleLen.toNat else max h.largest sampleLen.toNat) :
    History.Sound ⟨(random_early_detetction_aq_calc h.info sampleLen).2, largest⟩ := by
  have hsample : sampleLen.toNat ≤ largest := by
    rw [hlargest]
    split_ifs
    · exact Nat.le_refl _
    · exact Nat.le_max_right _ _
  have hold : h.info.averageQ ≠ 0 → h.largest ≤ largest := by
    intro hne
    rw [hlargest, if_neg hne]
    exact Nat.le_max_left _ _
  have hlimit : largest ≤ 65535 := by
    have hlt := sampleLen.toNat_lt
    have hle := hs.largest
    rw [hlargest]
    split_ifs <;> omega
  have haccepted : (random_early_detetction_aq_calc h.info sampleLen).2.parameters.Accepted := by
    rw [aq_calc_parameters]
    exact hs.accepted
  by_cases hrestart : h.info.parameters.weight = 256 ∨ h.info.averageQ = 0
  · have haverage := averageQ_restart hrestart sampleLen
    exact ⟨haccepted, by dsimp only; omega, hlimit, by dsimp only; omega⟩
  · have haverage := averageQ_eq hs.accepted hs.limit sampleLen hrestart
    have hbounded : h.info.averageQ.toNat ≤ 256 * largest := by
      have hle := hs.bounded
      have hgrown := hold fun hzero => hrestart (Or.inr hzero)
      omega
    have hle := average_le hs.accepted.weight_le hbounded hsample
    have heven := average_even h.info.parameters.weight.toNat h.info.averageQ.toNat sampleLen.toNat
    exact ⟨haccepted, by dsimp only; omega, hlimit, by dsimp only; omega⟩

theorem check_frame (info : RedInfo) (random : UInt16) :
    ∃ count, (random_early_detection_congestion_check info random).2 =
      { info with count := count } := by
  unfold random_early_detection_congestion_check
  dsimp only
  split_ifs <;> exact ⟨_, rfl⟩

theorem History.Sound.step {h : History} (hs : h.Sound) (a : Event) :
    ∃ t, h.step a = some t ∧ t.Sound := by
  cases a with
  | sample sampleLen => exact ⟨_, rfl, hs.sample sampleLen rfl⟩
  | check random =>
      obtain ⟨count, hcount⟩ := check_frame h.info random
      refine ⟨_, rfl, ?_⟩
      rw [hcount]
      exact ⟨hs.accepted, hs.bounded, hs.largest, hs.even⟩

/-- Samples and checks are never refused. -/
theorem History.meets_free (h : History) (as : List Event) :
    Meets History.step (fun _ _ => True) h as := by
  induction as generalizing h with
  | nil => trivial
  | cons a as ih => exact ⟨trivial, fun t _ => ih t⟩

/-! ## A constant sample -/

/-- The queue after a number of samples of one length. -/
def afterSamples (sampleLen : UInt16) (info : RedInfo) : Nat → RedInfo
  | 0 => info
  | n + 1 => (random_early_detetction_aq_calc (afterSamples sampleLen info n) sampleLen).2

/-- From some sample on the average that is returned is the sample. -/
def Settles (info : RedInfo) (sampleLen : UInt16) : Prop :=
  ∃ n, ∀ m, n ≤ m →
    (random_early_detetction_aq_calc (afterSamples sampleLen info m) sampleLen).1 = sampleLen

/-- How far the average is from a sample. -/
def offset (info : RedInfo) (sampleLen : UInt16) : Int :=
  info.averageQ.toNat - 256 * sampleLen.toNat

/-- What the averages of a constant sample keep. -/
structure RedInfo.Regular (info : RedInfo) : Prop where
  accepted : info.parameters.Accepted
  limit : info.averageQ.toNat ≤ 256 * 65535
  even : info.averageQ.toNat % 2 = 0

theorem History.Sound.regular {h : History} (hs : h.Sound) : h.info.Regular :=
  ⟨hs.accepted, hs.limit, hs.even⟩

/-- The average is the sample, up to less than a packet. -/
def Near (info : RedInfo) (sampleLen : UInt16) : Prop :=
  0 ≤ offset info sampleLen ∧ offset info sampleLen < 256

/-- **The condition** for a constant sample: the average is taken anew, or it comes from above
and has a weight or less than a packet to go, or it comes from below and a new sample weighs
at least one half. -/
def Approaches (info : RedInfo) (sampleLen : UInt16) : Prop :=
  info.parameters.weight = 256 ∨ info.averageQ = 0 ∨
    (256 * sampleLen.toNat ≤ info.averageQ.toNat ∧
      (2 ≤ info.parameters.weight.toNat ∨
        info.averageQ.toNat < 256 * (sampleLen.toNat + 1))) ∨
    (info.averageQ.toNat < 256 * sampleLen.toNat ∧ 128 ≤ info.parameters.weight.toNat)

namespace RedInfo.Regular

variable {info : RedInfo} (hr : info.Regular) (sampleLen : UInt16)

include hr

theorem offset_sample :
    offset (random_early_detetction_aq_calc info sampleLen).2 sampleLen =
      if info.parameters.weight = 256 ∨ info.averageQ = 0 then 0
      else drift info.parameters.weight.toNat (offset info sampleLen) := by
  unfold offset
  split_ifs with hrestart
  · have haverage := averageQ_restart hrestart sampleLen
    omega
  · have haverage := averageQ_eq hr.accepted hr.limit sampleLen hrestart
    have hdrift := average_eq_drift hr.accepted.weight_le info.averageQ.toNat sampleLen.toNat
    omega

theorem offset_even : offset info sampleLen % 2 = 0 := by
  have heven := hr.even
  unfold offset
  omega

theorem sample :
    (random_early_detetction_aq_calc info sampleLen).2.Regular := by
  have hsound : History.Sound ⟨info, 65535⟩ :=
    ⟨hr.accepted, hr.limit, Nat.le_refl _, hr.even⟩
  exact (hsound.sample sampleLen rfl).regular

theorem afterSamples (n : Nat) : (afterSamples sampleLen info n).Regular := by
  induction n with
  | zero => exact hr
  | succ n ih => exact ih.sample sampleLen

theorem returned_iff :
    (random_early_detetction_aq_calc info sampleLen).1 = sampleLen ↔
      Near (random_early_detetction_aq_calc info sampleLen).2 sampleLen := by
  have hlimit := (hr.sample sampleLen).limit
  rw [aq_calc_fst, ← UInt16.toNat_inj, length_toNat hlimit]
  unfold Near offset
  omega

theorem near_sample (hnear : Near info sampleLen) :
    Near (random_early_detetction_aq_calc info sampleLen).2 sampleLen := by
  obtain ⟨hlow, hhigh⟩ := hnear
  have hoffset := hr.offset_sample sampleLen
  have hdrift := drift_above (hr.offset_even sampleLen) hr.accepted.weight_le hlow
  unfold Near
  split_ifs at hoffset <;> omega

/-- A sample brings the average nearer. -/
theorem approaches_sample (h : Approaches info sampleLen) (hfar : ¬Near info sampleLen) :
    Approaches (random_early_detetction_aq_calc info sampleLen).2 sampleLen ∧
      (offset (random_early_detetction_aq_calc info sampleLen).2 sampleLen).natAbs <
        (offset info sampleLen).natAbs := by
  have heven := hr.offset_even sampleLen
  have hweight := hr.accepted.weight_le
  have hoffset := hr.offset_sample sampleLen
  have hback : offset (random_early_detetction_aq_calc info sampleLen).2 sampleLen =
      (random_early_detetction_aq_calc info sampleLen).2.averageQ.toNat -
        256 * sampleLen.toNat := rfl
  have hhere : offset info sampleLen = info.averageQ.toNat - 256 * sampleLen.toNat := rfl
  unfold Near at hfar
  unfold Approaches at h ⊢
  rw [aq_calc_parameters]
  split_ifs at hoffset with hrestart
  · constructor
    · right; right; left
      omega
    · omega
  · rcases h with hw | hzero | ⟨habove, hheavy⟩ | ⟨hbelow, hheavy⟩
    · exact absurd (Or.inl hw) hrestart
    · exact absurd (Or.inr hzero) hrestart
    · have hw : 2 ≤ info.parameters.weight.toNat := by omega
      have hbounds := drift_above heven hweight (show 0 ≤ offset info sampleLen by omega)
      have hdown := drift_lt heven hw (show 256 ≤ offset info sampleLen by omega)
      constructor
      · right; right; left
        omega
      · omega
    · have hneg : offset info sampleLen < 0 := by omega
      have hbounds := drift_below heven hweight (Int.le_of_lt hneg)
      have hup := lt_drift heven hheavy hneg
      constructor
      · right; right
        omega
      · omega

/-- Where it does not approach it stays away. -/
theorem away_sample (h : ¬Approaches info sampleLen) :
    ¬Approaches (random_early_detetction_aq_calc info sampleLen).2 sampleLen ∧
      ¬Near (random_early_detetction_aq_calc info sampleLen).2 sampleLen := by
  have heven := hr.offset_even sampleLen
  have hweight := hr.accepted.weight_le
  have hpos := hr.accepted.weight_pos
  have hoffset := hr.offset_sample sampleLen
  have hback : offset (random_early_detetction_aq_calc info sampleLen).2 sampleLen =
      (random_early_detetction_aq_calc info sampleLen).2.averageQ.toNat -
        256 * sampleLen.toNat := rfl
  have hhere : offset info sampleLen = info.averageQ.toNat - 256 * sampleLen.toNat := rfl
  unfold Near
  unfold Approaches at h ⊢
  rw [aq_calc_parameters]
  simp only [not_or] at h
  obtain ⟨hw, hzero, habove, hbelow⟩ := h
  rw [if_neg (not_or.mpr ⟨hw, hzero⟩)] at hoffset
  have hne : (random_early_detetction_aq_calc info sampleLen).2.averageQ = 0 →
      (random_early_detetction_aq_calc info sampleLen).2.averageQ.toNat = 0 := by
    intro heq
    rw [heq]
    rfl
  have hstart : info.averageQ.toNat ≠ 0 := fun heq => hzero (UInt32.toNat_inj.mp heq)
  rcases Int.lt_or_le (offset info sampleLen) 0 with hneg | hnonneg
  · have hlight : info.parameters.weight.toNat < 128 := by omega
    have hbounds := drift_below heven hweight (Int.le_of_lt hneg)
    have hstuck := drift_neg heven hlight hneg
    have hstill : (random_early_detetction_aq_calc info sampleLen).2.averageQ ≠ 0 := by
      intro heq
      have hgone := hne heq
      omega
    constructor
    · simp only [hw, hstill, false_or]
      omega
    · omega
  · have hone : info.parameters.weight.toNat = 1 := by omega
    have hstuck := le_drift_one (show 256 ≤ offset info sampleLen by omega)
    rw [hone] at hoffset
    have hstill : (random_early_detetction_aq_calc info sampleLen).2.averageQ ≠ 0 := by
      intro heq
      have hgone := hne heq
      omega
    constructor
    · simp only [hw, hstill, false_or]
      omega
    · omega

end RedInfo.Regular

theorem afterSamples_succ (sampleLen : UInt16) (info : RedInfo) (n : Nat) :
    afterSamples sampleLen info (n + 1) =
      afterSamples sampleLen (random_early_detetction_aq_calc info sampleLen).2 n := by
  induction n with
  | zero => rfl
  | succ n ih =>
      rw [afterSamples, ih]
      rfl

/-- The induction is on the distance that is left. -/
theorem arrives {sampleLen : UInt16} {bound : Nat} :
    ∀ {info : RedInfo}, info.Regular → Approaches info sampleLen →
      (offset info sampleLen).natAbs < bound →
      ∃ n, Near (afterSamples sampleLen info n) sampleLen := by
  induction bound with
  | zero =>
      intro info _ _ hbound
      exact absurd hbound (Nat.not_lt_zero _)
  | succ bound ih =>
      intro info hr happroaches hbound
      by_cases hnear : Near info sampleLen
      · exact ⟨0, hnear⟩
      · obtain ⟨hnext, hcloser⟩ := hr.approaches_sample sampleLen happroaches hnear
        obtain ⟨n, hn⟩ := ih (hr.sample sampleLen) hnext (by omega)
        exact ⟨n + 1, afterSamples_succ sampleLen info n ▸ hn⟩

theorem near_afterSamples {info : RedInfo} (hr : info.Regular) {sampleLen : UInt16} {n m : Nat}
    (h : Near (afterSamples sampleLen info n) sampleLen) (hle : n ≤ m) :
    Near (afterSamples sampleLen info m) sampleLen := by
  induction hle with
  | refl => exact h
  | step _ ih => exact (hr.afterSamples sampleLen _).near_sample sampleLen ih

/-- **A constant sample** becomes the average exactly where the average approaches it. -/
theorem settles_iff {info : RedInfo} (hr : info.Regular) (sampleLen : UInt16) :
    Settles info sampleLen ↔ Approaches info sampleLen := by
  constructor
  · intro hsettles
    by_contra haway
    obtain ⟨n, hn⟩ := hsettles
    have hstays : ∀ m, ¬Approaches (afterSamples sampleLen info m) sampleLen := by
      intro m
      induction m with
      | zero => exact haway
      | succ m ih => exact ((hr.afterSamples sampleLen m).away_sample sampleLen ih).1
    have hreg := hr.afterSamples sampleLen n
    exact (hreg.away_sample sampleLen (hstays n)).2
      ((hreg.returned_iff sampleLen).mp (hn n (Nat.le_refl n)))
  · intro happroaches
    obtain ⟨n, hn⟩ := arrives hr happroaches (Nat.lt_succ_self _)
    refine ⟨n, fun m hm => ?_⟩
    have hreg := hr.afterSamples sampleLen m
    exact (hreg.returned_iff sampleLen).mpr
      (hreg.near_sample sampleLen (near_afterSamples hr hn hm))

/-! ## Checks -/

/-- How many packets pass before the first drop. -/
def admitted (info : RedInfo) : List UInt16 → Nat
  | [] => 0
  | random :: rest =>
      match random_early_detection_congestion_check info random with
      | (true, _) => 0
      | (false, info') => admitted info' rest + 1

theorem check_below {info : RedInfo} (h : info.length ≤ info.parameters.threshold_min)
    (random : UInt16) : (random_early_detection_congestion_check info random).1 = false := by
  unfold random_early_detection_congestion_check
  rw [if_pos h]

theorem check_over {info : RedInfo} (haccepted : info.parameters.Accepted)
    (h : info.parameters.threshold_max < info.length) (random : UInt16) :
    (random_early_detection_congestion_check info random).1 = true := by
  have hmin : ¬info.length ≤ info.parameters.threshold_min := by
    have hthresholds := haccepted.thresholds
    have hover := UInt16.lt_iff_toNat_lt.mp h
    rw [UInt16.le_iff_toNat_le]
    omega
  unfold random_early_detection_congestion_check
  rw [if_neg hmin, if_pos h]

section checks

variable {info : RedInfo} (haccepted : info.parameters.Accepted) (hbetween : info.Between)

include haccepted hbetween

theorem tempP_toNat :
    info.tempP.toNat = info.parameters.drop_maX_P.toNat * 512 *
        (info.length.toNat - info.parameters.threshold_min.toNat) /
      (info.parameters.threshold_max.toNat - info.parameters.threshold_min.toNat) := by
  obtain ⟨hmin, hmax⟩ := hbetween
  have hmin' := UInt16.lt_iff_toNat_lt.mp hmin
  have hmax' := UInt16.le_iff_toNat_le.mp hmax
  have hlength : (info.length - info.parameters.threshold_min).toNat =
      info.length.toNat - info.parameters.threshold_min.toNat :=
    UInt16.toNat_sub_of_le _ _ (UInt16.le_of_lt hmin)
  have hwidth : (info.parameters.threshold_max - info.parameters.threshold_min).toNat =
      info.parameters.threshold_max.toNat - info.parameters.threshold_min.toNat :=
    UInt16.toNat_sub_of_le _ _ (UInt16.le_of_lt (UInt16.lt_of_lt_of_le hmin hmax))
  have hdrop := haccepted.drop_le
  have hlt := info.length.toNat_lt
  have hprod : info.parameters.drop_maX_P.toNat * 512 *
      (info.length.toNat - info.parameters.threshold_min.toNat) ≤ 51200 * 65535 :=
    Nat.mul_le_mul (by omega) (by omega)
  unfold RedInfo.tempP probScale
  rw [UInt32.toNat_div, UInt32.toNat_mul, UInt32.toNat_mul, UInt8.toNat_toUInt32,
    UInt16.toNat_toUInt32, UInt16.toNat_toUInt32, hlength, hwidth,
    show (512 : UInt32).toNat = 512 by rfl,
    Nat.mod_eq_of_lt (show info.parameters.drop_maX_P.toNat * 512 < 2 ^ 32 by omega),
    Nat.mod_eq_of_lt (by omega)]

theorem tempP_le : info.tempP.toNat ≤ 51200 := by
  have hdrop := haccepted.drop_le
  have hmax := UInt16.le_iff_toNat_le.mp hbetween.2
  rw [tempP_toNat haccepted hbetween]
  refine Nat.div_le_of_le_mul ?_
  rw [Nat.mul_comm (info.parameters.threshold_max.toNat - _)]
  exact Nat.mul_le_mul (by omega) (by omega)

theorem checkProducts_lt : ∀ p ∈ checkProducts info, p < 2 ^ 32 := by
  have hdrop := haccepted.drop_le
  have hlt := info.length.toNat_lt
  have hcount := info.count.toNat_lt
  have htemp := tempP_le haccepted hbetween
  have hprod : info.parameters.drop_maX_P.toNat * 512 *
      (info.length.toNat - info.parameters.threshold_min.toNat) ≤ 51200 * 65535 :=
    Nat.mul_le_mul (by omega) (by omega)
  have hgrown : info.count.toNat * info.tempP.toNat ≤ 65535 * 51200 :=
    Nat.mul_le_mul (by omega) htemp
  intro p hp
  simp only [checkProducts, if_pos hbetween, List.mem_cons, List.not_mem_nil, or_false] at hp
  rcases hp with rfl | rfl | rfl | rfl <;> omega

theorem prob_toNat :
    (info.count.toUInt32 * info.tempP).toNat = info.count.toNat * info.tempP.toNat := by
  have hcount := info.count.toNat_lt
  have hgrown : info.count.toNat * info.tempP.toNat ≤ 65535 * 51200 :=
    Nat.mul_le_mul (by omega) (tempP_le haccepted hbetween)
  rw [UInt32.toNat_mul, UInt16.toNat_toUInt32, Nat.mod_eq_of_lt (by omega)]

theorem checkDivisors_ne_zero : ∀ d ∈ checkDivisors info, d ≠ 0 := by
  have hthresholds := haccepted.thresholds
  intro d hd
  rw [checkDivisors, if_pos hbetween, List.mem_cons] at hd
  rcases hd with rfl | hd
  · omega
  · split_ifs at hd with hfull
    · exact absurd hd (List.not_mem_nil)
    · rw [List.mem_singleton] at hd
      have hlt : info.count.toUInt32 * info.tempP < probScaleMax := UInt32.not_le.mp hfull
      have hlt' := UInt32.lt_iff_toNat_lt.mp hlt
      rw [hd, UInt32.toNat_sub_of_le _ _ (UInt32.le_of_lt hlt)]
      omega

/-- A packet that is admitted between the thresholds is counted. -/
theorem check_admits {random : UInt16} {info' : RedInfo}
    (h : random_early_detection_congestion_check info random = (false, info')) :
    info.count.toNat * info.tempP.toNat < 51200 ∧
      info' = { info with count := info.count + 1 } := by
  have hmin : ¬info.length ≤ info.parameters.threshold_min := UInt16.not_le.mpr hbetween.1
  have hmax : ¬info.parameters.threshold_max < info.length := UInt16.not_lt.mpr hbetween.2
  unfold random_early_detection_congestion_check at h
  rw [if_neg hmin, if_neg hmax] at h
  dsimp only at h
  split_ifs at h with hfull hdraw
  · cases h
  · cases h
  · have hlt := UInt32.lt_iff_toNat_lt.mp (UInt32.not_le.mp hfull)
    rw [prob_toNat haccepted hbetween] at hlt
    cases h
    exact ⟨hlt, rfl⟩

end checks

/-- The packets since the last drop count: each one that passes leaves one less to pass. -/
theorem admitted_le_sub (randoms : List UInt16) :
    ∀ {info : RedInfo}, info.parameters.Accepted → info.Between → info.tempP.toNat ≠ 0 →
      admitted info randoms ≤
        (51200 + info.tempP.toNat - 1) / info.tempP.toNat - info.count.toNat := by
  induction randoms with
  | nil =>
      intro info _ _ _
      exact Nat.zero_le _
  | cons random rest ih =>
      intro info haccepted hbetween hpos
      have hp : 0 < info.tempP.toNat := Nat.pos_of_ne_zero hpos
      cases hcheck : random_early_detection_congestion_check info random with
      | mk dropped info' =>
      cases dropped with
      | true =>
          rw [admitted, hcheck]
          exact Nat.zero_le _
      | false =>
          obtain ⟨hlt, rfl⟩ := check_admits haccepted hbetween hcheck
          have hroom : info.count.toNat + 1 ≤
              (51200 + info.tempP.toNat - 1) / info.tempP.toNat := by
            rw [Nat.le_div_iff_mul_le hp, Nat.add_mul]
            omega
          have hfew : (51200 + info.tempP.toNat - 1) / info.tempP.toNat ≤ 51200 := by
            refine Nat.div_le_of_le_mul ?_
            have := Nat.mul_le_mul_right 51200 hp
            omega
          have hcount : (info.count + 1).toNat = info.count.toNat + 1 := by
            rw [UInt16.toNat_add]
            exact Nat.mod_eq_of_lt (by simp only [UInt16.toNat_one]; omega)
          have hrest := @ih { info with count := info.count + 1 } haccepted hbetween hpos
          have htemp : RedInfo.tempP { info with count := info.count + 1 } = info.tempP := rfl
          rw [htemp, hcount] at hrest
          rw [admitted, hcheck]
          dsimp only
          omega

/-- **Between the thresholds** at most so many packets pass in a row as the base probability
allows. -/
theorem admitted_le {info : RedInfo} (haccepted : info.parameters.Accepted)
    (hbetween : info.Between) (hpos : info.tempP.toNat ≠ 0) (randoms : List UInt16) :
    admitted info randoms ≤ (51200 + info.tempP.toNat - 1) / info.tempP.toNat :=
  Nat.le_trans (admitted_le_sub randoms haccepted hbetween hpos) (Nat.sub_le _ _)

/-! ## The property -/

/-- What random early detection is for, of a queue after a history. -/
structure Works (h : History) (sampleLen random : UInt16) (randoms : List UInt16) : Prop where
  bounded : h.info.averageQ.toNat ≤ 256 * h.largest
  products : ∀ p ∈ averageProducts h.info sampleLen ++ checkProducts h.info, p < 2 ^ 32
  divisors : ∀ d ∈ checkDivisors h.info, d ≠ 0
  settles : Settles h.info sampleLen
  admits : h.info.length ≤ h.info.parameters.threshold_min →
    (random_early_detection_congestion_check h.info random).1 = false
  drops : h.info.parameters.threshold_max < h.info.length →
    (random_early_detection_congestion_check h.info random).1 = true
  between : h.info.parameters.threshold_min < h.info.length →
    h.info.length < h.info.parameters.threshold_max → h.info.tempP.toNat ≠ 0 →
    admitted h.info randoms ≤ (51200 + h.info.tempP.toNat - 1) / h.info.tempP.toNat

/-- **Random early detection** works after every history, but for a constant sample the
average becomes it exactly where it approaches it. -/
theorem works_iff (threshold_min threshold_max : UInt16) (drop_max_p : UInt8) (weight : UInt16)
    (info : RedInfo)
    (hcreate : random_early_detection_create threshold_min threshold_max drop_max_p weight =
      some info)
    (as : List Event) (sampleLen random : UInt16) (randoms : List UInt16) :
    ∃ h, run History.step ⟨info, 0⟩ as = some h ∧
      (Works h sampleLen random randoms ↔ Approaches h.info sampleLen) := by
  obtain ⟨h, hrun, hs⟩ := run_answers History.Sound (fun _ a hs _ => hs.step a)
    (create_sound hcreate) (History.meets_free _ as)
  refine ⟨h, hrun, fun hworks => (settles_iff hs.regular sampleLen).mp hworks.settles, ?_⟩
  intro happroaches
  constructor
  case bounded => exact hs.bounded
  case products =>
    intro p hp
    rcases List.mem_append.mp hp with haverage | hcheck
    · exact averageProducts_lt hs.accepted hs.limit sampleLen p haverage
    · by_cases hbetween : h.info.Between
      · exact checkProducts_lt hs.accepted hbetween p hcheck
      · rw [checkProducts, if_neg hbetween] at hcheck
        exact absurd hcheck (List.not_mem_nil)
  case divisors =>
    by_cases hbetween : h.info.Between
    · exact checkDivisors_ne_zero hs.accepted hbetween
    · rw [checkDivisors, if_neg hbetween]
      exact fun d hd => absurd hd (List.not_mem_nil)
  case settles => exact (settles_iff hs.regular sampleLen).mpr happroaches
  case admits => exact fun hlow => check_below hlow random
  case drops => exact fun hover => check_over hs.accepted hover random
  case between =>
    intro hmin hmax hpos
    exact admitted_le hs.accepted ⟨hmin, UInt16.le_of_lt hmax⟩ hpos randoms

theorem works_small_queue :
    ∃ h, run History.step ⟨⟨⟨64, 32, 96, 10⟩, 0, 0⟩, 0⟩ [.sample 40, .check 7] = some h ∧
      (Works h 40 7 [1, 2] ↔ Approaches h.info 40) :=
  works_iff 32 96 10 64 ⟨⟨64, 32, 96, 10⟩, 0, 0⟩ (by decide) [.sample 40, .check 7] 40 7 [1, 2]

/-- A queue of one packet that grows to two and stays so keeps an average of one. -/
theorem average_stuck :
    ∃ h, run History.step ⟨⟨⟨64, 32, 96, 10⟩, 0, 0⟩, 0⟩ [.sample 1] = some h ∧
      ¬Settles h.info 2 := by
  refine ⟨_, rfl, ?_⟩
  have hregular : RedInfo.Regular
      (random_early_detetction_aq_calc ⟨⟨64, 32, 96, 10⟩, 0, 0⟩ 1).2 :=
    ⟨⟨by decide, by decide, by decide, by decide, by decide⟩, by decide, by decide⟩
  rw [settles_iff hregular]
  unfold Approaches
  decide

end RandomEarlyDetection
