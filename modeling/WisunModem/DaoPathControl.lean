import Mathlib.Data.UInt
import Mathlib.Tactic.Common

/-!
# Path control

`rpl_downward_convert_dodag_preferences_to_dao_path_control` hands the bits of the path
control field to the DAO parents, in the order of the list, two bits to a subfield.  A
parent whose successor is less preferred takes the rest of its subfield, so that the
successor starts a new one.  Parents without a global address are passed over, but the
look at the successor does not pass over them.
-/

namespace RplDao

/-- The Mode of Operation of a DODAG. -/
inductive Mop
  | noDownward
  | nonStoring
  | storing
  | storingMulticast
deriving DecidableEq, Repr

/-- What is read of a `rpl_neighbour_t`. -/
structure Neighbour where
  dodagParent : Bool
  dodagPref : Nat
  haveGlobalAddress : Bool
  globalAddress : Vector UInt8 16
  daoPathControl : UInt8
deriving DecidableEq, Repr

/-- `PCBIT`. -/
def PCBIT (n : Nat) : UInt8 := 0x80 >>> UInt8.ofNat n

/-- `PCSMASK`, the subtraction in 8 bits. -/
def PCSMASK (pcs : Fin 8) : UInt8 := 0 - PCBIT pcs

section

variable (mop : Mop) (pcs : Fin 8)

/-- A parent that takes part: in non-storing mode its global address has to be known. -/
def eligible (n : Neighbour) : Bool := n.haveGlobalAddress || mop != .nonStoring

/-- The neighbour gets one more bit. -/
def Neighbour.give (n : Neighbour) (bit : Nat) : Neighbour :=
  { n with daoPathControl := n.daoPathControl ||| PCBIT bit }

/-- The bits from `bit` on for the final neighbour. -/
def Neighbour.expand (n : Neighbour) (bit : Nat) : Neighbour :=
  (List.range' bit (pcs + 1 - bit)).foldl Neighbour.give n

/-- The bit behind a neighbour that got `bit`: the second one of the subfield is taken too
if the next parent is less preferred. -/
def nextBit (n : Neighbour) (rest : List Neighbour) (bit : Nat) : Nat :=
  match rest.head?.filter (·.dodagParent) with
  | some next => if bit + 1 ≤ pcs ∧ n.dodagPref < next.dodagPref ∧ (bit + 1) % 2 = 1 then bit + 2
      else bit + 1
  | none => bit + 1

/-- The loop from the neighbour `i` on; it ends with the next bit and the last neighbour
that got one. -/
def assign (i bit : Nat) (last : Option Nat) : List Neighbour → List Neighbour × Nat × Option Nat
  | [] => ([], bit, last)
  | n :: rest =>
      if n.dodagParent && decide (bit ≤ pcs) then
        if !eligible mop n then
          let r := assign (i + 1) bit last rest
          (n :: r.1, r.2)
        else
          let given : Neighbour := { n with daoPathControl := PCBIT bit }
          let given := if nextBit pcs n rest bit = bit + 2 then given.give (bit + 1) else given
          let r := assign (i + 1) (nextBit pcs n rest bit) (some i) rest
          (given :: r.1, r.2)
      else (n :: rest, bit, last)

def rpl_downward_convert_dodag_preferences_to_dao_path_control (l : List Neighbour) :
    List Neighbour :=
  if mop = .noDownward then l
  else
    match assign mop pcs 0 0 none l with
    | (l, bit, some last) => l.modify last fun n => n.expand pcs bit
    | (l, _, none) => l

/-! ## What the assignment is for -/

/-- Bit `n` of the field, from the left. -/
def has (pathControl : UInt8) (n : Nat) : Bool := pathControl &&& PCBIT n ≠ 0

/-- The bit at which the turn of each neighbour comes when every preference starts a new
subfield and parents that do not take part do not count. -/
def places : Nat → List Neighbour → List Nat
  | _, [] => []
  | bit, n :: rest =>
      let next :=
        if eligible mop n then
          match rest.find? (eligible mop) with
          | some b => if n.dodagPref < b.dodagPref ∧ (bit + 1) % 2 = 1 then bit + 2 else bit + 1
          | none => bit + 1
        else bit
      bit :: places next rest

/-- The DAO parents, which come first. -/
def parents (l : List Neighbour) : List Neighbour := l.takeWhile (·.dodagParent)

/-- **The assignment of path control.** -/
structure Assigned (l out : List Neighbour) : Prop where
  same : out.map (fun n => { n with daoPathControl := 0 })
    = l.map fun n => { n with daoPathControl := 0 }
  disjoint : out.Pairwise fun a b => a.daoPathControl &&& b.daoPathControl = 0
  all : (∃ n ∈ parents l, eligible mop n = true) →
    out.foldl (fun mask n => mask ||| n.daoPathControl) 0 = PCSMASK pcs
  order : ∀ a ∈ out, ∀ b ∈ out, a.dodagPref < b.dodagPref → ∀ i < 8, ∀ j < 8,
    has a.daoPathControl i = true → has b.daoPathControl j = true → i / 2 ≤ j / 2
  share : ∀ (x y : Nat) (a b : Neighbour), out[x]? = some a → out[y]? = some b → a.dodagPref < b.dodagPref →
    ∀ i < 8, ∀ j < 8, has a.daoPathControl i = true → has b.daoPathControl j = true →
    i / 2 = j / 2 → ∀ place, (places mop 0 (parents l))[y]? = some place →
      (pcs : Nat) < place

/-- **The condition.**  Where a parent at the first bit of a subfield is the last one of its
preference, and there are bits for another subfield, the next parent is not one of the same
preference that does not take part. -/
def LooksAhead (l : List Neighbour) : Prop :=
  ∀ (front : List Neighbour) (a c : Neighbour) (back : List Neighbour) (b : Neighbour)
    (place : Nat), parents l = front ++ a :: c :: back →
    eligible mop a = true → eligible mop c = false → c.dodagPref = a.dodagPref →
    back.find? (eligible mop) = some b → a.dodagPref < b.dodagPref →
    (places mop 0 (parents l))[front.length]? = some place → place % 2 = 0 →
    (pcs : Nat) < place + 2

/-- The candidates as parent selection leaves them: parents first, in the order of their
preference, and no path control yet. -/
structure Selected (l : List Neighbour) : Prop where
  parentsFirst : l.Pairwise fun a b => b.dodagParent = true → a.dodagParent = true
  byPreference : (parents l).Pairwise fun a b => a.dodagPref ≤ b.dodagPref
  cleared : ∀ n ∈ l, n.daoPathControl = 0

end

/-! ## Bits -/

set_option maxRecDepth 8000 in
theorem has_eq_testBit (a : UInt8) {i : Nat} (hi : i < 8) : has a i = a.toNat.testBit (7 - i) := by
  have hall : ∀ n < 256, ∀ i < 8, has (.ofNat n) i = n.testBit (7 - i) := by decide
  have ha := hall a.toNat a.toNat_lt i hi
  rwa [UInt8.ofNat_toNat] at ha

/-- A field is told by its bits. -/
theorem eq_of_has {a b : UInt8} (h : ∀ i < 8, has a i = has b i) : a = b := by
  refine UInt8.toNat_inj.mp (Nat.eq_of_testBit_eq fun k => ?_)
  by_cases hk : k < 8
  · have hbit := h (7 - k) (by omega)
    rw [has_eq_testBit a (by omega), has_eq_testBit b (by omega)] at hbit
    rwa [show 7 - (7 - k) = k by omega] at hbit
  · have ha : a.toNat < 2 ^ k := a.toNat_lt.trans_le (Nat.pow_le_pow_right (by omega) (by omega))
    have hb : b.toNat < 2 ^ k := b.toNat_lt.trans_le (Nat.pow_le_pow_right (by omega) (by omega))
    rw [Nat.testBit_lt_two_pow ha, Nat.testBit_lt_two_pow hb]

theorem has_or (a b : UInt8) {i : Nat} (hi : i < 8) : has (a ||| b) i = (has a i || has b i) := by
  rw [has_eq_testBit _ hi, has_eq_testBit _ hi, has_eq_testBit _ hi, UInt8.toNat_or,
    Nat.testBit_or]

theorem has_and (a b : UInt8) {i : Nat} (hi : i < 8) : has (a &&& b) i = (has a i && has b i) := by
  rw [has_eq_testBit _ hi, has_eq_testBit _ hi, has_eq_testBit _ hi, UInt8.toNat_and,
    Nat.testBit_and]

theorem has_not (a : UInt8) {i : Nat} (hi : i < 8) : has (~~~a) i = !has a i := by
  have hlt := a.toNat_lt
  rw [has_eq_testBit _ hi, has_eq_testBit _ hi, UInt8.toNat_not,
    show UInt8.size - 1 - a.toNat = 2 ^ 8 - (a.toNat + 1) by simp only [UInt8.size]; omega,
    Nat.testBit_two_pow_sub_succ hlt, decide_eq_true (by omega), Bool.true_and]

theorem has_PCBIT {b i : Nat} (hb : b < 8) (hi : i < 8) : has (PCBIT b) i = decide (b = i) := by
  have hall : ∀ b < 8, ∀ i < 8, has (PCBIT b) i = decide (b = i) := by decide
  exact hall b hb i hi

theorem has_PCSMASK (pcs : Fin 8) {i : Nat} (hi : i < 8) :
    has (PCSMASK pcs) i = decide (i ≤ pcs) := by
  have hall : ∀ pcs : Fin 8, ∀ i < 8, has (PCSMASK pcs) i = decide (i ≤ pcs) := by decide
  exact hall pcs i hi

theorem has_zero (i : Nat) : has 0 i = false := by
  unfold has
  rw [UInt8.zero_and]
  rfl

/-- Fields without a common bit. -/
theorem and_eq_zero_of_has {a b : UInt8} (h : ∀ i < 8, has a i = true → has b i = false) :
    a &&& b = 0 := by
  refine eq_of_has fun i hi => ?_
  rw [has_zero, has_eq_testBit _ hi, UInt8.toNat_and, Nat.testBit_and, ← has_eq_testBit a hi,
    ← has_eq_testBit b hi]
  cases ha : has a i with
  | false => rfl
  | true => rw [h i hi ha]; rfl

/-- The bits a neighbour has after it got all from `bit` on. -/
theorem has_expand (pcs : Fin 8) (n : Neighbour) (bit : Nat) {i : Nat} (hi : i < 8) :
    has (n.expand pcs bit).daoPathControl i
      = (has n.daoPathControl i || decide (bit ≤ i ∧ i ≤ pcs)) := by
  have hfold : ∀ (bits : List Nat) (n : Neighbour), (∀ b ∈ bits, b < 8) →
      has (bits.foldl Neighbour.give n).daoPathControl i
        = (has n.daoPathControl i || bits.contains i) := by
    intro bits
    induction bits with
    | nil => simp
    | cons b bits ih =>
      intro n hb
      rw [List.foldl_cons, ih _ fun c hc => hb c (List.mem_cons_of_mem _ hc), Neighbour.give,
        has_or _ _ hi, has_PCBIT (hb b List.mem_cons_self) hi, List.contains_cons, Bool.or_assoc]
      congr 2
      exact Bool.eq_iff_iff.mpr (by rw [decide_eq_true_eq, beq_iff_eq]; exact eq_comm)
  unfold Neighbour.expand
  rw [hfold _ _ fun b hb => ?_]
  · congr 1
    refine Bool.eq_iff_iff.mpr ?_
    rw [List.contains_iff_mem, List.mem_range'_1, decide_eq_true_eq]
    omega
  · rw [List.mem_range'_1] at hb
    omega

end RplDao
