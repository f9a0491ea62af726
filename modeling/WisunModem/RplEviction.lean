import Mathlib.Algebra.GroupWithZero.Nat
import Mathlib.Data.List.TakeWhile
import Mathlib.Tactic.Common

/-!
# The neighbour that is given up

`rpl_instance_choose_worst_neighbour` scans the candidates from the back, where the
non-parents are.  Four criteria are each a pair of tests, one to pass a candidate over and
one to take it; in the pair about the age the two are exchanged, so that of two
candidates the fresh one is given up.
-/

namespace RplEviction

/-- What the scan reads of a `rpl_dodag_version_t`: `dio_timer_params.Imax` of its DODAG. -/
structure DodagVersion where
  imax : UInt16
deriving DecidableEq, Repr

/-- A `rpl_neighbour_t`; `rank` is what the objective functions read. -/
structure Neighbour where
  llAddress : Nat
  dodagVersion : Option DodagVersion
  dodagParent : Bool
  considered : Bool
  daoPathControl : UInt8
  rank : UInt16
  dioTimestamp : UInt32
deriving DecidableEq, Repr

/-- The objective function of the instance. -/
structure Objective where
  neighbourAcceptable : Neighbour → Bool
  pathCost : Neighbour → UInt16

/-- The clock and the policy for the validity of a DIO, in units of 1/256 of Imax. -/
structure Clock where
  monotonicTime : UInt32
  dioValidityPeriod : UInt16

/-- The parents come first. -/
def ParentsFirst (l : List Neighbour) : Prop :=
  l.Pairwise fun a b => b.dodagParent = true → a.dodagParent = true

/-- `candidate_neighbours` of an instance. -/
structure Candidates where
  list : List Neighbour
  parentsFirst : ParentsFirst list

/-- `rpl_create_neighbour`: a new candidate comes behind the parents. -/
def Candidates.rpl_create_neighbour (l : Candidates) (n : Neighbour) : Candidates where
  list := l.list.takeWhile (·.dodagParent)
    ++ { n with dodagParent := false } :: l.list.dropWhile (·.dodagParent)
  parentsFirst := by
    have hsplit := l.parentsFirst
    rw [← List.takeWhile_append_dropWhile (p := (·.dodagParent)) (l := l.list)] at hsplit
    obtain ⟨hfront, hback, hacross⟩ := List.pairwise_append.mp hsplit
    have hparents : ∀ a ∈ l.list.takeWhile (·.dodagParent), a.dodagParent = true := by
      intro a ha
      simpa using List.mem_takeWhile_imp ha
    have hrest : ∀ b ∈ l.list.dropWhile (·.dodagParent), b.dodagParent = false := by
      cases hlist : l.list.dropWhile (·.dodagParent) with
      | nil => simp
      | cons first others =>
        have hfirst : first.dodagParent = false := by
          have hhead := List.head?_dropWhile_not (fun n : Neighbour => n.dodagParent) l.list
          rw [hlist] at hhead
          simpa using hhead
        rw [hlist] at hback
        intro b hb
        rcases List.mem_cons.mp hb with rfl | hb
        · exact hfirst
        · by_contra hparent
          have := (List.pairwise_cons.mp hback).1 b hb (by simpa using hparent)
          rw [hfirst] at this
          cases this
    refine List.pairwise_append.mpr ⟨hfront, List.pairwise_cons.mpr ⟨?_, hback⟩, ?_⟩
    · intro b hb hparent
      rw [hrest b hb] at hparent
      cases hparent
    · intro a ha _ _ _
      exact hparents a ha

/-- `rpl_delete_neighbour`: a candidate leaves the list. -/
def Candidates.rpl_delete_neighbour (l : Candidates) (n : Neighbour) : Candidates where
  list := l.list.erase n
  parentsFirst := l.parentsFirst.sublist List.erase_sublist

section Scan

variable (of : Objective) (clock : Clock)

/-- `rpl_dio_imax_time_calculate`. -/
def rpl_dio_imax_time_calculate (imax fixedPoint : UInt16) : UInt32 :=
  imax.toUInt32 * fixedPoint.toUInt32 / 0x0100

/-- The last DIO is older than the validity period. -/
def old (n : Neighbour) : Bool :=
  match n.dodagVersion with
  | none => true
  | some v => clock.monotonicTime - n.dioTimestamp
      > rpl_dio_imax_time_calculate v.imax clock.dioValidityPeriod

/-- The worst candidate so far, with its two flags. -/
structure Worst where
  neighbour : Neighbour
  acceptable : Bool
  old : Bool

/-- The candidate as the new worst one. -/
def newWorst (n : Neighbour) : Worst := ⟨n, of.neighbourAcceptable n, old clock n⟩

/-- Whether a candidate takes the place of the worst one. -/
def takesOver (n : Neighbour) (worst : Worst) : Bool :=
  if n.dodagVersion.isSome ∧ worst.neighbour.dodagVersion.isNone then false
  else if n.dodagVersion.isNone ∧ worst.neighbour.dodagVersion.isSome then true
  else if of.neighbourAcceptable n ∧ !worst.acceptable then false
  else if !of.neighbourAcceptable n ∧ worst.acceptable then true
  else if old clock n ∧ !worst.old then false
  else if !old clock n ∧ worst.old then true
  else if n.dodagVersion.isSome then !decide (of.pathCost n ≤ of.pathCost worst.neighbour)
  else true

/-- The loop over the candidates from the back. -/
def scan : Worst → List Neighbour → Worst
  | worst, [] => worst
  | worst, n :: rest =>
    if n.dodagParent ∧ !worst.neighbour.dodagParent then worst
    else if takesOver of clock n worst then scan (newWorst of clock n) rest
    else scan worst rest

def rpl_instance_choose_worst_neighbour (l : List Neighbour) : Option Neighbour :=
  match l.reverse with
  | [] => none
  | n :: rest => some (scan of clock (newWorst of clock n) rest).neighbour

/-- The candidate a new one may replace. -/
def rpl_lookup_last_candidate_from_list (l : List Neighbour) : Option Neighbour :=
  (rpl_instance_choose_worst_neighbour of clock l).filter fun n => n.considered && !n.dodagParent

/-- What one call of `rpl_instance_purge` deletes. -/
inductive Purged
  | whole
  | dodag (ref : Nat)
  | neighbour (n : Neighbour)
  | nothing
deriving DecidableEq

/-- `rpl_instance_purge`; the DODAG is that of `rpl_instance_choose_dodag_to_purge`. -/
def rpl_instance_purge (dodagsEmpty : Bool) (dodagToPurge : Option Nat) (l : List Neighbour) :
    Purged :=
  if l = [] ∧ dodagsEmpty then .whole
  else
    match dodagToPurge with
    | some ref => .dodag ref
    | none =>
      match rpl_instance_choose_worst_neighbour of clock l with
      | none => .nothing
      | some n =>
        if n.considered && !n.dodagParent && n.daoPathControl == 0 then .neighbour n else .nothing

/-- The first three criteria: no parent, no DODAG version, not acceptable. -/
def grade (n : Neighbour) : Nat :=
  4 * (!n.dodagParent).toNat + 2 * n.dodagVersion.isNone.toNat
    + (!of.neighbourAcceptable n).toNat

/-- The path cost, which only counts with a version. -/
def cost (n : Neighbour) : Nat :=
  if n.dodagVersion.isSome then (of.pathCost n).toNat else 0

/-- **The documented order**: `m` is a worse candidate than `n`. -/
def Worse (m n : Neighbour) : Prop :=
  grade of n < grade of m ∨ grade of m = grade of n ∧
    (old clock m = true ∧ old clock n = false ∨
      old clock m = old clock n ∧ cost of n < cost of m)

/-- Only the age tells two candidates apart. -/
def OtherwiseEqual (m n : Neighbour) : Prop :=
  grade of m = grade of n ∧ cost of m = cost of n

/-- **The worst candidate is given up**, and so no fresh one for an equal one that is stale. -/
structure EvictsWorst (l : List Neighbour) : Prop where
  finds : rpl_instance_choose_worst_neighbour of clock l = none ↔ l = []
  maximal : ∀ n, rpl_instance_choose_worst_neighbour of clock l = some n →
    n ∈ l ∧ ∀ m ∈ l, ¬ Worse of clock m n
  replaced : ∀ n, rpl_lookup_last_candidate_from_list of clock l = some n → old clock n = false →
    ∀ m ∈ l, OtherwiseEqual of m n → old clock m = false
  purged : ∀ dodagsEmpty dodagToPurge n,
    rpl_instance_purge of clock dodagsEmpty dodagToPurge l = .neighbour n → old clock n = false →
      ∀ m ∈ l, OtherwiseEqual of m n → old clock m = false

/-- No candidate is worse by the first three criteria. -/
def LowestGrade (l : List Neighbour) (n : Neighbour) : Prop :=
  n ∈ l ∧ ∀ m ∈ l, grade of m ≤ grade of n

/-- The candidates that the first three criteria single out are all stale or all fresh. -/
def AgesAgree (l : List Neighbour) : Prop :=
  ∀ m n, LowestGrade of l m → LowestGrade of l n → old clock m = old clock n

variable {of clock} {l : List Neighbour} {m n : Neighbour}

/-- The order of the scan, in which fresh candidates come before stale ones. -/
def scanKey (of : Objective) (clock : Clock) (n : Neighbour) : Nat :=
  (4 * n.dodagVersion.isNone.toNat + 2 * (!of.neighbourAcceptable n).toNat
    + (!old clock n).toNat) * 2 ^ 16 + cost of n

theorem cost_lt (of : Objective) (n : Neighbour) : cost of n < 2 ^ 16 := by
  unfold cost
  split
  · exact (of.pathCost n).toNat_lt
  · decide

/-- Without a version a candidate counts as stale. -/
theorem old_of_none (clock : Clock) (hnone : n.dodagVersion = none) : old clock n = true := by
  simp [old, hnone]

/-- What takes over is no better in the order of the scan, and what does not is no worse. -/
theorem takesOver_spec (of : Objective) (clock : Clock) (m n : Neighbour) :
    if takesOver of clock n (newWorst of clock m) then scanKey of clock m ≤ scanKey of clock n
    else scanKey of clock n ≤ scanKey of clock m := by
  have hm := cost_lt of m
  have hn := cost_lt of n
  have hcost : ∀ k : Neighbour, k.dodagVersion.isSome → cost of k = (of.pathCost k).toNat := by
    intro k hk
    rw [cost, if_pos hk]
  cases hvm : m.dodagVersion with
  | none =>
    have hom := old_of_none clock hvm
    cases hvn : n.dodagVersion with
    | none =>
      have hon := old_of_none clock hvn
      cases ham : of.neighbourAcceptable m <;> cases han : of.neighbourAcceptable n <;>
        simp [scanKey, takesOver, newWorst, hvm, hvn, hom, hon, ham, han, cost]
    | some v =>
      have hlt : scanKey of clock n ≤ scanKey of clock m := by
        have hbits := (!of.neighbourAcceptable n).toNat_le
        have hage := (!old clock n).toNat_le
        simp only [scanKey, hvm, hvn, Option.isNone_none, Option.isNone_some, Bool.toNat_true,
          Bool.toNat_false]
        omega
      simpa [takesOver, newWorst, hvm, hvn] using hlt
  | some u =>
    cases hvn : n.dodagVersion with
    | none =>
      have hlt : scanKey of clock m ≤ scanKey of clock n := by
        have hbits := (!of.neighbourAcceptable m).toNat_le
        have hage := (!old clock m).toNat_le
        simp only [scanKey, hvm, hvn, Option.isNone_none, Option.isNone_some, Bool.toNat_true,
          Bool.toNat_false]
        omega
      simpa [takesOver, newWorst, hvm, hvn] using hlt
    | some v =>
      have hcm := hcost m (by rw [hvm]; rfl)
      have hcn := hcost n (by rw [hvn]; rfl)
      have htie : if of.pathCost m < of.pathCost n then (of.pathCost m).toNat ≤ (of.pathCost n).toNat
          else (of.pathCost n).toNat ≤ (of.pathCost m).toNat := by
        split
        · next hlt => exact Nat.le_of_lt (UInt16.lt_iff_toNat_lt.mp hlt)
        · next hnot => exact UInt16.le_iff_toNat_le.mp (UInt16.not_lt.mp hnot)
      rw [hcm] at hm
      rw [hcn] at hn
      cases ham : of.neighbourAcceptable m <;> cases han : of.neighbourAcceptable n <;>
        cases hom : old clock m <;> cases hon : old clock n <;>
        simp [scanKey, takesOver, newWorst, hvm, hvn, hom, hon, ham, han, hcm, hcn] <;>
        first | exact htie | omega

/-- **The scan.**  From the back of a list with the parents in front, the result is of the
kind of the first one and at the end of the order of the scan among its kind. -/
theorem scan_spec (of : Objective) (clock : Clock) (rest : List Neighbour) :
    ∀ w : Neighbour,
      (w :: rest).Pairwise (fun a b => a.dodagParent = true → b.dodagParent = true) →
      ∃ r, scan of clock (newWorst of clock w) rest = newWorst of clock r ∧ r ∈ w :: rest ∧
        r.dodagParent = w.dodagParent ∧
        ∀ m ∈ w :: rest, m.dodagParent = w.dodagParent → scanKey of clock m ≤ scanKey of clock r := by
  induction rest with
  | nil =>
    intro w _
    refine ⟨w, rfl, List.mem_cons_self .., rfl, ?_⟩
    intro m hmem _
    rw [List.mem_singleton.mp hmem]
  | cons n rest ih =>
    intro w hsorted
    obtain ⟨hw, hrest⟩ := List.pairwise_cons.mp hsorted
    by_cases hstop : n.dodagParent ∧ !(newWorst of clock w).neighbour.dodagParent
    · -- what follows a parent from the back are parents
      have hwfalse : w.dodagParent = false := by simpa [newWorst] using hstop.2
      refine ⟨w, by rw [scan, if_pos hstop], List.mem_cons_self .., rfl, ?_⟩
      intro m hmem hkind
      rcases List.mem_cons.mp hmem with rfl | hmem
      · exact Nat.le_refl _
      have hparent : m.dodagParent = true := by
        rcases List.mem_cons.mp hmem with rfl | hmem
        · exact hstop.1
        · exact (List.pairwise_cons.mp hrest).1 m hmem hstop.1
      rw [hparent, hwfalse] at hkind
      cases hkind
    have hkind : n.dodagParent = w.dodagParent := by
      have hfirst := hw n (List.mem_cons_self ..)
      simp only [newWorst, Bool.not_eq_true'] at hstop
      cases hpn : n.dodagParent <;> cases hpw : w.dodagParent <;> simp_all
    have hspec := takesOver_spec of clock w n
    by_cases htakes : takesOver of clock n (newWorst of clock w) = true
    · rw [if_pos htakes] at hspec
      obtain ⟨r, hscan, hmem, hparent, hmax⟩ := ih n hrest
      refine ⟨r, ?_, List.mem_cons_of_mem _ hmem, hparent.trans hkind, ?_⟩
      · rw [scan, if_neg hstop, if_pos htakes]
        exact hscan
      · intro m hm hmkind
        rcases List.mem_cons.mp hm with rfl | hm
        · exact Nat.le_trans hspec (hmax n (List.mem_cons_self ..) rfl)
        · exact hmax m hm (hmkind.trans hkind.symm)
    · rw [if_neg htakes] at hspec
      have hskip : (w :: rest).Pairwise
          (fun a b => a.dodagParent = true → b.dodagParent = true) := by
        refine List.pairwise_cons.mpr ⟨?_, (List.pairwise_cons.mp hrest).2⟩
        exact fun b hb => hw b (List.mem_cons_of_mem _ hb)
      obtain ⟨r, hscan, hmem, hparent, hmax⟩ := ih w hskip
      refine ⟨r, ?_, ?_, hparent, ?_⟩
      · rw [scan, if_neg hstop, if_neg htakes]
        exact hscan
      · rcases List.mem_cons.mp hmem with rfl | hmem
        · exact List.mem_cons_self ..
        · exact List.mem_cons_of_mem _ (List.mem_cons_of_mem _ hmem)
      · intro m hm hmkind
        rcases List.mem_cons.mp hm with rfl | hm
        · exact hmax m (List.mem_cons_self ..) rfl
        rcases List.mem_cons.mp hm with rfl | hm
        · exact Nat.le_trans hspec (hmax w (List.mem_cons_self ..) rfl)
        · exact hmax m (List.mem_cons_of_mem _ hm) hmkind

/-- **The choice.**  It is a non-parent if there is one, and the last in the order of the scan
among its kind. -/
theorem choose_spec (of : Objective) (clock : Clock) (hfirst : ParentsFirst l) (hne : l ≠ []) :
    ∃ r, rpl_instance_choose_worst_neighbour of clock l = some r ∧ r ∈ l ∧
      (r.dodagParent = true → ∀ m ∈ l, m.dodagParent = true) ∧
      ∀ m ∈ l, m.dodagParent = r.dodagParent → scanKey of clock m ≤ scanKey of clock r := by
  have hback : l.reverse.Pairwise (fun a b => a.dodagParent = true → b.dodagParent = true) :=
    List.pairwise_reverse.mpr hfirst
  unfold rpl_instance_choose_worst_neighbour
  cases hlist : l.reverse with
  | nil => exact absurd (List.reverse_eq_nil_iff.mp hlist) hne
  | cons w rest =>
    rw [hlist] at hback
    obtain ⟨r, hscan, hmem, hparent, hmax⟩ := scan_spec of clock rest w hback
    have hiff : ∀ m, m ∈ l ↔ m ∈ w :: rest := by
      intro m
      rw [← hlist, List.mem_reverse]
    refine ⟨r, ?_, (hiff r).mpr hmem, ?_, ?_⟩
    · simp only [hscan]
      rfl
    · intro hr m hm
      rw [hparent] at hr
      rcases List.mem_cons.mp ((hiff m).mp hm) with rfl | hm
      · exact hr
      · exact (List.pairwise_cons.mp hback).1 m hm hr
    · intro m hm hkind
      exact hmax m ((hiff m).mp hm) (hkind.trans hparent)

/-- The neighbour that is purged is the one that was chosen. -/
theorem chosen_of_purged {dodagsEmpty : Bool} {dodagToPurge : Option Nat}
    (h : rpl_instance_purge of clock dodagsEmpty dodagToPurge l = .neighbour n) :
    rpl_instance_choose_worst_neighbour of clock l = some n := by
  unfold rpl_instance_purge at h
  split at h
  · cases h
  cases dodagToPurge with
  | some ref => cases h
  | none =>
    cases hchosen : rpl_instance_choose_worst_neighbour of clock l with
    | none =>
      simp only [hchosen] at h
      cases h
    | some r =>
      simp only [hchosen] at h
      split at h
      · cases h
        rfl
      · cases h

/-- The parts of the two orders. -/
theorem grade_eq (of : Objective) (n : Neighbour) :
    grade of n = 4 * (!n.dodagParent).toNat
      + (2 * n.dodagVersion.isNone.toNat + (!of.neighbourAcceptable n).toNat) := by
  rw [grade]
  omega

theorem scanKey_eq (of : Objective) (clock : Clock) (n : Neighbour) :
    scanKey of clock n
      = (2 * (2 * n.dodagVersion.isNone.toNat + (!of.neighbourAcceptable n).toNat)
          + (!old clock n).toNat) * 2 ^ 16 + cost of n := by
  rw [scanKey]
  omega

/-- What the choice is among those of its grade. -/
theorem chosen_lowest (hfirst : ParentsFirst l) {r : Neighbour}
    (hchosen : rpl_instance_choose_worst_neighbour of clock l = some r) :
    LowestGrade of l r ∧ ∀ m, LowestGrade of l m →
      (old clock m = false → old clock r = false) ∧
      (old clock m = old clock r → cost of m ≤ cost of r) := by
  have hne : l ≠ [] := by
    rintro rfl
    cases hchosen
  obtain ⟨r', hr', hmem, hparents, hmax⟩ := choose_spec of clock hfirst hne
  rw [hr'] at hchosen
  obtain rfl : r' = r := Option.some.inj hchosen
  have hgrade : ∀ m ∈ l, grade of m ≤ grade of r' := by
    intro m hm
    rw [grade_eq, grade_eq]
    have hbits := (!of.neighbourAcceptable m).toNat_le
    have hnone := m.dodagVersion.isNone.toNat_le
    cases hr : r'.dodagParent with
    | true =>
      have hkey := hmax m hm ((hparents hr m hm).trans hr.symm)
      rw [scanKey_eq, scanKey_eq] at hkey
      have hage := (!old clock r').toNat_le
      have hcost := cost_lt of r'
      rw [hparents hr m hm]
      omega
    | false =>
      cases hp : m.dodagParent with
      | true =>
        simp only [Bool.not_true, Bool.not_false, Bool.toNat_true, Bool.toNat_false]
        omega
      | false =>
        have hkey := hmax m hm (hp.trans hr.symm)
        rw [scanKey_eq, scanKey_eq] at hkey
        have hage := (!old clock r').toNat_le
        have hcost := cost_lt of r'
        omega
  refine ⟨⟨hmem, hgrade⟩, ?_⟩
  intro m hm
  have hsame : grade of m = grade of r' := Nat.le_antisymm (hgrade m hm.1) (hm.2 r' hmem)
  have hkind : m.dodagParent = r'.dodagParent := by
    rw [grade_eq, grade_eq] at hsame
    have hbits := (!of.neighbourAcceptable m).toNat_le
    have hnone := m.dodagVersion.isNone.toNat_le
    have hbits' := (!of.neighbourAcceptable r').toNat_le
    have hnone' := r'.dodagVersion.isNone.toNat_le
    cases hm : m.dodagParent <;> cases hr : r'.dodagParent <;> simp [hm, hr] at hsame ⊢ <;> omega
  have hkey := hmax m hm.1 hkind
  rw [scanKey_eq, scanKey_eq] at hkey
  rw [grade_eq, grade_eq, hkind] at hsame
  have hcost := cost_lt of r'
  have hcost' := cost_lt of m
  constructor
  · intro hfresh
    by_contra hstale
    rw [Bool.not_eq_false] at hstale
    simp only [hfresh, hstale, Bool.not_false, Bool.not_true, Bool.toNat_true,
      Bool.toNat_false] at hkey
    omega
  · intro hage
    rw [hage] at hkey
    omega

/-- **The worst candidate is given up exactly where the ages agree.** -/
theorem evictsWorst_iff (of : Objective) (clock : Clock) (l : Candidates) :
    EvictsWorst of clock l.list ↔ AgesAgree of clock l.list := by
  obtain ⟨l, hfirst⟩ := l
  change EvictsWorst of clock l ↔ AgesAgree of clock l
  constructor
  · intro h m n hm hn
    obtain ⟨r, hr, -⟩ := choose_spec of clock hfirst (List.ne_nil_of_mem hm.1)
    obtain ⟨hlowest, hscan⟩ := chosen_lowest hfirst hr
    -- a stale one of the lowest grade makes the choice stale, and a fresh one fresh
    have hage : ∀ k, LowestGrade of l k → old clock k = old clock r := by
      intro k hk
      cases hold : old clock k with
      | false => exact ((hscan k hk).1 hold).symm
      | true =>
        by_contra hne
        have hfresh : old clock r = false := by
          cases hr : old clock r with
          | false => rfl
          | true => exact absurd hr.symm hne
        refine (h.maximal r hr).2 k hk.1 (.inr ⟨?_, .inl ⟨hold, hfresh⟩⟩)
        exact Nat.le_antisymm (hlowest.2 k hk.1) (hk.2 r hlowest.1)
    rw [hage m hm, hage n hn]
  · intro h
    have hmaximal : ∀ n, rpl_instance_choose_worst_neighbour of clock l = some n →
        n ∈ l ∧ ∀ m ∈ l, ¬ Worse of clock m n := by
      intro n hn
      obtain ⟨hlowest, hscan⟩ := chosen_lowest hfirst hn
      refine ⟨hlowest.1, ?_⟩
      rintro m hm (hgrade | ⟨hgrade, hrest⟩)
      · exact Nat.not_lt_of_le (hlowest.2 m hm) hgrade
      have hmlowest : LowestGrade of l m := ⟨hm, fun k hk => hgrade ▸ hlowest.2 k hk⟩
      have hage := h m n hmlowest hlowest
      rcases hrest with ⟨hold, hfresh⟩ | ⟨-, hcost⟩
      · rw [hold, hfresh] at hage
        cases hage
      · exact Nat.not_lt_of_le ((hscan m hmlowest).2 hage) hcost
    -- what is evicted is the choice, and an equal one that is stale would be worse
    have hkept : ∀ n, rpl_instance_choose_worst_neighbour of clock l = some n →
        old clock n = false → ∀ m ∈ l, OtherwiseEqual of m n → old clock m = false := by
      intro n hn hfresh m hm hequal
      by_contra hold
      exact (hmaximal n hn).2 m hm (.inr ⟨hequal.1, .inl ⟨by simpa using hold, hfresh⟩⟩)
    refine ⟨?_, hmaximal, ?_, ?_⟩
    · constructor
      · intro hnone
        by_contra hne
        obtain ⟨r, hr, -⟩ := choose_spec of clock hfirst hne
        rw [hnone] at hr
        cases hr
      · rintro rfl
        rfl
    · intro n hn
      exact hkept n (Option.filter_eq_some_iff.mp hn).1
    · intro dodagsEmpty dodagToPurge n hn
      exact hkept n (chosen_of_purged hn)

/-- Two non-parents at the end of a list, alike but for the age. -/
def twoCandidates : Candidates where
  list := [⟨1, some ⟨1024⟩, false, true, 0, 256, 9000⟩, ⟨2, some ⟨1024⟩, false, true, 0, 256, 0⟩]
  parentsFirst := by
    refine List.pairwise_pair.mpr ?_
    intro h
    cases h

/-- The one that was heard a thousand seconds ago is given up, and the one of ten thousand
seconds stays. -/
theorem not_evictsWorst :
    ¬ ∀ (of : Objective) (clock : Clock) (l : Candidates), EvictsWorst of clock l.list := by
  intro h
  have hevicts := h ⟨fun _ => true, fun n => n.rank + 128⟩ ⟨10000, 0x0180⟩ twoCandidates
  have hfresh := hevicts.replaced ⟨1, some ⟨1024⟩, false, true, 0, 256, 9000⟩ (by decide) (by decide)
    ⟨2, some ⟨1024⟩, false, true, 0, 256, 0⟩ (by decide) ⟨by decide, by decide⟩
  revert hfresh
  decide

end Scan

end RplEviction
