import WisunModem.RadiusIds

/-!
# Hold times of RADIUS identifiers

A range whose countdown is zero was left, or not used, for its hold time.  So where no
client takes a range that another still has, and none goes without a range, the
identifiers of two clients differ and hold times are kept.  A client that pauses longer
than its countdown, and one that finds no range, break both.
-/

namespace Radius

/-- The identifier lies in this range. -/
def InBlock (idRange : Nat) (id : UInt8) : Prop :=
  idRange * idRangeSize ≤ id.toNat ∧ id.toNat < idRange * idRangeSize + idRangeSize

instance (idRange : Nat) (id : UInt8) : Decidable (InBlock idRange id) :=
  inferInstanceAs (Decidable (_ ∧ _))

/-- The hold time of an entry has passed `now`: that of a use, or that of the range the
owner left behind it. -/
def Passed (log : List Entry) (x : Entry) (now : Nat) : Prop :=
  match x.used with
  | none => x.time + idTimeout / 5 ≤ now
  | some _ => x.time + idTimeout ≤ now ∨ ∃ z ∈ log, z.used = none ∧ z.owner = x.owner ∧
      z.conn = x.conn ∧ z.range = x.range ∧ x.time ≤ z.time ∧ z.time + idTimeout / 5 ≤ now

/-- Another client uses an identifier of a range only behind the hold time. -/
def Respects (log : List Entry) (x y : Entry) : Prop :=
  ∀ id, y.used = some id → x.owner ≠ y.owner → x.conn = y.conn → InBlock x.range id →
    Passed log x y.time

section

variable {log log' : List Entry} {x y : Entry} {now : Nat}

theorem Passed.mono (h : Passed log x now) (hlog : log ⊆ log') {later : Nat} (hle : now ≤ later) :
    Passed log' x later := by
  unfold Passed at h ⊢
  cases hused : x.used with
  | none =>
      rw [hused] at h
      exact le_trans h hle
  | some id =>
      rw [hused] at h
      rcases h with h | ⟨z, hz, hnone, howner, hconn, hrange, htime, hpassed⟩
      · exact .inl (le_trans h hle)
      · exact .inr ⟨z, hlog hz, hnone, howner, hconn, hrange, htime, le_trans hpassed hle⟩

theorem Respects.mono (h : Respects log x y) (hlog : log ⊆ log') : Respects log' x y :=
  fun id hid howner hconn hblock => (h id hid howner hconn hblock).mono hlog (le_refl _)

/-- Where a range is left, what its owner used waits for nothing but that. -/
theorem Passed.of_leave {z : Entry} (hz : z ∈ log) (hnone : z.used = none)
    (howner : z.owner = x.owner) (hconn : z.conn = x.conn) (hrange : z.range = x.range)
    (htime : x.time ≤ z.time) (hused : x.used ≠ none) (hnow : z.time + idTimeout / 5 ≤ now) :
    Passed log x now := by
  unfold Passed
  cases hx : x.used with
  | none => exact absurd hx hused
  | some id => exact .inr ⟨z, hz, hnone, howner, hconn, hrange, htime, hnow⟩

theorem InBlock.eq {r r' : Nat} {id : UInt8} (h : InBlock r id) (h' : InBlock r' id) : r = r' := by
  unfold InBlock idRangeSize at h h'
  omega

end

/-! ## Allocation -/

section

variable {shared : Shared} {data : Client} {value : UInt8} {connNum idRange : Nat}

theorem mem_ranges : (connNum, idRange) ∈ ranges ↔ connNum < connNumber ∧ idRange < idRangeNum := by
  simp [ranges]

theorem freeRange_spec (h : freeRange shared = some (connNum, idRange)) :
    (connNum, idRange) ∈ ranges ∧ shared.radiusIdentifierTimer connNum idRange = 0 :=
  ⟨List.mem_of_find?_eq_some h, by simpa using List.find?_some h⟩

theorem allocate_stay (h : ¬data.NeedsRange value) :
    radius_client_sec_prot_identifier_allocate shared data value =
      (radius_identifier_timer_value_set shared data.radiusIdConnNum data.radiusIdRange idTimeout,
        data, value + 1) :=
  if_neg h

theorem allocate_move (h : data.NeedsRange value) (hfree : freeRange shared = some (connNum, idRange)) :
    radius_client_sec_prot_identifier_allocate shared data value =
      (radius_identifier_timer_value_set
          (if data.radiusIdRangeSet then
            radius_identifier_timer_value_set shared data.radiusIdConnNum data.radiusIdRange
              (idTimeout / 5)
          else shared) connNum idRange idTimeout,
        { data with
          radiusIdConnNum := connNum
          radiusIdRange := idRange
          radiusIdRangeSet := true },
        (idRange * idRangeSize).toUInt8) := by
  unfold radius_client_sec_prot_identifier_allocate
  rw [if_pos h, hfree]

/-- The first identifier of a range. -/
theorem inBlock_first (h : idRange < idRangeNum) :
    InBlock idRange (idRange * idRangeSize).toUInt8 := by
  have hval : (idRange * idRangeSize).toUInt8.toNat = idRange * idRangeSize := by
    unfold idRangeNum idRangeSize at *
    rw [Nat.toUInt8_eq, UInt8.toNat_ofNat']
    omega
  unfold InBlock
  rw [hval]
  unfold idRangeSize
  omega

/-- The next one, in a range that is not used up. -/
theorem inBlock_next (hrange : data.radiusIdRange < idRangeNum) (h : ¬data.NeedsRange value)
    (hblock : InBlock data.radiusIdRange value) : InBlock data.radiusIdRange (value + 1) := by
  unfold Client.NeedsRange at h
  unfold InBlock at hblock ⊢
  unfold idRangeNum idRangeSize at *
  have hone : (1 : UInt8).toNat = 1 := rfl
  rw [UInt8.toNat_add, hone]
  omega

end

namespace State

variable {s t : State}

/-! ## Ownership -/

/-- Ranges have one owner, and hold times are kept. -/
structure Owned (s : State) : Prop where
  stopped : s.shared.radiusIdTimerRunning = false →
    ∀ c r, s.shared.radiusIdentifierTimer c r = 0
  listed : ∀ c r, s.shared.radiusIdentifierTimer c r ≠ 0 → (c, r) ∈ ranges
  bounded : ∀ c r, s.shared.radiusIdentifierTimer c r ≤ idTimeout
  reserved : ∀ owner p, s.prots owner = some p → p.data.radiusIdRangeSet →
    (p.data.radiusIdConnNum, p.data.radiusIdRange) ∈ ranges ∧
      InBlock p.data.radiusIdRange p.data.radiusIdentifier
  outstanding : ∀ owner p, s.prots owner = some p → p.outstanding → p.data.radiusIdRangeSet
  distinct : ∀ i j c r, s.Holds i c r → s.Holds j c r → i = j
  times : ∀ x ∈ s.log, x.time ≤ s.clock
  pending : ∀ x ∈ s.log,
    Passed s.log x (s.clock + s.shared.radiusIdentifierTimer x.conn x.range)
  done : ∀ owner c r, s.Holds owner c r → ∀ x ∈ s.log, x.conn = c → x.range = r →
    x.owner ≠ owner ∨ x.used = none → Passed s.log x s.clock
  blocks : ∀ x ∈ s.log, ∀ id, x.used = some id → InBlock x.range id
  pairs : s.log.Pairwise (Respects s.log)

theorem start_owned : Owned start where
  stopped := fun _ _ _ => rfl
  listed := fun _ _ h => absurd rfl h
  bounded := fun _ _ => Nat.zero_le _
  reserved := by
    intro owner p h
    cases h
  outstanding := by
    intro owner p h
    cases h
  distinct := by
    intro i j c r h
    obtain ⟨p, hp, -⟩ := h
    cases hp
  times := by
    intro x hx
    cases hx
  pending := by
    intro x hx
    cases hx
  done := by
    intro owner c r h
    obtain ⟨p, hp, -⟩ := h
    cases hp
  blocks := by
    intro x hx
    cases hx
  pairs := List.Pairwise.nil

/-- The clients may only have fewer ranges. -/
theorem Owned.fewer (h : s.Owned) {owner : Nat} {prot : Option Prot}
    (hprot : ∀ p, prot = some p → (p.data.radiusIdRangeSet = false ∧ p.outstanding = false) ∨
      ∃ q, s.prots owner = some q ∧ p.data = q.data ∧ (p.outstanding → q.outstanding)) :
    Owned (s.setProt owner prot) := by
  have hprots : ∀ other p, (s.setProt owner prot).prots other = some p →
      (p.data.radiusIdRangeSet = false ∧ p.outstanding = false) ∨
        ∃ q, s.prots other = some q ∧ p.data = q.data ∧ (p.outstanding → q.outstanding) := by
    intro other p hp
    by_cases hother : other = owner
    · subst hother
      have hself : (s.setProt other prot).prots other = prot := Function.update_self ..
      exact hprot p (hself.symm.trans hp)
    · have hsame : (s.setProt owner prot).prots other = s.prots other :=
        Function.update_of_ne hother ..
      rw [hsame] at hp
      exact .inr ⟨p, hp, rfl, fun h => h⟩
  have hholds : ∀ other c r, (s.setProt owner prot).Holds other c r → s.Holds other c r := by
    intro other c r hhold
    obtain ⟨p, hp, hset, hconn, hrange⟩ := hhold
    rcases hprots other p hp with ⟨hnot, -⟩ | ⟨q, hq, hdata, -⟩
    · rw [hnot] at hset
      cases hset
    · exact ⟨q, hq, hdata ▸ hset, hdata ▸ hconn, hdata ▸ hrange⟩
  refine ⟨h.stopped, h.listed, h.bounded, ?_, ?_, ?_, h.times, h.pending, ?_, h.blocks, h.pairs⟩
  · intro other p hp hset
    rcases hprots other p hp with ⟨hnot, -⟩ | ⟨q, hq, hdata, -⟩
    · rw [hnot] at hset
      cases hset
    · rw [hdata] at hset ⊢
      exact h.reserved other q hq hset
  · intro other p hp hout
    rcases hprots other p hp with ⟨-, hnot⟩ | ⟨q, hq, hdata, himp⟩
    · rw [hnot] at hout
      cases hout
    · rw [hdata]
      exact h.outstanding other q hq (himp hout)
  · intro i j c r hi hj
    exact h.distinct i j c r (hholds i c r hi) (hholds j c r hj)
  · intro other c r hhold
    exact h.done other c r (hholds other c r hhold)

/-- **Time goes by.** -/
theorem Owned.tick (h : s.Owned) (ticks : Nat) :
    Owned { s with
      shared := radius_client_sec_prot_shared_data_timeout s.shared ticks
      clock := s.clock + ticks } := by
  have htimer : ∀ c r, (radius_client_sec_prot_shared_data_timeout s.shared
      ticks).radiusIdentifierTimer c r = s.shared.radiusIdentifierTimer c r - ticks := by
    intro c r
    unfold radius_client_sec_prot_shared_data_timeout
    cases hrun : s.shared.radiusIdTimerRunning with
    | false =>
        have hzero := h.stopped hrun c r
        simp only [Bool.not_false, if_true]
        omega
    | true =>
        simp only [Bool.not_true, Bool.false_eq_true, if_false]
        split <;> omega
  constructor
  case stopped =>
    intro hstop c r
    rw [htimer]
    unfold radius_client_sec_prot_shared_data_timeout at hstop
    cases hrun : s.shared.radiusIdTimerRunning with
    | false =>
        have hzero := h.stopped hrun c r
        omega
    | true =>
        simp only [hrun, Bool.not_true, Bool.false_eq_true, if_false, List.any_eq_false,
          decide_eq_true_eq, Nat.not_lt] at hstop
        by_cases hzero : s.shared.radiusIdentifierTimer c r = 0
        · omega
        · exact Nat.sub_eq_zero_of_le (hstop (c, r) (h.listed c r hzero))
  case listed =>
    intro c r hne
    rw [htimer] at hne
    exact h.listed c r (by omega)
  case bounded =>
    intro c r
    have hle := h.bounded c r
    rw [htimer]
    omega
  case reserved => exact h.reserved
  case outstanding => exact h.outstanding
  case distinct => exact h.distinct
  case times => exact fun x hx => (h.times x hx).trans (Nat.le_add_right _ _)
  case pending =>
    intro x hx
    refine (h.pending x hx).mono (List.Subset.refl _) ?_
    rw [htimer]
    dsimp only
    omega
  case done =>
    intro owner c r hhold x hx hconn hrange hor
    exact (h.done owner c r hhold x hx hconn hrange hor).mono (List.Subset.refl _)
      (Nat.le_add_right _ _)
  case blocks => exact h.blocks
  case pairs => exact h.pairs

/-! ## Countdowns -/

theorem timer_set_self (shared : Shared) (c r value : Nat) :
    (radius_identifier_timer_value_set shared c r value).radiusIdentifierTimer c r = value :=
  if_pos ⟨rfl, rfl⟩

theorem timer_set_of_ne (shared : Shared) {c r c' r' : Nat} (value : Nat)
    (h : ¬(c' = c ∧ r' = r)) :
    (radius_identifier_timer_value_set shared c r value).radiusIdentifierTimer c' r' =
      shared.radiusIdentifierTimer c' r' :=
  if_neg h

/-- A countdown that is set to a value in bounds. -/
theorem Owned.timer_set (h : s.Owned) {c r value : Nat} (hmem : (c, r) ∈ ranges)
    (hvalue : value ≤ idTimeout) :
    (∀ c' r', (radius_identifier_timer_value_set s.shared c r value).radiusIdentifierTimer c' r' ≠ 0 →
      (c', r') ∈ ranges) ∧
    ∀ c' r', (radius_identifier_timer_value_set s.shared c r value).radiusIdentifierTimer c' r' ≤
      idTimeout := by
  refine ⟨fun c' r' hne => ?_, fun c' r' => ?_⟩
  · by_cases hsame : c' = c ∧ r' = r
    · rw [hsame.1, hsame.2]
      exact hmem
    · rw [timer_set_of_ne s.shared value hsame] at hne
      exact h.listed c' r' hne
  · by_cases hsame : c' = c ∧ r' = r
    · rw [hsame.1, hsame.2, timer_set_self]
      exact hvalue
    · rw [timer_set_of_ne s.shared value hsame]
      exact h.bounded c' r'

/-! ## Leaving a range -/

/-- A client goes and leaves its range. -/
def leave (s : State) (owner : Nat) (data : Client) : State :=
  { s.setProt owner none with
    shared := radius_identifier_timer_value_set s.shared data.radiusIdConnNum data.radiusIdRange
      (idTimeout / 5)
    log := s.log ++ [s.leaves owner data] }

theorem Owned.leave (h : s.Owned) {owner : Nat} {p : Prot} (hp : s.prots owner = some p)
    (hset : p.data.radiusIdRangeSet) : Owned (s.leave owner p.data) := by
  have hfewer : Owned (s.setProt owner none) := h.fewer fun q hq => by cases hq
  obtain ⟨hmem, -⟩ := h.reserved owner p hp hset
  obtain ⟨hlisted, hbounded⟩ := h.timer_set hmem (Nat.div_le_self idTimeout 5)
  have hsub : s.log ⊆ s.log ++ [s.leaves owner p.data] := List.subset_append_left _ _
  have hlast : s.leaves owner p.data ∈ s.log ++ [s.leaves owner p.data] :=
    List.mem_append_right _ List.mem_cons_self
  have hholds : s.Holds owner p.data.radiusIdConnNum p.data.radiusIdRange :=
    ⟨p, hp, hset, rfl, rfl⟩
  constructor
  case stopped => exact fun hstop => by cases hstop
  case listed => exact hlisted
  case bounded => exact hbounded
  case reserved => exact hfewer.reserved
  case outstanding => exact hfewer.outstanding
  case distinct => exact hfewer.distinct
  case times =>
    intro x hx
    rcases List.mem_append.mp hx with hx | hx
    · exact h.times x hx
    · obtain rfl := List.mem_singleton.mp hx
      exact le_refl _
  case pending =>
    intro x hx
    change Passed (s.log ++ _) x (s.clock + _)
    by_cases hsame : x.conn = p.data.radiusIdConnNum ∧ x.range = p.data.radiusIdRange
    · rw [hsame.1, hsame.2]
      change Passed (s.log ++ _) x (s.clock +
        (radius_identifier_timer_value_set s.shared p.data.radiusIdConnNum p.data.radiusIdRange
          (idTimeout / 5)).radiusIdentifierTimer p.data.radiusIdConnNum p.data.radiusIdRange)
      rw [timer_set_self]
      rcases List.mem_append.mp hx with hx | hx
      · by_cases hother : x.owner ≠ owner ∨ x.used = none
        · exact (h.done owner _ _ hholds x hx hsame.1 hsame.2 hother).mono hsub
            (Nat.le_add_right _ _)
        · rw [not_or, not_not] at hother
          exact Passed.of_leave hlast rfl hother.1.symm hsame.1.symm hsame.2.symm (h.times x hx)
            hother.2 (le_refl _)
      · obtain rfl := List.mem_singleton.mp hx
        exact le_refl (s.clock + idTimeout / 5)
    · have htimer := timer_set_of_ne s.shared (idTimeout / 5) hsame
      change Passed (s.log ++ _) x (s.clock +
        (radius_identifier_timer_value_set s.shared p.data.radiusIdConnNum p.data.radiusIdRange
          (idTimeout / 5)).radiusIdentifierTimer x.conn x.range)
      rw [htimer]
      rcases List.mem_append.mp hx with hx | hx
      · exact (h.pending x hx).mono hsub (le_refl _)
      · obtain rfl := List.mem_singleton.mp hx
        exact absurd ⟨rfl, rfl⟩ hsame
  case done =>
    intro other c r hhold x hx hconn hrange hor
    have hhold' := hhold
    obtain ⟨q, hq, hqset, hqconn, hqrange⟩ := hhold
    have hother : other ≠ owner := by
      rintro rfl
      have hnone : (s.leave other p.data).prots other = none := Function.update_self ..
      rw [hnone] at hq
      cases hq
    have hq' : s.prots other = some q := by
      have hsame : (s.leave owner p.data).prots other = s.prots other :=
        Function.update_of_ne hother ..
      exact hsame.symm.trans hq
    have hheld : s.Holds other c r := ⟨q, hq', hqset, hqconn, hqrange⟩
    rcases List.mem_append.mp hx with hx | hx
    · exact (h.done other c r hheld x hx hconn hrange hor).mono hsub (le_refl _)
    · obtain rfl := List.mem_singleton.mp hx
      change p.data.radiusIdConnNum = c at hconn
      change p.data.radiusIdRange = r at hrange
      subst hconn
      subst hrange
      exact absurd (h.distinct other owner _ _ hheld hholds) hother
  case blocks =>
    intro x hx id hid
    rcases List.mem_append.mp hx with hx | hx
    · exact h.blocks x hx id hid
    · obtain rfl := List.mem_singleton.mp hx
      cases hid
  case pairs =>
    refine List.pairwise_append.mpr ⟨h.pairs.imp fun hxy => hxy.mono hsub,
      List.pairwise_singleton _ _, fun x hx y hy id hid => ?_⟩
    obtain rfl := List.mem_singleton.mp hy
    cases hid

/-! ## Using an identifier -/

/-- A client uses an identifier of a range and restarts its countdown. -/
def use (s : State) (owner c r : Nat) (id : UInt8) : State :=
  { s.setProt owner (some ⟨⟨id, c, r, true⟩, true⟩) with
    shared := radius_identifier_timer_value_set s.shared c r idTimeout
    log := s.log ++ [⟨s.clock, owner, c, r, some id⟩] }

/-- **Using an identifier** of a range that nobody else has and whose other uses have
passed. -/
theorem Owned.use (h : s.Owned) {owner c r : Nat} {id : UInt8} (hmem : (c, r) ∈ ranges)
    (hblock : InBlock r id) (hfree : ∀ other, other ≠ owner → ¬s.Holds other c r)
    (hpassed : ∀ x ∈ s.log, x.conn = c → x.range = r → x.owner ≠ owner ∨ x.used = none →
      Passed s.log x s.clock) : Owned (s.use owner c r id) := by
  obtain ⟨hlisted, hbounded⟩ := h.timer_set hmem (le_refl idTimeout)
  set entry : Entry := ⟨s.clock, owner, c, r, some id⟩ with hentry
  have hsub : s.log ⊆ s.log ++ [entry] := List.subset_append_left _ _
  have hself : (s.use owner c r id).prots owner = some ⟨⟨id, c, r, true⟩, true⟩ :=
    Function.update_self ..
  have hothers : ∀ other, other ≠ owner → (s.use owner c r id).prots other = s.prots other :=
    fun other hne => Function.update_of_ne hne ..
  have hheld : ∀ other c' r', (s.use owner c r id).Holds other c' r' →
      (other = owner ∧ c' = c ∧ r' = r) ∨ (other ≠ owner ∧ s.Holds other c' r') := by
    intro other c' r' hhold
    obtain ⟨q, hq, hqset, hqconn, hqrange⟩ := hhold
    by_cases hother : other = owner
    · subst hother
      rw [hself] at hq
      cases hq
      exact .inl ⟨rfl, hqconn.symm, hqrange.symm⟩
    · rw [hothers other hother] at hq
      exact .inr ⟨hother, q, hq, hqset, hqconn, hqrange⟩
  constructor
  case stopped => exact fun hstop => by cases hstop
  case listed => exact hlisted
  case bounded => exact hbounded
  case reserved =>
    intro other q hq hqset
    by_cases hother : other = owner
    · subst hother
      rw [hself] at hq
      cases hq
      exact ⟨hmem, hblock⟩
    · rw [hothers other hother] at hq
      exact h.reserved other q hq hqset
  case outstanding =>
    intro other q hq hout
    by_cases hother : other = owner
    · subst hother
      rw [hself] at hq
      cases hq
      rfl
    · rw [hothers other hother] at hq
      exact h.outstanding other q hq hout
  case distinct =>
    intro i j c' r' hi hj
    rcases hheld i c' r' hi with ⟨rfl, rfl, rfl⟩ | ⟨hine, hiold⟩
    · rcases hheld j c' r' hj with ⟨rfl, -, -⟩ | ⟨hjne, hjold⟩
      · rfl
      · exact absurd hjold (hfree j hjne)
    · rcases hheld j c' r' hj with ⟨rfl, rfl, rfl⟩ | ⟨-, hjold⟩
      · exact absurd hiold (hfree i hine)
      · exact h.distinct i j c' r' hiold hjold
  case times =>
    intro x hx
    rcases List.mem_append.mp hx with hx | hx
    · exact h.times x hx
    · obtain rfl := List.mem_singleton.mp hx
      exact le_refl _
  case pending =>
    intro x hx
    change Passed (s.log ++ [entry]) x (s.clock +
      (radius_identifier_timer_value_set s.shared c r idTimeout).radiusIdentifierTimer x.conn x.range)
    by_cases hsame : x.conn = c ∧ x.range = r
    · rw [hsame.1, hsame.2, timer_set_self]
      rcases List.mem_append.mp hx with hx | hx
      · refine (h.pending x hx).mono hsub ?_
        exact Nat.add_le_add_left (h.bounded _ _) _
      · obtain rfl := List.mem_singleton.mp hx
        exact .inl (le_refl (s.clock + idTimeout))
    · rw [timer_set_of_ne s.shared idTimeout hsame]
      rcases List.mem_append.mp hx with hx | hx
      · exact (h.pending x hx).mono hsub (le_refl _)
      · obtain rfl := List.mem_singleton.mp hx
        exact absurd ⟨rfl, rfl⟩ hsame
  case done =>
    intro other c' r' hhold x hx hconn hrange hor
    rcases hheld other c' r' hhold with ⟨rfl, rfl, rfl⟩ | ⟨hother, hhold⟩
    · rcases List.mem_append.mp hx with hx | hx
      · exact (hpassed x hx hconn hrange hor).mono hsub (le_refl _)
      · obtain rfl := List.mem_singleton.mp hx
        rcases hor with hne | hnone
        · exact absurd rfl hne
        · cases hnone
    · rcases List.mem_append.mp hx with hx | hx
      · exact (h.done other c' r' hhold x hx hconn hrange hor).mono hsub (le_refl _)
      · obtain rfl := List.mem_singleton.mp hx
        change c = c' at hconn
        change r = r' at hrange
        subst hconn
        subst hrange
        exact absurd hhold (hfree other hother)
  case blocks =>
    intro x hx id' hid
    rcases List.mem_append.mp hx with hx | hx
    · exact h.blocks x hx id' hid
    · obtain rfl := List.mem_singleton.mp hx
      cases hid
      exact hblock
  case pairs =>
    refine List.pairwise_append.mpr ⟨h.pairs.imp fun hxy => hxy.mono hsub,
      List.pairwise_singleton _ _, fun x hx y hy id' hid howner hconn hin => ?_⟩
    obtain rfl := List.mem_singleton.mp hy
    cases hid
    exact (hpassed x hx hconn (hin.eq hblock) (.inl howner)).mono hsub (le_refl _)

/-! ## Runs -/

/-- A client that needs a range finds one that no other client has. -/
def FindsRange (s : State) (owner : Nat) (p : Prot) : Prop :=
  p.data.NeedsRange p.data.radiusIdentifier → ∃ c r, freeRange s.shared = some (c, r) ∧
    ∀ other, other ≠ owner → ¬s.Holds other c r

/-- The condition of an event. -/
def Reserves (s : State) : Event → Prop
  | .request owner => ∀ p, s.prots owner = some p → s.FindsRange owner p
  | _ => True

/-- What a client does that stays in its range. -/
theorem step_stay {owner : Nat} {p : Prot} (hp : s.prots owner = some p)
    (h : ¬p.data.NeedsRange p.data.radiusIdentifier) :
    s.step (.request owner) = some (s.use owner p.data.radiusIdConnNum p.data.radiusIdRange
      (p.data.radiusIdentifier + 1)) := by
  have hset : p.data.radiusIdRangeSet = true := by
    unfold Client.NeedsRange at h
    rw [not_or] at h
    simpa using h.1
  have hmoves : s.moves owner p.data p.data = [] := if_neg fun hne => hne.2 rfl
  have hdata : (⟨p.data.radiusIdentifier + 1, p.data.radiusIdConnNum, p.data.radiusIdRange, true⟩ :
      Client) = { p.data with radiusIdentifier := p.data.radiusIdentifier + 1 } := by
    rw [← hset]
  unfold step use
  dsimp only
  rw [hp]
  dsimp only
  rw [allocate_stay h, hdata]
  dsimp only
  rw [hmoves, List.append_nil]

/-- What a client does that takes a range. -/
theorem step_move {owner c r : Nat} {p : Prot} (hp : s.prots owner = some p)
    (h : p.data.NeedsRange p.data.radiusIdentifier) (hfree : freeRange s.shared = some (c, r)) :
    s.step (.request owner) =
      if p.data.radiusIdRangeSet ∧ (p.data.radiusIdConnNum, p.data.radiusIdRange) ≠ (c, r) then
        some ((s.leave owner p.data).use owner c r (r * idRangeSize).toUInt8)
      else some (s.use owner c r (r * idRangeSize).toUInt8) := by
  have htwice : ∀ value, radius_identifier_timer_value_set
      (radius_identifier_timer_value_set s.shared c r value) c r idTimeout =
        radius_identifier_timer_value_set s.shared c r idTimeout := by
    intro value
    unfold radius_identifier_timer_value_set
    congr 1
    funext c' r'
    dsimp only
    split <;> rfl
  unfold step
  dsimp only
  rw [hp]
  dsimp only
  rw [allocate_move h hfree]
  unfold moves
  dsimp only
  by_cases hmoves : p.data.radiusIdRangeSet ∧
      (p.data.radiusIdConnNum, p.data.radiusIdRange) ≠ (c, r)
  · rw [if_pos hmoves, if_pos hmoves, if_pos hmoves.1]
    unfold use leave setProt
    dsimp only
    rw [Function.update_idem]
  · rw [if_neg hmoves, if_neg hmoves, List.append_nil]
    unfold use
    by_cases hset : p.data.radiusIdRangeSet
    · have hsame : (p.data.radiusIdConnNum, p.data.radiusIdRange) = (c, r) := by
        by_contra hne
        exact hmoves ⟨hset, hne⟩
      obtain ⟨hc, hr⟩ := Prod.mk.inj hsame
      rw [if_pos hset, hc, hr, htwice]
    · rw [if_neg hset]

/-- **Step lemma.**  An event keeps the ranges owned. -/
theorem Owned.step (h : s.Owned) {event : Event} (hreserves : s.Reserves event)
    (hstep : s.step event = some t) : t.Owned := by
  cases event with
  | create owner =>
      cases hp : s.prots owner with
      | some p =>
          unfold State.step at hstep
          dsimp only at hstep
          rw [hp] at hstep
          cases hstep
      | none =>
          unfold State.step at hstep
          dsimp only at hstep
          rw [hp] at hstep
          cases hstep
          refine h.fewer fun q hq => .inl ?_
          cases hq
          exact ⟨rfl, rfl⟩
  | request owner =>
      cases hp : s.prots owner with
      | none =>
          unfold State.step at hstep
          dsimp only at hstep
          rw [hp] at hstep
          cases hstep
      | some p =>
          by_cases hneeds : p.data.NeedsRange p.data.radiusIdentifier
          · obtain ⟨c, r, hfree, hothers⟩ := hreserves p hp hneeds
            obtain ⟨hmem, hzero⟩ := freeRange_spec hfree
            have hblock := inBlock_first (mem_ranges.mp hmem).2
            have hpassed : ∀ x ∈ s.log, x.conn = c → x.range = r → Passed s.log x s.clock := by
              intro x hx hconn hrange
              have hpending := h.pending x hx
              rwa [hconn, hrange, hzero] at hpending
            rw [step_move hp hneeds hfree] at hstep
            split at hstep
            case isTrue hmoves =>
              cases hstep
              obtain ⟨hset, hne⟩ := hmoves
              have hnot : ¬(p.data.radiusIdConnNum = c ∧ p.data.radiusIdRange = r) := by
                rintro ⟨rfl, rfl⟩
                exact hne rfl
              refine (h.leave hp hset).use hmem hblock (fun other hother hhold => ?_)
                fun x hx hconn hrange _ => ?_
              · obtain ⟨q, hq, hdata⟩ := hhold
                have hsame : (s.leave owner p.data).prots other = s.prots other :=
                  Function.update_of_ne hother ..
                exact hothers other hother ⟨q, hsame.symm.trans hq, hdata⟩
              · rcases List.mem_append.mp hx with hx | hx
                · exact (hpassed x hx hconn hrange).mono (List.subset_append_left _ _) (le_refl _)
                · obtain rfl := List.mem_singleton.mp hx
                  exact absurd ⟨hconn, hrange⟩ hnot
            case isFalse =>
              cases hstep
              exact h.use hmem hblock hothers fun x hx hconn hrange _ => hpassed x hx hconn hrange
          · have hset : p.data.radiusIdRangeSet := by
              unfold Client.NeedsRange at hneeds
              rw [not_or] at hneeds
              simpa using hneeds.1
            obtain ⟨hmem, hblock⟩ := h.reserved owner p hp hset
            have hholds : s.Holds owner p.data.radiusIdConnNum p.data.radiusIdRange :=
              ⟨p, hp, hset, rfl, rfl⟩
            rw [step_stay hp hneeds] at hstep
            cases hstep
            refine h.use hmem (inBlock_next (mem_ranges.mp hmem).2 hneeds hblock)
              (fun other hother hhold => hother (h.distinct other owner _ _ hhold hholds)) ?_
            exact h.done owner _ _ hholds
  | answer owner =>
      obtain ⟨p, hp, rfl⟩ := Option.map_eq_some_iff.mp hstep
      refine h.fewer fun q hq => .inr ?_
      cases hq
      exact ⟨p, hp, rfl, fun hout => by cases hout⟩
  | tick ticks =>
      cases hstep
      exact h.tick ticks
  | finish owner =>
      obtain ⟨p, hp, rfl⟩ := Option.map_eq_some_iff.mp hstep
      unfold radius_client_sec_prot_identifier_free
      by_cases hset : p.data.radiusIdRangeSet
      · rw [if_pos hset, if_pos hset]
        exact h.leave hp hset
      · rw [if_neg hset, if_neg hset, List.append_nil]
        exact h.fewer fun q hq => by cases hq
  | delete owner =>
      obtain ⟨p, hp, rfl⟩ := Option.map_eq_some_iff.mp hstep
      exact h.fewer fun q hq => by cases hq

/-! ## A client that pauses -/

/-- The first client waits for its answer while the second one asks. -/
def pauses : List Event := [.create 0, .create 1, .request 0, .tick 60, .request 1]

/-- A client that asks twice. -/
def asks : List Event := [.create 0, .request 0, .request 0]

/-- Behind it. -/
def asked : State := (Runs.run step start asks).getD start

end State

end Radius
