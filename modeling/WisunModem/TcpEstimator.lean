import WisunModem.Runs
import Mathlib.Tactic.Linarith

/-!
# The retransmission timer of TCP

What the code of `tcp.c` does with `rto`, `timer`, `retry`, `srtt8` and `srttvar4` of a
session.  The estimator of `tcp_ack_segment` computes in 16 bits.  The upper clamp of `rto`
stands only where a timeout doubles it, so samples close to `rto` make it grow without end.
-/

namespace TcpTimer

/-- `INT16_MAX`, which says that there is no sample yet. -/
def int16Max : Int := 2 ^ 15 - 1

/-- The value an `int16_t` has after an assignment. -/
def wrap16 (x : Int) : Int := Int.bmod x (2 ^ 16)

def TCP_MINIMUM_RTO : Nat := 8
def TCP_INITIAL_RTO : Nat := 8
def TCP_INITIAL_CONSERVATIVE_RTO : Nat := 21
def TCP_MAXIMUM_RTO : Nat := 400
def TCP_MAX_RETRIES : Nat := 6
def TCP_SYN_RETRIES : Nat := 7
def TCP_TIME_WAIT_TO_CLOSE : Nat := 1600
def TCP_FIN_WAIT_2_TIMEOUT : Nat := 500

/-- As much of the state of a session as the timer depends on. -/
inductive Phase
  | opening
  | established
  | finWait2 (released : Bool)
  | timeWait
deriving DecidableEq, Repr

/-- The timer of a `tcp_session_t`. -/
structure Session where
  phase : Phase
  rto : Nat
  timer : Nat
  retry : Nat
  persist : Bool
  busy : Bool
  srtt8 : Int
  srttvar4 : Int
deriving DecidableEq, Repr

/-- A session as it is allocated. -/
def Session.init : Session where
  phase := .opening
  rto := TCP_INITIAL_RTO
  timer := 0
  retry := 0
  persist := false
  busy := false
  srtt8 := int16Max
  srttvar4 := int16Max

/-! ## The estimator -/

/-- `R`, cut to 16 bits and from below by 0. -/
def Session.sample (s : Session) : Int :=
  let r := wrap16 (wrap16 s.rto - wrap16 s.timer)
  if r < 0 then 0 else r

/-- `srtt8` and `srttvar4` after the sample. -/
def Session.estimate (s : Session) : Int × Int :=
  let r := s.sample
  if s.srtt8 = int16Max then (wrap16 (r * 8), wrap16 (r * 2))
  else
    let rDiff := wrap16 (r - s.srtt8 / 8)
    let srtt8 := wrap16 (s.srtt8 + rDiff)
    let rDiff := if rDiff < 0 then wrap16 (-rDiff) else rDiff
    let vDiff := wrap16 (rDiff - s.srttvar4 / 4)
    (srtt8, wrap16 (s.srttvar4 + vDiff))

/-- The values that are assigned, before they are cut to 16 bits. -/
def Session.assigned (s : Session) : List Int :=
  let r := s.sample
  (wrap16 s.rto - wrap16 s.timer) ::
    (s.estimate.1 / 8 + s.estimate.2) ::
    if s.srtt8 = int16Max then [r * 8, r * 2]
    else
      let rDiff := wrap16 (r - s.srtt8 / 8)
      let rDiff' := if rDiff < 0 then wrap16 (-rDiff) else rDiff
      let vDiff := wrap16 (rDiff' - s.srttvar4 / 4)
      [r - s.srtt8 / 8, s.srtt8 + rDiff, if rDiff < 0 then -rDiff else rDiff,
        rDiff' - s.srttvar4 / 4, s.srttvar4 + vDiff]

/-- `rto` is unsigned. -/
def Session.update (s : Session) : Session :=
  let rto := ((s.estimate.1 / 8 + s.estimate.2) % 2 ^ 16).toNat
  { s with
    srtt8 := s.estimate.1
    srttvar4 := s.estimate.2
    rto := if rto < TCP_MINIMUM_RTO then TCP_MINIMUM_RTO else rto }

/-! ## What happens to a session -/

inductive Event
  /-- `tcp_session_send` with nothing in flight, before it starts a segment. -/
  | fresh
  /-- `tcp_segment_start`, with the window of the peer closed or not. -/
  | start (closed : Bool)
  /-- `tcp_uack_segment` of a segment that takes sequence numbers. -/
  | sent
  /-- The peer closes its window with something in flight. -/
  | closing
  /-- The peer opens its window again. -/
  | opening
  /-- `tcp_ack_segment` of all that was sent; more is to be sent or not. -/
  | ack (more : Bool)
  /-- `tcp_handle_time_event` -/
  | tick (update : UInt16)
  /-- `tcp_session_established` -/
  | established
  | finWait2 (released : Bool)
  | timeWait
  | closeWait

/-- The timer started by `tcp_segment_start`. -/
def Session.startSegment (s : Session) (closed : Bool) : Session :=
  if closed then { s with persist := true, timer := s.rto, retry := 0 }
  else { s with persist := false, timer := s.rto }

/-- `tcp_resend_segment`: the session is deleted after too many of them. -/
def Session.resend (s : Session) : Option Session :=
  if s.retry ≥ (if s.phase = .opening then TCP_SYN_RETRIES else TCP_MAX_RETRIES) then none
  else some { s with retry := s.retry + 1, timer := s.rto }

/-- The acknowledgement is a sample. -/
def Session.samples (s : Session) : Bool := s.retry == 0 && !s.persist

def step (s : Session) : Event → Option Session
  | .fresh => some { s with timer := 0, retry := 0, busy := true }
  | .start closed => some (s.startSegment closed)
  | .sent => some { s with timer := if s.timer = 0 then s.rto else s.timer, busy := true }
  | .closing => some { s with persist := true }
  | .opening =>
      if s.persist then { s with retry := 0, persist := false }.resend else some s
  | .ack more =>
      let s := { if s.samples then s.update else s with retry := 0, timer := 0 }
      some (if more then s.startSegment false else { s with busy := false })
  | .tick update =>
      if s.timer = 0 then some s
      else if update.toNat < s.timer then some { s with timer := s.timer - update.toNat }
      else
        let s := { s with timer := 0 }
        if s.phase = .timeWait then none
        else if s.busy then
          let rto := s.rto * 2 % 2 ^ 16
          { s with rto := if TCP_MAXIMUM_RTO < rto then TCP_MAXIMUM_RTO else rto }.resend
        else if s.phase = .finWait2 true then
          some { s with phase := .timeWait, timer := TCP_TIME_WAIT_TO_CLOSE }
        else some s
  | .established =>
      some { s with
        phase := .established
        rto := if 0 < s.retry ∧ s.rto < TCP_INITIAL_CONSERVATIVE_RTO then
            TCP_INITIAL_CONSERVATIVE_RTO else s.rto }
  | .finWait2 released =>
      some { s with
        phase := .finWait2 released
        timer := if released then TCP_FIN_WAIT_2_TIMEOUT else 0 }
  | .timeWait => some { s with phase := .timeWait, timer := TCP_TIME_WAIT_TO_CLOSE }
  | .closeWait => some { s with timer := 0 }

/-! ## What is claimed, and when it holds -/

/-- `rto` is between its bounds. -/
def Session.InRange (s : Session) : Prop := TCP_MINIMUM_RTO ≤ s.rto ∧ s.rto ≤ TCP_MAXIMUM_RTO

/-- Nothing is cut off when the acknowledgement is a sample. -/
def Fits (s : Session) : Event → Prop
  | .ack _ => s.samples → ∀ x ∈ s.assigned, -2 ^ 15 ≤ x ∧ x < 2 ^ 15
  | _ => True

/-- The round trip measured: what is left of the timer is missing. -/
def Session.roundTrip (s : Session) : Nat := s.rto - s.timer

/-- **The condition**: a sample leaves room below the maximum.  The first one is at most a
third of it; for a later one the distance from the smoothed round trip and three quarters of
the variation are to fit beside the smoothed round trip. -/
def Leaves (s : Session) : Event → Prop
  | .ack _ => s.samples →
      if s.srtt8 = int16Max then 3 * s.roundTrip ≤ TCP_MAXIMUM_RTO
      else
        s.srtt8 + (s.roundTrip - s.srtt8 / 8) +
          8 * (|s.roundTrip - s.srtt8 / 8| + (s.srttvar4 - s.srttvar4 / 4)) <
          8 * (TCP_MAXIMUM_RTO + 1)
  | _ => True

/-! ## Where every sample leaves room -/

theorem wrap16_of_range {x : Int} (hlo : -2 ^ 15 ≤ x) (hhi : x < 2 ^ 15) : wrap16 x = x := by
  unfold wrap16
  exact Int.bmod_eq_of_le (by omega) (by omega)

/-- What every step keeps. -/
structure Session.Bounded (s : Session) : Prop where
  range : s.InRange
  timer : s.timer ≤ TCP_TIME_WAIT_TO_CLOSE
  estimates : s.srtt8 = int16Max ∨
    0 ≤ s.srtt8 ∧ 0 ≤ s.srttvar4 ∧ s.srtt8 / 8 + s.srttvar4 ≤ TCP_MAXIMUM_RTO

theorem init_bounded : Session.init.Bounded where
  range := ⟨by decide, by decide⟩
  timer := by decide
  estimates := .inl rfl

section

variable {s t : Session}

theorem Session.Bounded.sample_eq (h : s.Bounded) : s.sample = s.roundTrip := by
  obtain ⟨⟨-, hrto⟩, htimer, -⟩ := h
  unfold TCP_MAXIMUM_RTO at hrto
  unfold TCP_TIME_WAIT_TO_CLOSE at htimer
  unfold Session.sample Session.roundTrip
  rw [wrap16_of_range (x := s.rto) (by omega) (by omega),
    wrap16_of_range (x := s.timer) (by omega) (by omega),
    wrap16_of_range (by omega) (by omega)]
  dsimp only
  split <;> omega

/-- The first sample. -/
theorem Session.Bounded.first (h : s.Bounded) (hnone : s.srtt8 = int16Max) :
    s.estimate = ((s.roundTrip : Int) * 8, (s.roundTrip : Int) * 2) ∧
      ∀ x ∈ s.assigned, -2 ^ 15 ≤ x ∧ x < 2 ^ 15 := by
  have hsample := h.sample_eq
  have hle : s.roundTrip ≤ TCP_MAXIMUM_RTO := (Nat.sub_le _ _).trans h.range.2
  unfold TCP_MAXIMUM_RTO at hle
  have hest : s.estimate = ((s.roundTrip : Int) * 8, (s.roundTrip : Int) * 2) := by
    unfold Session.estimate
    rw [hsample]
    dsimp only
    rw [if_pos hnone, wrap16_of_range (by omega) (by omega), wrap16_of_range (by omega) (by omega)]
  refine ⟨hest, ?_⟩
  unfold Session.assigned
  rw [hsample, hest]
  dsimp only
  rw [if_pos hnone]
  obtain ⟨⟨-, hrto⟩, htimer, -⟩ := h
  unfold TCP_MAXIMUM_RTO at hrto
  unfold TCP_TIME_WAIT_TO_CLOSE at htimer
  rw [wrap16_of_range (x := s.rto) (by omega) (by omega),
    wrap16_of_range (x := s.timer) (by omega) (by omega)]
  intro x hx
  simp only [List.mem_cons, List.not_mem_nil, or_false] at hx
  omega

/-- A later sample. -/
theorem Session.Bounded.later (h : s.Bounded) (hsome : s.srtt8 ≠ int16Max) :
    s.estimate = (s.srtt8 + (s.roundTrip - s.srtt8 / 8),
        s.srttvar4 + (|(s.roundTrip : Int) - s.srtt8 / 8| - s.srttvar4 / 4)) ∧
      ∀ x ∈ s.assigned, -2 ^ 15 ≤ x ∧ x < 2 ^ 15 := by
  have hsample := h.sample_eq
  have hle : s.roundTrip ≤ TCP_MAXIMUM_RTO := (Nat.sub_le _ _).trans h.range.2
  obtain ⟨hsrtt, hvar, hsum⟩ := h.estimates.resolve_left hsome
  unfold TCP_MAXIMUM_RTO at hle hsum
  generalize hd : (s.roundTrip : Int) - s.srtt8 / 8 = d
  have habs : (if d < 0 then -d else d) = |d| := by
    split
    · next hneg => exact (abs_of_neg hneg).symm
    · next hpos => exact (abs_of_nonneg (Int.not_lt.mp hpos)).symm
  have habs' : (if d < 0 then wrap16 (-d) else d) = |d| := by
    rw [wrap16_of_range (by omega) (by omega)]
    exact habs
  have hbound : 0 ≤ |d| ∧ |d| ≤ 400 := ⟨abs_nonneg d, abs_le.mpr ⟨by omega, by omega⟩⟩
  have hest : s.estimate = (s.srtt8 + d, s.srttvar4 + (|d| - s.srttvar4 / 4)) := by
    unfold Session.estimate
    rw [hsample]
    dsimp only
    rw [if_neg hsome, hd, wrap16_of_range (x := d) (by omega) (by omega), habs',
      wrap16_of_range (x := s.srtt8 + d) (by omega) (by omega),
      wrap16_of_range (x := |d| - s.srttvar4 / 4) (by omega) (by omega),
      wrap16_of_range (by omega) (by omega)]
  refine ⟨hest, ?_⟩
  unfold Session.assigned
  rw [hsample, hest]
  dsimp only
  rw [if_neg hsome, hd, wrap16_of_range (x := d) (by omega) (by omega), habs', habs,
    wrap16_of_range (x := |d| - s.srttvar4 / 4) (by omega) (by omega)]
  obtain ⟨⟨-, hrto⟩, htimer, -⟩ := h
  unfold TCP_MAXIMUM_RTO at hrto
  unfold TCP_TIME_WAIT_TO_CLOSE at htimer
  rw [wrap16_of_range (x := s.rto) (by omega) (by omega),
    wrap16_of_range (x := s.timer) (by omega) (by omega)]
  intro x hx
  simp only [List.mem_cons, List.not_mem_nil, or_false] at hx
  omega

/-- **A sample** keeps `rto` in its range exactly where it leaves room. -/
theorem Session.Bounded.update_iff (h : s.Bounded) (hs : s.samples) (more : Bool) :
    s.update.InRange ↔ Leaves s (.ack more) := by
  have hrange : ∀ e : Int, 0 ≤ e → e < 2 ^ 15 → s.estimate.1 / 8 + s.estimate.2 = e →
      (s.update.InRange ↔ e ≤ TCP_MAXIMUM_RTO) := by
    intro e hlo hhi he
    unfold Session.update Session.InRange TCP_MAXIMUM_RTO TCP_MINIMUM_RTO
    rw [he]
    dsimp only
    split <;> omega
  have hle : s.roundTrip ≤ TCP_MAXIMUM_RTO := (Nat.sub_le _ _).trans h.range.2
  have hmax : TCP_MAXIMUM_RTO = 400 := rfl
  unfold Leaves
  rw [imp_iff_right hs]
  by_cases hnone : s.srtt8 = int16Max
  · rw [if_pos hnone]
    have hest := (h.first hnone).1
    refine (hrange (3 * s.roundTrip) (by omega) (by omega) (by rw [hest]; dsimp only; omega)).trans ?_
    omega
  · rw [if_neg hnone]
    have hest := (h.later hnone).1
    obtain ⟨hsrtt, hvar, hsum⟩ := h.estimates.resolve_left hnone
    generalize hd : (s.roundTrip : Int) - s.srtt8 / 8 = d at hest ⊢
    have hbound : 0 ≤ |d| ∧ |d| ≤ 400 := ⟨abs_nonneg d, abs_le.mpr ⟨by omega, by omega⟩⟩
    refine (hrange ((s.srtt8 + d) / 8 + (s.srttvar4 + (|d| - s.srttvar4 / 4))) (by omega)
      (by omega) (by rw [hest])).trans ?_
    omega

/-- What a sample leaves is bounded again. -/
theorem Session.Bounded.update (h : s.Bounded) (hs : s.update.InRange) : s.update.Bounded := by
  refine ⟨hs, h.timer, .inr ?_⟩
  have hle : s.roundTrip ≤ TCP_MAXIMUM_RTO := (Nat.sub_le _ _).trans h.range.2
  have hmax : TCP_MAXIMUM_RTO = 400 := rfl
  have hupper : ((s.estimate.1 / 8 + s.estimate.2) % 2 ^ 16).toNat ≤ TCP_MAXIMUM_RTO := by
    have hrto := hs.2
    unfold Session.update TCP_MINIMUM_RTO at hrto
    dsimp only at hrto
    split at hrto <;> omega
  change 0 ≤ s.estimate.1 ∧ 0 ≤ s.estimate.2 ∧ s.estimate.1 / 8 + s.estimate.2 ≤ TCP_MAXIMUM_RTO
  by_cases hnone : s.srtt8 = int16Max
  · have hwhole : (s.roundTrip : Int) * 8 / 8 = s.roundTrip := by omega
    rw [(h.first hnone).1] at hupper ⊢
    dsimp only at hupper ⊢
    rw [hwhole] at hupper ⊢
    rw [Int.emod_eq_of_lt (by omega) (by omega)] at hupper
    omega
  · obtain ⟨hsrtt, hvar, hsum⟩ := h.estimates.resolve_left hnone
    rw [(h.later hnone).1] at hupper ⊢
    generalize hd : (s.roundTrip : Int) - s.srtt8 / 8 = d at hupper ⊢
    have hbound : 0 ≤ |d| ∧ |d| ≤ 400 := ⟨abs_nonneg d, abs_le.mpr ⟨by omega, by omega⟩⟩
    dsimp only at hupper ⊢
    omega

/-- In a bounded state nothing is cut off. -/
theorem Session.Bounded.fits (h : s.Bounded) (e : Event) : Fits s e := by
  cases e with
  | ack more =>
    intro _
    by_cases hnone : s.srtt8 = int16Max
    · exact (h.first hnone).2
    · exact (h.later hnone).2
  | _ => trivial

theorem Session.Bounded.startSegment (h : s.Bounded) (closed : Bool) :
    (s.startSegment closed).Bounded := by
  have hrto := h.range.2
  unfold TCP_MAXIMUM_RTO at hrto
  unfold Session.startSegment
  split
  · exact ⟨h.range, by unfold TCP_TIME_WAIT_TO_CLOSE; dsimp only; omega, h.estimates⟩
  · exact ⟨h.range, by unfold TCP_TIME_WAIT_TO_CLOSE; dsimp only; omega, h.estimates⟩

theorem Session.Bounded.resend (h : s.Bounded) (ht : s.resend = some t) : t.Bounded := by
  have hrto := h.range.2
  unfold TCP_MAXIMUM_RTO at hrto
  unfold Session.resend at ht
  by_cases hmany : s.retry ≥ (if s.phase = .opening then TCP_SYN_RETRIES else TCP_MAX_RETRIES)
  · rw [if_pos hmany] at ht
    cases ht
  · rw [if_neg hmany] at ht
    cases ht
    exact ⟨h.range, by unfold TCP_TIME_WAIT_TO_CLOSE; dsimp only; omega, h.estimates⟩

/-- **A step** that leaves room keeps the bounds. -/
theorem Session.Bounded.step {e : Event} (h : s.Bounded) (hleaves : Leaves s e)
    (ht : step s e = some t) : t.Bounded := by
  cases e with
  | fresh =>
    cases ht
    exact ⟨h.range, Nat.zero_le _, h.estimates⟩
  | start closed =>
    cases ht
    exact h.startSegment closed
  | sent =>
    cases ht
    refine ⟨h.range, ?_, h.estimates⟩
    have hrto := h.range.2
    have htimer := h.timer
    unfold TCP_MAXIMUM_RTO at hrto
    unfold TCP_TIME_WAIT_TO_CLOSE at htimer ⊢
    dsimp only
    split <;> omega
  | closing =>
    cases ht
    exact ⟨h.range, h.timer, h.estimates⟩
  | opening =>
    simp only [TcpTimer.step] at ht
    split at ht
    · have hopen : Session.Bounded { s with retry := 0, persist := false } :=
        ⟨h.range, h.timer, h.estimates⟩
      exact hopen.resend ht
    · cases ht
      exact h
  | ack more =>
    have hsampled : Session.Bounded (if s.samples then s.update else s) := by
      split
      · next hs => exact h.update ((h.update_iff hs more).mpr hleaves)
      · exact h
    have hcleared : Session.Bounded
        { (if s.samples then s.update else s) with retry := 0, timer := 0 } :=
      ⟨hsampled.range, Nat.zero_le _, hsampled.estimates⟩
    cases ht
    split
    · exact hcleared.startSegment false
    · exact ⟨hcleared.range, hcleared.timer, hcleared.estimates⟩
  | tick update =>
    have htimer := h.timer
    simp only [TcpTimer.step] at ht
    split at ht
    · cases ht
      exact h
    · split at ht
      · cases ht
        exact ⟨h.range, by dsimp only; omega, h.estimates⟩
      · have hzero : Session.Bounded { s with timer := 0 } :=
          ⟨h.range, Nat.zero_le _, h.estimates⟩
        split at ht
        · cases ht
        · split at ht
          · -- a timeout doubles `rto` up to the maximum
            have hdouble : Session.Bounded { s with
                timer := 0
                rto := if TCP_MAXIMUM_RTO < s.rto * 2 % 2 ^ 16 then TCP_MAXIMUM_RTO
                  else s.rto * 2 % 2 ^ 16 } := by
              refine ⟨?_, Nat.zero_le _, h.estimates⟩
              obtain ⟨hlo, hhi⟩ := h.range
              unfold Session.InRange TCP_MINIMUM_RTO TCP_MAXIMUM_RTO at *
              dsimp only
              split <;> omega
            exact hdouble.resend ht
          · split at ht
            · cases ht
              exact ⟨h.range, Nat.le_refl _, h.estimates⟩
            · cases ht
              exact hzero
  | established =>
    cases ht
    refine ⟨?_, h.timer, h.estimates⟩
    obtain ⟨hlo, hhi⟩ := h.range
    unfold Session.InRange TCP_MINIMUM_RTO TCP_MAXIMUM_RTO TCP_INITIAL_CONSERVATIVE_RTO at *
    dsimp only
    split <;> omega
  | finWait2 released =>
    cases ht
    refine ⟨h.range, ?_, h.estimates⟩
    dsimp only
    split <;> decide
  | timeWait =>
    cases ht
    exact ⟨h.range, Nat.le_refl _, h.estimates⟩
  | closeWait =>
    cases ht
    exact ⟨h.range, Nat.zero_le _, h.estimates⟩

/-- A sample without room takes `rto` out of its range. -/
theorem Session.Bounded.leaves {e : Event} (h : s.Bounded)
    (hnext : ∀ t, TcpTimer.step s e = some t → t.InRange) : Leaves s e := by
  cases e with
  | ack more =>
    intro hs
    refine (h.update_iff hs more).mp ?_ hs
    have hrange := hnext _ rfl
    rw [if_pos hs] at hrange
    cases more with
    | true => exact hrange
    | false => exact hrange
  | _ => trivial

end

/-! ## Runs -/

/-- From a bounded state, `rto` stays in its range and nothing is cut off exactly in the runs
whose samples leave room. -/
theorem Session.Bounded.run_iff {s : Session} (h : s.Bounded) (es : List Event) :
    (Runs.Meets TcpTimer.step (fun s e => s.InRange ∧ Fits s e) s es ∧
      ∀ t, Runs.run TcpTimer.step s es = some t → t.InRange) ↔ Runs.Meets TcpTimer.step Leaves s es := by
  induction es generalizing s with
  | nil =>
    refine iff_of_true ⟨trivial, fun t ht => ?_⟩ trivial
    cases ht
    exact h.range
  | cons e es ih =>
    constructor
    · rintro ⟨⟨-, hmeets⟩, hrun⟩
      have hnext : ∀ t, TcpTimer.step s e = some t → t.InRange := by
        intro t ht
        cases es with
        | nil => exact hrun t (Runs.run_cons_iff.mpr ⟨t, ht, rfl⟩)
        | cons e' es => exact (hmeets t ht).1.1
      have hleaves := h.leaves hnext
      refine ⟨hleaves, fun t ht => (ih (h.step hleaves ht)).mp ⟨hmeets t ht, fun u hu => ?_⟩⟩
      exact hrun u (Runs.run_cons_iff.mpr ⟨t, ht, hu⟩)
    · rintro ⟨hleaves, hrest⟩
      refine ⟨⟨⟨h.range, h.fits e⟩, fun t ht => ?_⟩, fun u hu => ?_⟩
      · exact ((ih (h.step hleaves ht)).mpr (hrest t ht)).1
      · obtain ⟨t, ht, hu⟩ := Runs.run_cons_iff.mp hu
        exact ((ih (h.step hleaves ht)).mpr (hrest t ht)).2 u hu

/-- **`rto` stays in its range** and the estimator within 16 bits exactly in the runs whose
samples leave room below the maximum. -/
theorem rto_in_range_iff (es : List Event) :
    (Runs.Meets step (fun s e => s.InRange ∧ Fits s e) Session.init es ∧
      ∀ t, Runs.run step Session.init es = some t → t.InRange) ↔
      Runs.Meets step Leaves Session.init es :=
  init_bounded.run_iff es

/-- Six timeouts double `rto` up to the maximum, and the next segment is acknowledged one tick
before its timeout. -/
def lateRun : List Event :=
  [.established, .fresh, .start false, .sent, .tick 8, .tick 16, .tick 32, .tick 64, .tick 128,
    .tick 256, .ack true, .tick 399, .ack false]

/-- `rto` is three times as long as the maximum after it. -/
theorem rto_beyond_maximum :
    ∃ t, Runs.run step Session.init lateRun = some t ∧ t.rto = 1197 ∧ ¬ t.InRange := by
  refine ⟨_, rfl, by decide, fun h => ?_⟩
  exact absurd h.2 (by decide)

end TcpTimer
