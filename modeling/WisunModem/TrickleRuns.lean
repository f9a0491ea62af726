import WisunModem.Trickle
import WisunModem.Runs

/-!
# Runs of a trickle timer

A timer is watched from the beginning of an interval on: how often it said that it is time to
send, and how many consistent messages came before the firing point.  `trickle_timer_max` adds
up a schedule of its own, which is long enough unless intervals may be a single tick.
-/

namespace Trickle

/-- Parameters that a timer can have. -/
structure Valid (params : TrickleParams) : Prop where
  one_le : 1 ≤ params.imin
  le : params.imin ≤ params.imax
  width : params.imax ≤ timeMax
  redundancy : params.k < 2 ^ 8
  expirations : params.timerExpirations < infinite

/-- A number in the range asked for, where one is asked for. -/
def InHalf (interval draw : Nat) : Prop := 2 < interval → interval / 2 ≤ draw ∧ draw ≤ interval - 1

/-- The interval behind one. -/
def doubled (params : TrickleParams) (interval : Nat) : Nat :=
  min (if interval ≤ timeMax / 2 then interval * 2 else timeMax) params.imax

/-- What `trickle_timer` returns. -/
def transmits (params : TrickleParams) (ticks : Nat) (tr : Trickle) : Bool :=
  tr.running params && decide (tr.now < tr.t ∧ tr.t ≤ min (tr.now + ticks) timeMax ∧
    (tr.c < params.k ∨ params.k = 0))

/-- The loop of `trickle_timer_max`. -/
def maxLoop (params : TrickleParams) : Nat → Nat → Nat → Nat
  | 0, _, total => total
  | expirations + 1, time, total =>
      maxLoop params expirations (doubled params time) ((total + doubled params time) % 2 ^ 32)

/-- `trickle_timer_max` -/
def timerMax (params : TrickleParams) (expirations : Nat) : Nat :=
  maxLoop params expirations (params.imin - 1) (params.imin - 1)

/-! ## What happens to a timer -/

inductive Op
  | start (interval draw : Nat)
  | timer (ticks draw : Nat)
  | consistent
  | inconsistent (draw : Nat)
  | stop

/-- A timer, with what happened since its interval began. -/
structure Watched where
  tr : Trickle
  sent : Nat
  heard : Nat

/-- A timer at the beginning of an interval. -/
def Watched.fresh (tr : Trickle) : Watched := ⟨tr, 0, 0⟩

def step (params : TrickleParams) (w : Watched) : Op → Option Watched
  | .start interval draw => some (.fresh (w.tr.start interval draw))
  | .timer ticks draw =>
      let tr := w.tr.timer params ticks draw
      if w.tr.running params && decide (w.tr.interval ≤ min (w.tr.now + ticks) timeMax) then
        some (.fresh tr)
      else some { w with tr, sent := w.sent + (w.tr.transmits params ticks).toNat }
  | .consistent =>
      some { w with
        tr := w.tr.consistentHeard
        heard := w.heard + (decide (w.tr.now < w.tr.t)).toNat }
  | .inconsistent draw =>
      let tr := w.tr.inconsistentHeard params draw
      if w.tr.interval ≠ params.imin ∨ ¬w.tr.running params then some (.fresh tr)
      else some { w with tr }
  | .stop => some { w with tr := w.tr.stop }

/-- Random numbers are from the ranges asked for, and ticks have 16 bits. -/
def Drawn (params : TrickleParams) (w : Watched) : Op → Prop
  | .start interval draw =>
      params.imin ≤ interval ∧ interval ≤ params.imax ∧ InHalf interval draw
  | .timer ticks draw => ticks ≤ timeMax ∧ InHalf (doubled params w.tr.interval) draw
  | .inconsistent draw => InHalf params.imin draw
  | _ => True

/-- The interval is within its bounds and not over, and the firing point in its second half. -/
structure Good (params : TrickleParams) (w : Watched) : Prop where
  interval : params.imin ≤ w.tr.interval ∧ w.tr.interval ≤ params.imax
  now : w.tr.now < w.tr.interval
  half : 2 ≤ w.tr.interval → w.tr.interval / 2 ≤ w.tr.t ∧ w.tr.t < w.tr.interval
  once : w.sent ≤ 1

/-- Where the timer says that it is time to send, it is the first time in the interval, and too
few consistent messages were heard before. -/
def Allowed (params : TrickleParams) (w : Watched) : Op → Prop
  | .timer ticks _ => w.tr.transmits params ticks →
      w.sent = 0 ∧ (0 < params.k → w.heard < params.k)
  | _ => True

/-! ## Intervals -/

variable {params : TrickleParams} {w w' : Watched} {tr : Trickle}

/-- What every operation keeps. -/
structure Kept (params : TrickleParams) (w : Watched) : Prop where
  good : Good params w
  unsent : w.tr.now < w.tr.t → w.sent = 0
  counted : w.tr.now < w.tr.t → w.tr.c = min w.heard (2 ^ 8 - 1)

/-- An interval that begins. -/
theorem kept_fresh {interval draw : Nat} (h : params.imin ≤ interval ∧ interval ≤ params.imax)
    (hone : 1 ≤ params.imin) (hdraw : InHalf interval draw) (htr : tr.interval = interval) :
    Kept params (.fresh (beginInterval draw tr)) := by
  subst htr
  refine ⟨⟨h, ?_, fun htwo => ?_, Nat.zero_le 1⟩, fun _ => rfl, fun _ => rfl⟩
  · change 0 < tr.interval
    omega
  · change 2 ≤ tr.interval at htwo
    change tr.interval / 2 ≤ (if 2 < tr.interval then draw else 1) ∧
      (if 2 < tr.interval then draw else 1) < tr.interval
    split
    · next hlong =>
      have hrange := hdraw hlong
      omega
    · omega

theorem doubled_bounds (hp : Valid params) {interval : Nat}
    (h : params.imin ≤ interval ∧ interval ≤ params.imax) :
    params.imin ≤ doubled params interval ∧ doubled params interval ≤ params.imax := by
  obtain ⟨hone, hle, hwidth, -, -⟩ := hp
  unfold doubled
  split <;> omega

/-- **A step** is allowed and keeps the invariant. -/
theorem Kept.step {op : Op} (hw : Kept params w) (hp : Valid params) (hdrawn : Drawn params w op)
    (hstep : step params w op = some w') : Allowed params w op ∧ Kept params w' := by
  have hinterval := hw.good.interval
  cases op with
  | start interval draw =>
    cases hstep
    exact ⟨trivial, kept_fresh ⟨hdrawn.1, hdrawn.2.1⟩ hp.one_le hdrawn.2.2 rfl⟩
  | timer ticks draw =>
    have hallowed : Allowed params w (.timer ticks draw) := by
      intro hsends
      unfold transmits at hsends
      rw [Bool.and_eq_true, decide_eq_true_eq] at hsends
      obtain ⟨-, hbefore, -, hfew⟩ := hsends
      refine ⟨hw.unsent hbefore, fun hk => ?_⟩
      have hcount := hw.counted hbefore
      have hwidth := hp.redundancy
      omega
    refine ⟨hallowed, ?_⟩
    simp only [Trickle.step] at hstep
    by_cases hrun : w.tr.running params = true
    case neg =>
      have hidle : w.tr.timer params ticks draw = w.tr := by
        unfold timer
        rw [if_pos (by simp [hrun])]
      have hquiet : w.tr.transmits params ticks = false := by
        unfold transmits
        simp [hrun]
      rw [hidle, hquiet, if_neg (by simp [hrun])] at hstep
      cases hstep
      exact hw
    by_cases hover : w.tr.interval ≤ min (w.tr.now + ticks) timeMax
    · rw [if_pos (by simp [hrun, hover])] at hstep
      cases hstep
      unfold timer
      rw [if_neg (by simp [hrun])]
      dsimp only
      rw [if_pos hover]
      exact kept_fresh (doubled_bounds hp hinterval) hp.one_le hdrawn.2 rfl
    · have hnow : w.tr.timer params ticks draw
          = { w.tr with now := min (w.tr.now + ticks) timeMax } := by
        unfold timer
        rw [if_neg (by simp [hrun])]
        dsimp only
        rw [if_neg hover]
      have hmax := hp.width
      rw [hnow, if_neg (by simp [hover])] at hstep
      cases hstep
      have hlater : w.tr.now ≤ min (w.tr.now + ticks) timeMax := by
        have hin := hw.good.now
        omega
      refine ⟨⟨hinterval, Nat.lt_of_not_le hover, hw.good.half, ?_⟩, fun hbefore => ?_,
        fun hbefore => hw.counted (Nat.lt_of_le_of_lt hlater hbefore)⟩
      · cases hsends : w.tr.transmits params ticks with
        | true =>
          have hzero := (hallowed hsends).1
          change w.sent + 1 ≤ 1
          omega
        | false => exact hw.good.once
      · -- the firing point is still to come, so nothing was sent in this step
        have hzero := hw.unsent (Nat.lt_of_le_of_lt hlater hbefore)
        have hquiet : w.tr.transmits params ticks = false := by
          unfold transmits
          refine Bool.and_eq_false_imp.mpr fun _ => decide_eq_false fun hsends => ?_
          exact absurd hsends.2.1 (Nat.not_le_of_lt hbefore)
        change w.sent + (w.tr.transmits params ticks).toNat = 0
        rw [hquiet, hzero]
        rfl
  | consistent =>
    cases hstep
    refine ⟨trivial, ⟨hinterval, hw.good.now, hw.good.half, hw.good.once⟩, hw.unsent,
      fun hbefore => ?_⟩
    have hearly : w.tr.now < w.tr.t := hbefore
    have hcount := hw.counted hearly
    have hone : (decide (w.tr.now < w.tr.t)).toNat = 1 := by rw [decide_eq_true hearly]; rfl
    change min (w.tr.c + 1) (2 ^ 8 - 1) = min (w.heard + _) (2 ^ 8 - 1)
    omega
  | inconsistent draw =>
    refine ⟨trivial, ?_⟩
    simp only [Trickle.step] at hstep
    split at hstep
    · next hreset =>
      cases hstep
      unfold inconsistentHeard
      rw [if_pos hreset]
      exact kept_fresh ⟨Nat.le_refl _, hp.le⟩ hp.one_le hdrawn rfl
    · next hsame =>
      cases hstep
      have hidle : w.tr.inconsistentHeard params draw = w.tr := by
        unfold inconsistentHeard
        rw [if_neg hsame]
      rw [hidle]
      exact hw
  | stop =>
    cases hstep
    exact ⟨trivial, ⟨hinterval, hw.good.now, hw.good.half, hw.good.once⟩, hw.unsent, hw.counted⟩

/-- **Every run** from a timer that is as it should be. -/
theorem Kept.run (hp : Valid params) (hw : Kept params w) {ops : List Op}
    (hdrawn : Runs.Meets (Trickle.step params) (Drawn params) w ops) :
    Runs.Meets (Trickle.step params) (fun w op => Good params w ∧ Allowed params w op) w ops ∧
      ∀ w', Runs.run (Trickle.step params) w ops = some w' → Good params w' := by
  induction ops generalizing w with
  | nil =>
    refine ⟨trivial, fun w' hrun => ?_⟩
    cases hrun
    exact hw.good
  | cons op ops ih =>
    obtain ⟨hop, hrest⟩ := hdrawn
    obtain ⟨next, hnext⟩ : ∃ next, Trickle.step params w op = some next := by
      cases op with
      | timer ticks draw =>
        simp only [Trickle.step]
        split <;> exact ⟨_, rfl⟩
      | inconsistent draw =>
        simp only [Trickle.step]
        split <;> exact ⟨_, rfl⟩
      | _ => exact ⟨_, rfl⟩
    obtain ⟨hallowed, hkept⟩ := hw.step hp hop hnext
    refine ⟨⟨⟨hw.good, hallowed⟩, fun u hu => (ih (hw.step hp hop hu).2 (hrest u hu)).1⟩,
      fun u hu => ?_⟩
    obtain ⟨v, hv, hu⟩ := Runs.run_cons_iff.mp hu
    exact (ih (hw.step hp hop hv).2 (hrest v hv)).2 u hu

/-! ## The end of a timer -/

/-- The ticks that the intervals up to the last expiration take. -/
def rest (params : TrickleParams) : Nat → Nat → Nat
  | 0, _ => 0
  | expirations + 1, interval =>
      interval + rest params expirations (doubled params interval)

/-- The intervals which `trickle_timer_max` adds. -/
def later (params : TrickleParams) : Nat → Nat → Nat
  | 0, _ => 0
  | expirations + 1, interval =>
      doubled params interval + later params expirations (doubled params interval)

/-- `trickle_timer` once for each number, one tick at a time. -/
def single (params : TrickleParams) (draws : List Nat) (tr : Trickle) : Trickle :=
  draws.foldl (fun tr draw => tr.timer params 1 draw) tr

/-- The ticks before the timer stops. -/
def left (params : TrickleParams) (tr : Trickle) : Nat :=
  rest params (params.timerExpirations - tr.e) tr.interval - tr.now

/-- The interval is within its bounds and not over. -/
def Inside (params : TrickleParams) (tr : Trickle) : Prop :=
  (params.imin ≤ tr.interval ∧ tr.interval ≤ params.imax) ∧ tr.now < tr.interval

theorem doubled_mono {a b : Nat} (h : a ≤ b) : doubled params a ≤ doubled params b := by
  unfold doubled timeMax
  split <;> split <;> omega

theorem rest_le_later {expirations a b : Nat} (h : a ≤ doubled params b) :
    rest params expirations a ≤ later params expirations b := by
  induction expirations generalizing a b with
  | zero => exact Nat.le_refl 0
  | succ expirations ih => exact Nat.add_le_add h (ih (doubled_mono h))

theorem rest_mono {m n interval : Nat} (h : m ≤ n) :
    rest params m interval ≤ rest params n interval := by
  induction m generalizing n interval with
  | zero => exact Nat.zero_le _
  | succ m ih =>
    obtain ⟨n, rfl⟩ : ∃ j, n = j + 1 := ⟨n - 1, by omega⟩
    exact Nat.add_le_add_left (ih (Nat.le_of_succ_le_succ h)) interval

/-- The sum does not overflow. -/
theorem maxLoop_eq {expirations time total : Nat} (hmax : params.imax ≤ timeMax)
    (h : total + expirations * timeMax < 2 ^ 32) :
    maxLoop params expirations time total = total + later params expirations time := by
  induction expirations generalizing time total with
  | zero => rfl
  | succ expirations ih =>
    have hle : doubled params time ≤ timeMax := Nat.le_trans (Nat.min_le_right _ _) hmax
    rw [Nat.succ_mul] at h
    have hfits : (total + doubled params time) % 2 ^ 32 = total + doubled params time :=
      Nat.mod_eq_of_lt (by omega)
    calc maxLoop params (expirations + 1) time total
        = maxLoop params expirations (doubled params time) (total + doubled params time) := by
          rw [maxLoop, hfits]
      _ = total + doubled params time + later params expirations (doubled params time) :=
          ih (by omega)
      _ = total + later params (expirations + 1) time := Nat.add_assoc _ _ _

/-- A tick of a timer that runs is one tick less. -/
theorem Inside.tick {draw : Nat} (hp : Valid params) (h : Inside params tr) :
    Inside params (tr.timer params 1 draw) ∧
      left params (tr.timer params 1 draw) = left params tr - 1 := by
  obtain ⟨hbounds, hnow⟩ := h
  have hwidth := Nat.le_trans hbounds.2 hp.width
  by_cases hrun : tr.e < params.timerExpirations
  case neg =>
    have hidle : tr.timer params 1 draw = tr := by
      unfold timer
      rw [if_pos (by simp [running, hrun])]
    have hzero : left params tr = 0 := by
      unfold left
      rw [Nat.sub_eq_zero_of_le (Nat.le_of_not_lt hrun)]
      exact Nat.zero_sub _
    rw [hidle, hzero]
    exact ⟨⟨hbounds, hnow⟩, rfl⟩
  have htick : min (tr.now + 1) timeMax = tr.now + 1 := by omega
  obtain ⟨n, hn⟩ : ∃ n, params.timerExpirations - tr.e = n + 1 :=
    ⟨params.timerExpirations - tr.e - 1, by omega⟩
  have hold : left params tr
      = tr.interval + rest params n (doubled params tr.interval) - tr.now := by
    unfold left
    rw [hn]
    rfl
  unfold timer
  rw [if_neg (by simp [running, hrun])]
  dsimp only
  rw [htick]
  split
  · next hover =>
    have hexpired : (if tr.e < infinite - 1 then tr.e + 1 else tr.e) = tr.e + 1 := by
      have hfinite := hp.expirations
      rw [if_pos (by omega)]
    have hnew := doubled_bounds hp hbounds
    refine ⟨⟨hnew, Nat.lt_of_lt_of_le hp.one_le hnew.1⟩, ?_⟩
    rw [hexpired, hold]
    change rest params (params.timerExpirations - (tr.e + 1)) (doubled params tr.interval) - 0 = _
    rw [show params.timerExpirations - (tr.e + 1) = n by omega]
    omega
  · next hin =>
    refine ⟨⟨hbounds, Nat.lt_of_not_le hin⟩, ?_⟩
    exact (Nat.sub_sub _ _ _).symm

/-- Single ticks count down. -/
theorem Inside.single (hp : Valid params) (draws : List Nat) (h : Inside params tr) :
    Inside params (Trickle.single params draws tr) ∧
      left params (Trickle.single params draws tr) = left params tr - draws.length := by
  induction draws generalizing tr with
  | nil => exact ⟨h, rfl⟩
  | cons draw draws ih =>
    obtain ⟨hin, hleft⟩ := @Inside.tick _ _ draw hp h
    obtain ⟨hend, hcount⟩ := ih hin
    refine ⟨hend, hcount.trans ?_⟩
    rw [hleft, List.length_cons]
    omega

/-- A timer with no tick left has stopped. -/
theorem Inside.stopped (h : Inside params tr) (hleft : left params tr = 0) :
    tr.running params = false := by
  refine decide_eq_false fun hrun => ?_
  obtain ⟨n, hn⟩ : ∃ n, params.timerExpirations - tr.e = n + 1 :=
    ⟨params.timerExpirations - tr.e - 1, by omega⟩
  unfold left at hleft
  rw [hn] at hleft
  change tr.interval + rest params n (doubled params tr.interval) - tr.now = 0 at hleft
  have hnow := h.2
  omega

/-- An inconsistency makes an interval of the shortest length. -/
theorem Inside.inconsistentHeard {draw : Nat} (hp : Valid params) (h : Inside params tr) :
    Inside params (tr.inconsistentHeard params draw) ∧
      (tr.inconsistentHeard params draw).interval = params.imin := by
  unfold Trickle.inconsistentHeard
  split
  · exact ⟨⟨⟨Nat.le_refl _, hp.le⟩, hp.one_le⟩, rfl⟩
  · next hsame =>
    exact ⟨h, Classical.not_not.mp fun hne => hsame (Or.inl hne)⟩

/-- `trickle_timer_max` is the sum of its intervals. -/
theorem timerMax_eq (hp : Valid params) :
    timerMax params params.timerExpirations
      = params.imin - 1 + later params params.timerExpirations (params.imin - 1) := by
  have hle := hp.le
  have hwidth := hp.width
  have hfinite := Nat.mul_le_mul_right timeMax (Nat.le_of_lt hp.expirations)
  refine maxLoop_eq hp.width ?_
  unfold timeMax infinite at *
  omega

/-- The schedule of `trickle_timer_max` is long enough. -/
theorem left_le_timerMax (hp : Valid params) (htwo : 2 ≤ params.imin)
    (hmin : tr.interval = params.imin) :
    left params tr ≤ timerMax params params.timerExpirations := by
  have hfirst : params.imin ≤ doubled params (params.imin - 1) := by
    have hle := hp.le
    have hwidth := hp.width
    unfold doubled
    split <;> omega
  calc left params tr
      ≤ rest params (params.timerExpirations - tr.e) tr.interval := Nat.sub_le _ _
    _ = rest params (params.timerExpirations - tr.e) params.imin := by rw [hmin]
    _ ≤ rest params params.timerExpirations params.imin := rest_mono (Nat.sub_le _ _)
    _ ≤ later params params.timerExpirations (params.imin - 1) := rest_le_later hfirst
    _ ≤ timerMax params params.timerExpirations := by
        rw [timerMax_eq hp]
        exact Nat.le_add_left _ _

/-- With intervals of one tick the schedule has no tick at all. -/
theorem later_zero (expirations : Nat) : later params expirations 0 = 0 := by
  induction expirations with
  | zero => rfl
  | succ expirations ih =>
    have hnone : doubled params 0 = 0 := Nat.zero_min _
    rw [later, hnone, ih]

/-- After `trickle_timer_max` single ticks the timer has stopped. -/
def StopsInTime (params : TrickleParams) (tr : Trickle) : Prop :=
  ∀ draw draws, InHalf params.imin draw →
    draws.length = timerMax params params.timerExpirations →
    (Trickle.single params draws (tr.inconsistentHeard params draw)).running params = false

theorem Good.stopsInTime (hp : Valid params) (h : Good params w)
    (hcond : 2 ≤ params.imin ∨ params.timerExpirations = 0) : StopsInTime params w.tr := by
  intro draw draws _ hlength
  have hinside : Inside params w.tr := ⟨h.interval, h.now⟩
  obtain ⟨hafter, hmin⟩ := @Inside.inconsistentHeard _ _ draw hp hinside
  obtain ⟨hend, hleft⟩ := hafter.single hp draws
  refine hend.stopped ?_
  rw [hleft, hlength]
  refine Nat.sub_eq_zero_of_le ?_
  cases hcond with
  | inl htwo => exact left_le_timerMax hp htwo hmin
  | inr hnone =>
    unfold left
    rw [hnone, Nat.zero_sub]
    exact Nat.le_trans (Nat.sub_le _ _) (Nat.zero_le _)

/-- **Trickle timers.**  Every run keeps the interval, the firing point and what is sent as they
should be.  Exactly with intervals of two ticks or more, or without any expirations, a timer that
an inconsistency starts also stops within `trickle_timer_max`. -/
theorem runs_good_iff (hp : Valid params) :
    (∀ (tr : Trickle) interval draw ops, params.imin ≤ interval → interval ≤ params.imax →
      InHalf interval draw →
      Runs.Meets (step params) (Drawn params) (.fresh (tr.start interval draw)) ops →
      Runs.Meets (step params) (fun w op => Good params w ∧ Allowed params w op)
          (.fresh (tr.start interval draw)) ops ∧
        ∀ w, Runs.run (step params) (.fresh (tr.start interval draw)) ops = some w →
          Good params w ∧ StopsInTime params w.tr) ↔
      2 ≤ params.imin ∨ params.timerExpirations = 0 := by
  constructor
  · intro h
    apply Classical.byContradiction
    intro hcond
    have hone := hp.one_le
    have hmin : params.imin = 1 := by omega
    have hnone : timerMax params params.timerExpirations = 0 := by
      rw [timerMax_eq hp, hmin, later_zero]
    have hdraw : InHalf 1 0 := fun hlong => by omega
    obtain ⟨-, hend⟩ := h ⟨0, 0, 0, 0, 0⟩ params.imin 0 [] (Nat.le_refl _) hp.le
      (hmin ▸ hdraw) trivial
    have hstopped := (hend _ rfl).2 0 [] (hmin ▸ hdraw) hnone.symm
    have hruns := (inconsistentHeard_restarts params 0
      (Trickle.start params.imin 0 ⟨0, 0, 0, 0, 0⟩)).2 (by omega)
    exact Bool.false_ne_true (hstopped.symm.trans hruns)
  · intro hcond tr interval draw ops hmin hmax hdraw hdrawn
    have hstart : Kept params (.fresh (tr.start interval draw)) :=
      kept_fresh ⟨hmin, hmax⟩ hp.one_le hdraw rfl
    obtain ⟨hsteps, hend⟩ := hstart.run hp hdrawn
    exact ⟨hsteps, fun w hw => ⟨hend w hw, (hend w hw).stopsInTime hp hcond⟩⟩

/-- Intervals of two to eight ticks, with three expirations. -/
theorem runs_good_iff_two :
    Valid ⟨2, 8, 1, 3⟩ ∧
      ((∀ (tr : Trickle) interval draw ops, 2 ≤ interval → interval ≤ 8 → InHalf interval draw →
        Runs.Meets (step ⟨2, 8, 1, 3⟩) (Drawn ⟨2, 8, 1, 3⟩) (.fresh (tr.start interval draw)) ops →
        Runs.Meets (step ⟨2, 8, 1, 3⟩)
            (fun w op => Good ⟨2, 8, 1, 3⟩ w ∧ Allowed ⟨2, 8, 1, 3⟩ w op)
            (.fresh (tr.start interval draw)) ops ∧
          ∀ w, Runs.run (step ⟨2, 8, 1, 3⟩) (.fresh (tr.start interval draw)) ops = some w →
            Good ⟨2, 8, 1, 3⟩ w ∧ StopsInTime ⟨2, 8, 1, 3⟩ w.tr) ↔ 2 ≤ 2 ∨ 3 = 0) :=
  have hvalid : Valid ⟨2, 8, 1, 3⟩ := ⟨by decide, by decide, by decide, by decide, by decide⟩
  ⟨hvalid, runs_good_iff hvalid⟩

/-- Where the shortest interval is a single tick, the maximum is no tick, and the timer runs. -/
theorem single_tick_too_long :
    Valid ⟨1, 1, 1, 1⟩ ∧ timerMax ⟨1, 1, 1, 1⟩ 1 = 0 ∧
      ¬StopsInTime ⟨1, 1, 1, 1⟩ (Trickle.start 1 0 ⟨0, 0, 0, 0, 0⟩).stop :=
  ⟨⟨by decide, by decide, by decide, by decide, by decide⟩, rfl, fun h =>
    absurd (h 0 [] (fun hlong => absurd hlong (by decide)) rfl) (by decide)⟩

end Trickle
