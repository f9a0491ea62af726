import Mathlib.Algebra.GroupWithZero.Nat
import Mathlib.Tactic.Common

/-!
# Trickle timers

`trickle.c`.  A random number drawn is an argument of the function which draws
it.
-/

/-- `trickle_params_t` -/
structure TrickleParams where
  imin : Nat
  imax : Nat
  k : Nat
  timerExpirations : Nat
  deriving DecidableEq, Repr

/-- `trickle_t` -/
structure Trickle where
  c : Nat
  e : Nat
  interval : Nat
  t : Nat
  now : Nat
  deriving DecidableEq, Repr

namespace Trickle

/-- `TRICKLE_TIME_MAX` -/
def timeMax : Nat := 2 ^ 16 - 1

/-- `TRICKLE_EXPIRATIONS_INFINITE` -/
def infinite : Nat := 2 ^ 8 - 1

/-- `trickle_begin_interval` -/
def beginInterval (draw : Nat) (tr : Trickle) : Trickle :=
  { tr with c := 0, t := if 2 < tr.interval then draw else 1, now := 0 }

/-- `trickle_start` -/
def start (interval draw : Nat) (tr : Trickle) : Trickle :=
  beginInterval draw { tr with e := 0, interval }

/-- `trickle_reset_timer` -/
def resetTimer (params : TrickleParams) (draw : Nat) (tr : Trickle) : Trickle :=
  beginInterval draw { tr with e := 0, interval := params.imin }

/-- `trickle_running` -/
def running (params : TrickleParams) (tr : Trickle) : Bool :=
  decide (tr.e < params.timerExpirations)

/-- `trickle_consistent_heard` -/
def consistentHeard (tr : Trickle) : Trickle := { tr with c := min (tr.c + 1) (2 ^ 8 - 1) }

/-- `trickle_inconsistent_heard` -/
def inconsistentHeard (params : TrickleParams) (draw : Nat) (tr : Trickle) : Trickle :=
  if tr.interval ≠ params.imin ∨ ¬tr.running params then tr.resetTimer params draw else tr

/-- `trickle_stop` -/
def stop (tr : Trickle) : Trickle := { tr with e := infinite }

/-- `trickle_timer`, without the answer whether to send. -/
def timer (params : TrickleParams) (ticks draw : Nat) (tr : Trickle) : Trickle :=
  if !tr.running params then tr
  else
    let now := min (tr.now + ticks) timeMax
    if tr.interval ≤ now then
      beginInterval draw { tr with
        interval := min (if tr.interval ≤ timeMax / 2 then tr.interval * 2 else timeMax)
          params.imax
        e := if tr.e < infinite - 1 then tr.e + 1 else tr.e }
    else { tr with now }

/-- An inconsistency leaves the timer in an interval of the shortest length, and
running, unless it never runs. -/
theorem inconsistentHeard_restarts (params : TrickleParams) (draw : Nat) (tr : Trickle) :
    (tr.inconsistentHeard params draw).interval = params.imin ∧
      (0 < params.timerExpirations → (tr.inconsistentHeard params draw).running params = true) := by
  unfold inconsistentHeard
  split
  · exact ⟨rfl, fun h => by simp [resetTimer, beginInterval, running, h]⟩
  · rename_i hsame
    simp only [ne_eq, Bool.not_eq_true, not_or, not_not, Bool.not_eq_false] at hsame
    exact ⟨hsame.1, fun _ => hsame.2⟩

end Trickle
