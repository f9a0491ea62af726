import Mathlib.Tactic.Common

/-!
# Computations with faults

A computation in `Except` returns a value or stops with a fault.  `Meets allowed x post`
says that `x` returns only values of `post` and stops only with faults that are allowed.
With no fault allowed it is total correctness, with all of them partial correctness.

A computation is followed by rewriting with `meets_bind`; a loop over a list is
`meets_foldlM`.
-/

namespace Faults

universe u v

variable {ε : Type u} {α β : Type v} {allowed : ε → Prop}

/-- `x` returns only values of `post` and stops only with allowed faults. -/
def Meets (allowed : ε → Prop) (x : Except ε α) (post : α → Prop) : Prop :=
  match x with
  | .ok a => post a
  | .error e => allowed e

@[simp] theorem meets_ok {a : α} {post : α → Prop} :
    Meets allowed (.ok a) post ↔ post a := Iff.rfl

@[simp] theorem meets_pure {a : α} {post : α → Prop} :
    Meets allowed (pure a) post ↔ post a := Iff.rfl

@[simp] theorem meets_bind {x : Except ε α} {f : α → Except ε β} {post : β → Prop} :
    Meets allowed (x >>= f) post ↔ Meets allowed x fun a => Meets allowed (f a) post := by
  cases x <;> rfl

@[simp] theorem meets_map {x : Except ε α} {f : α → β} {post : β → Prop} :
    Meets allowed (f <$> x) post ↔ Meets allowed x fun a => post (f a) := by
  cases x <;> rfl

theorem Meets.mono {x : Except ε α} {post post' : α → Prop} (h : Meets allowed x post)
    (himp : ∀ a, post a → post' a) : Meets allowed x post' := by
  cases x with
  | ok a => exact himp a h
  | error e => exact h

/-- What a computation returns satisfies what it meets. -/
theorem Meets.of_eq {x : Except ε α} {post : α → Prop} {a : α} (h : Meets allowed x post)
    (heq : x = .ok a) : post a := by
  subst heq
  exact h

/-- The faults of a computation are allowed. -/
theorem Meets.allowed_of_eq {x : Except ε α} {post : α → Prop} {e : ε}
    (h : Meets allowed x post) (heq : x = .error e) : allowed e := by
  subst heq
  exact h

/-- Two things met are met together. -/
theorem Meets.and {x : Except ε α} {post post' : α → Prop} (h : Meets allowed x post)
    (h' : Meets allowed x post') : Meets allowed x fun a => post a ∧ post' a := by
  cases x with
  | ok a => exact ⟨h, h'⟩
  | error e => exact h

/-- **Loop rule.**  `inv` holds of what was accumulated over the elements behind. -/
theorem meets_foldlM {ι : Type v} {f : α → ι → Except ε α} (inv : α → Prop)
    {is : List ι} (hstep : ∀ a i, i ∈ is → inv a → Meets allowed (f a i) inv) :
    ∀ {a : α}, inv a → Meets allowed (is.foldlM f a) inv := by
  induction is with
  | nil => exact fun ha => ha
  | cons i is ih =>
      intro a ha
      rw [List.foldlM_cons, meets_bind]
      refine (hstep a i List.mem_cons_self ha).mono fun b hb => ?_
      exact ih (fun a j hj => hstep a j (List.mem_cons_of_mem _ hj)) hb

/-- A computation for each element of a list. -/
theorem meets_mapM {ι : Type v} {f : ι → Except ε β} {is : List ι}
    (h : ∀ i ∈ is, Meets allowed (f i) fun _ => True) :
    Meets allowed (is.mapM f) fun _ => True := by
  induction is with
  | nil => trivial
  | cons i is ih =>
      rw [List.mapM_cons, meets_bind]
      refine (h i List.mem_cons_self).mono fun b _ => ?_
      rw [meets_bind]
      exact (ih fun j hj => h j (List.mem_cons_of_mem i hj)).mono fun _ _ => trivial

/-! ## Runs -/

section

variable {σ ι : Type v} {step : σ → ι → Except ε σ} {cond : σ → ι → Prop}

/-- Each step of a run starts in a state in which its condition holds. -/
def Along (step : σ → ι → Except ε σ) (cond : σ → ι → Prop) : σ → List ι → Prop
  | _, [] => True
  | s, i :: is => cond s i ∧ ∀ t, step s i = .ok t → Along step cond t is

/-- **Run rule.**  An invariant that each step keeps under its condition holds in every
state of a run whose steps meet the condition, and no other fault ends the run. -/
theorem meets_run {inv : σ → Prop}
    (hstep : ∀ s i, inv s → cond s i → Meets allowed (step s i) inv) {is : List ι} :
    ∀ {s : σ}, inv s → Along step cond s is → Meets allowed (is.foldlM step s) inv := by
  induction is with
  | nil => exact fun hs _ => hs
  | cons i is ih =>
      intro s hs halong
      rw [List.foldlM_cons, meets_bind]
      cases heq : step s i with
      | ok t => exact ih ((hstep s i hs halong.1).of_eq heq) (halong.2 t heq)
      | error e => exact (hstep s i hs halong.1).allowed_of_eq heq

end

end Faults
