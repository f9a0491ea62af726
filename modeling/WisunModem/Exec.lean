import Mathlib.Data.List.Basic
import Mathlib.Tactic.Common

/-!
# Programs which may fault

A program reads and changes a state and either returns a value or stops with a
fault: `StateT σ (Except ε)`.  `Ends x s post` says that `x` run from `s` returns
without a fault and that `post` holds of what it returns and of the state it
leaves, so it is the weakest precondition of `post`.

A program is followed by rewriting with `ends_bind` and by citing one lemma
`Ends f s _` for each call, weakened with `Ends.mono` to what the rest of the
program needs.
-/

namespace Exec

universe u v

variable {σ : Type u} {ε : Type v} {α β : Type u}

/-- `x` run from `s` does not fault and leaves what `post` asks for. -/
def Ends (x : StateT σ (Except ε) α) (s : σ) (post : α → σ → Prop) : Prop :=
  ∃ a t, x.run s = .ok (a, t) ∧ post a t

theorem Ends.mono {x : StateT σ (Except ε) α} {s : σ} {post post' : α → σ → Prop}
    (h : Ends x s post) (himp : ∀ a t, post a t → post' a t) : Ends x s post' := by
  obtain ⟨a, t, hrun, hpost⟩ := h
  exact ⟨a, t, hrun, himp a t hpost⟩

@[simp] theorem ends_pure {a : α} {s : σ} {post : α → σ → Prop} :
    Ends (ε := ε) (pure a) s post ↔ post a s := by
  constructor
  · rintro ⟨b, t, hrun, hpost⟩
    cases hrun
    exact hpost
  · exact fun hpost => ⟨a, s, rfl, hpost⟩

@[simp] theorem ends_bind {x : StateT σ (Except ε) α} {f : α → StateT σ (Except ε) β}
    {s : σ} {post : β → σ → Prop} :
    Ends (x >>= f) s post ↔ Ends x s fun a t => Ends (f a) t post := by
  constructor
  · rintro ⟨b, t, hrun, hpost⟩
    rw [StateT.run_bind] at hrun
    cases hx : x.run s with
    | error e =>
        rw [hx] at hrun
        cases hrun
    | ok at' =>
        rw [hx] at hrun
        exact ⟨at'.1, at'.2, hx, b, t, hrun, hpost⟩
  · rintro ⟨a, t, hx, b, t', hf, hpost⟩
    refine ⟨b, t', ?_, hpost⟩
    rw [StateT.run_bind, hx]
    exact hf

@[simp] theorem ends_get {s : σ} {post : σ → σ → Prop} :
    Ends (ε := ε) (get : StateT σ (Except ε) σ) s post ↔ post s s := by
  constructor
  · rintro ⟨b, t, hrun, hpost⟩
    cases hrun
    exact hpost
  · exact fun hpost => ⟨s, s, rfl, hpost⟩

end Exec
