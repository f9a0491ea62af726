import Mathlib.Tactic.Common

/-!
# Runs of a labelled machine

A machine is a partial step function: the label carries every choice the
environment makes, so one label from one state gives at most one successor.
`run` performs a list of labels, and `Meets` says that a side condition holds
of each label in the state in which it is performed.

The two rules used everywhere are `run_invariant` (a predicate kept by every
step that meets the condition holds at the end of every run whose steps meet
it) and `run_append` (a run is the run of its prefix followed by the run of
the rest).
-/

namespace Runs

universe u v

variable {σ : Type u} {α : Type v}

/-- Perform the labels from left to right; a label which is not enabled stops
the run. -/
def run (step : σ → α → Option σ) : σ → List α → Option σ
  | s, [] => some s
  | s, a :: as => (step s a).bind fun t => run step t as

/-- Every label is performed in a state in which `ok` allows it. -/
def Meets (step : σ → α → Option σ) (ok : σ → α → Prop) : σ → List α → Prop
  | _, [] => True
  | s, a :: as => ok s a ∧ ∀ t, step s a = some t → Meets step ok t as

variable {step : σ → α → Option σ} {ok : σ → α → Prop}

/-- Side conditions of concrete runs are decided by performing the run. -/
instance decidableMeets [∀ s a, Decidable (ok s a)] :
    ∀ (s : σ) (as : List α), Decidable (Meets step ok s as)
  | _, [] => isTrue trivial
  | s, a :: as =>
      match h : step s a with
      | none => decidable_of_iff (ok s a) (by simp [Meets, h])
      | some t =>
          have := decidableMeets t as
          decidable_of_iff (ok s a ∧ Meets step ok t as) (by simp [Meets, h])

/-- So is what holds in the state reached. -/
instance decidableReached {β : Type v} (o : Option β) (p : β → Prop)
    [DecidablePred p] : Decidable (∃ b, o = some b ∧ p b) :=
  match o with
  | none => isFalse (by simp)
  | some b => decidable_of_iff (p b) (by simp)

/-- And what holds whenever there is an answer. -/
instance decidableAnswered {β : Type v} (o : Option β) (p : β → Prop)
    [DecidablePred p] : Decidable (∀ b, o = some b → p b) :=
  match o with
  | none => isTrue (by simp)
  | some b => decidable_of_iff (p b) (by simp)

@[simp] theorem run_nil (s : σ) : run step s [] = some s := rfl

theorem run_cons_iff {s t : σ} {a : α} {as : List α} :
    run step s (a :: as) = some t ↔
      ∃ m, step s a = some m ∧ run step m as = some t := by
  simp only [run, Option.bind_eq_some_iff]

/-- A run splits at any point of its label list. -/
theorem run_append (s : σ) (as bs : List α) :
    run step s (as ++ bs) = (run step s as).bind fun m => run step m bs := by
  induction as generalizing s with
  | nil => rfl
  | cons a as ih =>
      simp only [List.cons_append, run]
      cases step s a with
      | none => rfl
      | some m => exact ih m

theorem run_trans {s m t : σ} {as bs : List α}
    (hl : run step s as = some m) (hr : run step m bs = some t) :
    run step s (as ++ bs) = some t := by
  rw [run_append, hl]
  exact hr

/-- A concrete run meets a condition if each of its steps does. -/
theorem meets_cons {s t : σ} {a : α} {as : List α} (h : ok s a)
    (hstep : step s a = some t) (hrest : Meets step ok t as) :
    Meets step ok s (a :: as) := by
  refine ⟨h, fun t' ht' => ?_⟩
  obtain rfl : t = t' := Option.some.inj (hstep.symm.trans ht')
  exact hrest

/-- The side condition of a run splits at any point as well. -/
theorem meets_append {s : σ} {as bs : List α} :
    Meets step ok s (as ++ bs) ↔
      Meets step ok s as ∧
        ∀ m, run step s as = some m → Meets step ok m bs := by
  induction as generalizing s with
  | nil => simp [Meets]
  | cons a as ih =>
      constructor
      · rintro ⟨ha, hrest⟩
        refine ⟨⟨ha, fun t ht => (ih.mp (hrest t ht)).1⟩, ?_⟩
        intro m hm
        obtain ⟨t, ht, htm⟩ := run_cons_iff.mp hm
        exact (ih.mp (hrest t ht)).2 m htm
      · rintro ⟨⟨ha, hrest⟩, hlast⟩
        refine ⟨ha, fun t ht => ih.mpr ⟨hrest t ht, ?_⟩⟩
        intro m hm
        exact hlast m (run_cons_iff.mpr ⟨t, ht, hm⟩)

theorem Meets.mono {ok' : σ → α → Prop} (himp : ∀ s a, ok s a → ok' s a) :
    ∀ {as : List α} {s : σ}, Meets step ok s as → Meets step ok' s as := by
  intro as
  induction as with
  | nil => intro s _; trivial
  | cons a as ih =>
      rintro s ⟨ha, hrest⟩
      exact ⟨himp s a ha, fun t ht => ih (hrest t ht)⟩

/-- Two side conditions met separately are met together. -/
theorem Meets.and {ok' : σ → α → Prop} :
    ∀ {as : List α} {s : σ}, Meets step ok s as → Meets step ok' s as →
      Meets step (fun s a => ok s a ∧ ok' s a) s as := by
  intro as
  induction as with
  | nil => intro s _ _; trivial
  | cons a as ih =>
      rintro s ⟨ha, hrest⟩ ⟨ha', hrest'⟩
      exact ⟨⟨ha, ha'⟩, fun t ht => ih (hrest t ht) (hrest' t ht)⟩

/-- **Invariant rule.**  What every allowed step keeps, every run of allowed
steps keeps. -/
theorem run_invariant (inv : σ → Prop)
    (hstep : ∀ s a t, inv s → ok s a → step s a = some t → inv t) :
    ∀ {as : List α} {s t : σ}, inv s → Meets step ok s as →
      run step s as = some t → inv t := by
  intro as
  induction as with
  | nil =>
      intro s t hs _ hrun
      cases hrun
      exact hs
  | cons a as ih =>
      rintro s t hs ⟨ha, hrest⟩ hrun
      obtain ⟨m, hm, hmt⟩ := run_cons_iff.mp hrun
      exact ih (hstep s a m hs ha hm) (hrest m hm) hmt

/-- Where every allowed step answers and keeps what was true, so does a run. -/
theorem run_answers (inv : σ → Prop)
    (hstep : ∀ s a, inv s → ok s a → ∃ t, step s a = some t ∧ inv t) :
    ∀ {as : List α} {s : σ}, inv s → Meets step ok s as →
      ∃ t, run step s as = some t ∧ inv t := by
  intro as
  induction as with
  | nil => exact fun hs _ => ⟨_, rfl, hs⟩
  | cons a as ih =>
      rintro s hs ⟨ha, hrest⟩
      obtain ⟨m, hm, hinv⟩ := hstep s a hs ha
      obtain ⟨t, ht, hinv'⟩ := ih hinv (hrest m hm)
      exact ⟨t, run_cons_iff.mpr ⟨m, hm, ht⟩, hinv'⟩

/-- The invariant rule for a run with no side condition. -/
theorem run_invariant_free (inv : σ → Prop)
    (hstep : ∀ s a t, inv s → step s a = some t → inv t)
    {as : List α} {s t : σ} (hs : inv s) (hrun : run step s as = some t) :
    inv t := by
  have hfree : Meets step (fun _ _ => True) s as := by
    clear hrun hs
    induction as generalizing s with
    | nil => trivial
    | cons a as ih => exact ⟨trivial, fun m _ => ih⟩
  exact run_invariant inv (fun s a t hs _ ht => hstep s a t hs ht) hs hfree hrun

end Runs
