import Mathlib.Data.List.MinMax
import Mathlib.Tactic.Common

/-!
# The greatest elements of a list

`greatest f l` are the elements of `l` whose measure no other exceeds, in the order of the
list.  A scan that keeps the best element so far is followed from the front by
`greatest_concat`: a new element replaces all of them, joins them or is dropped.
-/

namespace Greatest

universe u

variable {α : Type u} (f : α → Nat)

/-- The elements of greatest measure. -/
def greatest (l : List α) : List α := l.filter fun a => l.all fun b => f b ≤ f a

variable {f} {l : List α} {a b c : α}

theorem mem_greatest : a ∈ greatest f l ↔ a ∈ l ∧ ∀ b ∈ l, f b ≤ f a := by
  simp [greatest]

@[simp] theorem greatest_nil : greatest f [] = [] := rfl

@[simp] theorem greatest_singleton (a : α) : greatest f [a] = [a] := by
  simp [greatest]

/-- Greatest elements have the same measure. -/
theorem eq_of_mem_greatest (ha : a ∈ greatest f l) (hb : b ∈ greatest f l) : f a = f b := by
  obtain ⟨hmem, hle⟩ := mem_greatest.mp ha
  obtain ⟨hmem', hle'⟩ := mem_greatest.mp hb
  exact Nat.le_antisymm (hle' a hmem) (hle b hmem')

/-- A list that is not empty has a greatest element. -/
theorem exists_mem_greatest (hne : l ≠ []) : ∃ a, a ∈ greatest f l := by
  induction l with
  | nil => exact absurd rfl hne
  | cons b l ih =>
    by_cases hnil : l = []
    · subst hnil
      exact ⟨b, by simp⟩
    · obtain ⟨a, ha⟩ := ih hnil
      obtain ⟨hmem, hle⟩ := mem_greatest.mp ha
      by_cases hba : f b ≤ f a
      · refine ⟨a, mem_greatest.mpr ⟨List.mem_cons_of_mem _ hmem, ?_⟩⟩
        rintro c hc
        rcases List.mem_cons.mp hc with rfl | hc
        · exact hba
        · exact hle c hc
      · refine ⟨b, mem_greatest.mpr ⟨List.mem_cons_self .., ?_⟩⟩
        rintro c hc
        rcases List.mem_cons.mp hc with rfl | hc
        · exact Nat.le_refl _
        · exact Nat.le_trans (hle c hc) (by omega)

theorem greatest_eq_nil_iff : greatest f l = [] ↔ l = [] := by
  constructor
  · intro h
    by_contra hne
    obtain ⟨a, ha⟩ := exists_mem_greatest hne
    rw [h] at ha
    cases ha
  · rintro rfl
    rfl

/-- **One more element.**  Above the greatest ones it replaces them, beside them it joins
them, and below them it changes nothing. -/
theorem greatest_concat (ha : a ∈ greatest f l) (c : α) :
    greatest f (l ++ [c])
      = if f a < f c then [c] else if f c = f a then greatest f l ++ [c] else greatest f l := by
  obtain ⟨hmem, hle⟩ := mem_greatest.mp ha
  have hall : ∀ b, ((l ++ [c]).all fun d => decide (f d ≤ f b))
      = ((l.all fun d => decide (f d ≤ f b)) && decide (f c ≤ f b)) := by
    intro b
    simp
  unfold greatest
  rw [List.filter_append]
  simp only [hall]
  by_cases hlt : f a < f c
  · rw [if_pos hlt]
    have hold : l.filter (fun b => (l.all fun d => decide (f d ≤ f b)) && decide (f c ≤ f b)) = [] := by
      rw [List.filter_eq_nil_iff]
      intro b hb
      have hbc := hle b hb
      simp
      omega
    have hnew : (l.all fun d => decide (f d ≤ f c)) = true := by
      rw [List.all_eq_true]
      intro d hd
      have hda := hle d hd
      simp
      omega
    rw [hold]
    simp [hnew]
  · rw [if_neg hlt]
    have hkeep : ∀ b ∈ l, ((l.all fun d => decide (f d ≤ f b)) && decide (f c ≤ f b))
        = l.all fun d => decide (f d ≤ f b) := by
      intro b _
      cases hb : l.all fun d => decide (f d ≤ f b) with
      | false => rfl
      | true =>
        have hab := List.all_eq_true.mp hb a hmem
        simp at hab ⊢
        omega
    rw [List.filter_congr hkeep]
    by_cases heq : f c = f a
    · rw [if_pos heq]
      have hnew : (l.all fun d => decide (f d ≤ f c)) = true := by
        rw [List.all_eq_true]
        intro d hd
        have hda := hle d hd
        simp
        omega
      simp [hnew]
    · rw [if_neg heq]
      have hnew : (l.all fun d => decide (f d ≤ f c)) = false := by
        rw [List.all_eq_false]
        exact ⟨a, hmem, by simp; omega⟩
      simp [hnew]

/-- A map that keeps the measure keeps the greatest elements. -/
theorem greatest_map {g : α → α} (hg : ∀ a ∈ l, f (g a) = f a) :
    greatest f (l.map g) = (greatest f l).map g := by
  unfold greatest
  rw [List.filter_map]
  refine congrArg (List.map g) (List.filter_congr fun a ha => ?_)
  rw [Function.comp_apply, List.all_map, hg a ha]
  refine Bool.eq_iff_iff.mpr ?_
  rw [List.all_eq_true, List.all_eq_true]
  refine forall₂_congr fun b hb => ?_
  rw [Function.comp_apply, hg b hb]

/-- The first of the greatest elements. -/
theorem head?_greatest (f : α → Nat) (l : List α) : (greatest f l).head? = l.argmax f := by
  induction l using List.reverseRecOn with
  | nil => rfl
  | append_singleton l c ih =>
    rw [List.argmax_concat, ← ih]
    by_cases hnil : l = []
    · subst hnil
      simp
    obtain ⟨a, ha⟩ := exists_mem_greatest (f := f) hnil
    obtain ⟨b, hhead⟩ : ∃ b, (greatest f l).head? = some b :=
      Option.isSome_iff_exists.mp (List.isSome_head?.mpr (List.ne_nil_of_mem ha))
    have hb : b ∈ greatest f l := List.mem_of_mem_head? hhead
    rw [hhead, greatest_concat hb]
    dsimp only
    by_cases hlt : f b < f c
    · rw [if_pos hlt, if_pos hlt, List.head?_cons]
    · rw [if_neg hlt, if_neg hlt]
      by_cases heq : f c = f b
      · rw [if_pos heq, List.head?_append, hhead, Option.some_or]
      · rw [if_neg heq, hhead]

/-- The greatest elements of a part that holds the first of them. -/
theorem argmax_filter {p : α → Bool} (h : b ∈ l.argmax f) (hp : p b = true) :
    (l.filter p).argmax f = some b := by
  induction l using List.reverseRecOn generalizing b with
  | nil => cases h
  | append_singleton l c ih =>
    rw [List.argmax_concat] at h
    rw [List.filter_append]
    cases hl : l.argmax f with
    | none =>
      rw [List.argmax_eq_none] at hl
      subst hl
      cases h
      simp [hp]
    | some a =>
      rw [hl] at h
      dsimp only at h
      by_cases hlt : f a < f c
      · rw [if_pos hlt] at h
        cases h
        rw [List.filter_singleton, hp, cond_true, List.argmax_concat]
        cases hfil : (l.filter p).argmax f with
        | none => rfl
        | some d =>
          have hmem := (List.mem_filter.mp (List.argmax_mem hfil)).1
          have hle := List.le_of_mem_argmax hmem hl
          exact if_pos (by omega)
      · rw [if_neg hlt] at h
        cases h
        rw [List.filter_singleton]
        cases hc : p c with
        | false => simpa using ih hl hp
        | true =>
          rw [cond_true, List.argmax_concat, ih hl hp]
          exact if_neg hlt

end Greatest
