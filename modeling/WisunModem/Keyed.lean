import Mathlib.Algebra.BigOperators.Group.List.Basic
import Mathlib.Algebra.GroupWithZero.Nat
import Mathlib.Data.List.Basic
import Mathlib.Data.List.Nodup
import Mathlib.Tactic.Common

/-!
# Lists with keys

A list whose elements have keys, no two the same, is looked up and updated by key.
`sum_update` is the account: what an update adds to the weight of the list is what
it adds to the weight of the element.
-/

namespace Keyed

universe u v

variable {α : Type u} {κ : Type v} [DecidableEq κ] (key : α → κ)

/-- The element with this key. -/
def lookup (k : κ) (l : List α) : Option α := l.find? fun x => key x = k

/-- Change the element with this key. -/
def update (k : κ) (f : α → α) (l : List α) : List α :=
  l.map fun x => if key x = k then f x else x

variable {key} {k j : κ} {f : α → α} {l : List α} {x y : α}

theorem key_of_lookup (h : lookup key k l = some x) : key x = k := by
  simpa using List.find?_some h

theorem mem_of_lookup (h : lookup key k l = some x) : x ∈ l := List.mem_of_find?_eq_some h

theorem lookup_eq_none : lookup key k l = none ↔ ∀ x ∈ l, key x ≠ k := by
  simp [lookup]

/-- With distinct keys, the lookup finds every element. -/
theorem lookup_of_mem (hnd : (l.map key).Nodup) (h : x ∈ l) : lookup key (key x) l = some x := by
  induction l with
  | nil => cases h
  | cons z l ih =>
      rw [List.map_cons, List.nodup_cons] at hnd
      rcases List.mem_cons.mp h with rfl | h
      · simp [lookup]
      · have hne : key z ≠ key x := fun heq => hnd.1 (heq ▸ List.mem_map_of_mem h)
        have hrest := ih hnd.2 h
        simpa [lookup, List.find?_cons, hne] using hrest

theorem eq_of_lookup (hnd : (l.map key).Nodup) (hk : lookup key k l = some x) (hy : y ∈ l)
    (hkey : key y = k) : y = x := by
  have hself := lookup_of_mem hnd hy
  rw [hkey, hk] at hself
  exact (Option.some.inj hself).symm

/-- Lookup in the image of a list, by keys which agree. -/
theorem lookup_map {β : Type u} {g : α → β} {key' : β → κ} (h : ∀ x, key' (g x) = key x) :
    lookup key' k (l.map g) = (lookup key k l).map g := by
  unfold lookup
  rw [List.find?_map]
  simp only [Function.comp_def, h]

theorem keys_update (hf : ∀ x, key x = k → key (f x) = k) :
    (update key k f l).map key = l.map key := by
  rw [update, List.map_map]
  apply List.map_congr_left
  intro x _
  dsimp only [Function.comp]
  split
  · rename_i hkey
    rw [hf x hkey, hkey]
  · rfl

/-- An element of an updated list is the one changed or an old one with another
key. -/
theorem mem_update (hnd : (l.map key).Nodup) (hk : lookup key k l = some x)
    (hy : y ∈ update key k f l) : y = f x ∨ y ∈ l ∧ key y ≠ k := by
  rw [update, List.mem_map] at hy
  obtain ⟨z, hz, rfl⟩ := hy
  split
  · rename_i hkey
    rw [eq_of_lookup hnd hk hz hkey]
    exact Or.inl rfl
  · rename_i hkey
    exact Or.inr ⟨hz, hkey⟩

/-- Without the key in the list nothing changes. -/
theorem update_of_lookup_none (h : lookup key k l = none) : update key k f l = l := by
  rw [update]
  conv_rhs => rw [← List.map_id l]
  apply List.map_congr_left
  intro x hx
  rw [if_neg (lookup_eq_none.mp h x hx), id]

theorem lookup_update_self (hf : ∀ x, key x = k → key (f x) = k) :
    lookup key k (update key k f l) = (lookup key k l).map f := by
  induction l with
  | nil => rfl
  | cons z l ih =>
      by_cases hz : key z = k
      · simp [lookup, update, hz, hf z hz]
      · simpa [lookup, update, hz] using ih

theorem lookup_update_ne (hf : ∀ x, key x = k → key (f x) = k) (h : j ≠ k) :
    lookup key j (update key k f l) = lookup key j l := by
  induction l with
  | nil => rfl
  | cons z l ih =>
      by_cases hz : key z = k
      · have hzj : k ≠ j := fun heq => h heq.symm
        simpa [lookup, update, hz, hf z hz, hzj] using ih
      · by_cases hzj : key z = j
        · simp [lookup, update, hzj, h]
        · simpa [lookup, update, hz, hzj] using ih

/-- **The account of an update.** -/
theorem sum_update (w : α → Nat) (hnd : (l.map key).Nodup) (hk : lookup key k l = some x) :
    ((update key k f l).map w).sum + w x = (l.map w).sum + w (f x) := by
  induction l with
  | nil => cases hk
  | cons z l ih =>
      rw [List.map_cons, List.nodup_cons] at hnd
      by_cases hz : key z = k
      · have hzx : z = x := by simpa [lookup, hz] using hk
        subst hzx
        have hnone : lookup key k l = none :=
          lookup_eq_none.mpr fun y hy heq =>
            hnd.1 (List.mem_map.mpr ⟨y, hy, heq.trans hz.symm⟩)
        have hsame : update key k f l = l := update_of_lookup_none hnone
        have hcons : update key k f (z :: l) = f z :: l := by
          rw [update, List.map_cons, if_pos hz]
          exact congrArg _ hsame
        rw [hcons, List.map_cons, List.map_cons, List.sum_cons, List.sum_cons]
        omega
      · have hk' : lookup key k l = some x := by simpa [lookup, hz] using hk
        have hcons : update key k f (z :: l) = z :: update key k f l := by
          rw [update, List.map_cons, if_neg hz]
          rfl
        have hrest := ih hnd.2 hk'
        rw [hcons, List.map_cons, List.map_cons, List.sum_cons, List.sum_cons]
        omega

end Keyed
