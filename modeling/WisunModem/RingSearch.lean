import Mathlib.Algebra.GroupWithZero.Nat
import Mathlib.Data.List.Nodup
import Mathlib.Data.List.Perm.Subperm
import Mathlib.Tactic.Common

/-!
# The search for a free number

Numbers of `w` bits are tried one after another, from a given one, until one is met that is
not taken.  There are `2 ^ w` numbers, so a loop that has not ended after as many tries has
met taken numbers only and never ends.
-/

namespace RingSearch

variable {w : Nat} {taken : List (BitVec w)} {a b : BitVec w} {n : Nat}

/-- Try `n` numbers from `a`. -/
def search (taken : List (BitVec w)) : Nat → BitVec w → Option (BitVec w)
  | 0, _ => none
  | n + 1, a => if a ∈ taken then search taken n (a + 1) else some a

/-- The loop `while (taken) a++`: it ends after at most `2 ^ w` tries, or never. -/
def firstFree (taken : List (BitVec w)) (a : BitVec w) : Option (BitVec w) :=
  search taken (2 ^ w) a

theorem search_fresh (h : search taken n a = some b) : b ∉ taken := by
  induction n generalizing a with
  | zero => cases h
  | succ n ih =>
      rw [search] at h
      split at h
      · exact ih h
      · next hfree =>
          cases h
          exact hfree

/-- A search that does not end has met taken numbers only. -/
theorem taken_of_search (h : search taken n a = none) :
    ∀ i < n, a + BitVec.ofNat w i ∈ taken := by
  induction n generalizing a with
  | zero =>
      intro i hi
      omega
  | succ n ih =>
      rw [search] at h
      split at h
      · next htaken =>
          intro i hi
          cases i with
          | zero => simpa using htaken
          | succ i =>
              have hmem := ih h i (by omega)
              have hadd : a + 1 + BitVec.ofNat w i = a + BitVec.ofNat w (i + 1) := by
                rw [Nat.add_comm i 1, BitVec.ofNat_add, BitVec.add_assoc]
                rfl
              exact hadd ▸ hmem
      · cases h

theorem firstFree_fresh (h : firstFree taken a = some b) : b ∉ taken :=
  search_fresh h

/-- The loop that does not end in time never ends: all numbers are taken. -/
theorem taken_of_firstFree (h : firstFree taken a = none) (b : BitVec w) : b ∈ taken := by
  have hmem := taken_of_search h (b - a).toNat (b - a).isLt
  rw [BitVec.ofNat_toNat, BitVec.setWidth_eq, BitVec.add_comm, BitVec.sub_add_cancel] at hmem
  exact hmem

/-- With fewer numbers taken than there are, the loop ends. -/
theorem firstFree_ends (h : taken.length < 2 ^ w) (a : BitVec w) :
    ∃ b, firstFree taken a = some b := by
  cases hsearch : firstFree taken a with
  | some b => exact ⟨b, rfl⟩
  | none =>
      have hnodup : ((List.range (2 ^ w)).map (BitVec.ofNat w)).Nodup := by
        refine List.Nodup.map_on ?_ List.nodup_range
        intro i hi j hj hij
        have htoNat := congrArg BitVec.toNat hij
        simpa [Nat.mod_eq_of_lt (List.mem_range.mp hi), Nat.mod_eq_of_lt (List.mem_range.mp hj)]
          using htoNat
      have hsub : ((List.range (2 ^ w)).map (BitVec.ofNat w)) ⊆ taken :=
        fun b _ => taken_of_firstFree hsearch b
      have hle := (hnodup.subperm hsub).length_le
      rw [List.length_map, List.length_range] at hle
      omega

end RingSearch
