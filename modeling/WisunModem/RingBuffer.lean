import Mathlib.Data.Nat.ModEq
import Mathlib.Tactic.Common

/-!
# Ring buffers

A ring of fixed capacity keeps an array of slots, the index of the oldest item,
the index of the next free slot and the number of items.  `RingBuffer.contents` reads
the items off in the order in which they were pushed; `push` appends to that
list unless the ring is full, and `pop` takes its first item away.  Everything
proved about a program that uses a ring is proved about `contents`.
-/

universe u

/-- The slot after `i`, going round at the end. -/
def ringNext (cap i : Nat) : Nat := if i + 1 ≥ cap then 0 else i + 1

/-- A ring of `cap` slots.  Slots outside the window of `count` slots from
`head` hold whatever was left there. -/
structure RingBuffer (α : Type u) (cap : Nat) where
  slots : Vector α cap
  head : Nat
  tail : Nat
  count : Nat
  head_lt : head < cap
  count_le : count ≤ cap
  tail_eq : tail = (head + count) % cap

namespace RingBuffer

variable {α : Type u} {cap : Nat}

theorem ringNext_eq {i : Nat} (h : i < cap) : ringNext cap i = (i + 1) % cap := by
  unfold ringNext
  split
  · have heq : i + 1 = cap := by omega
    rw [heq, Nat.mod_self]
  · rw [Nat.mod_eq_of_lt (by omega)]

def empty [Inhabited α] (hcap : 0 < cap) : RingBuffer α cap where
  slots := Vector.replicate cap default
  head := 0
  tail := 0
  count := 0
  head_lt := hcap
  count_le := Nat.zero_le cap
  tail_eq := by simp

def isFull (r : RingBuffer α cap) : Bool := r.count == cap

def isEmpty (r : RingBuffer α cap) : Bool := r.count == 0

theorem cap_pos (r : RingBuffer α cap) : 0 < cap := Nat.lt_of_le_of_lt (Nat.zero_le _) r.head_lt

theorem tail_lt (r : RingBuffer α cap) : r.tail < cap := by
  rw [r.tail_eq]
  exact Nat.mod_lt _ r.cap_pos

/-- The oldest item, or what is left in its slot. -/
def front (r : RingBuffer α cap) : α :=
  have := r.head_lt
  r.slots[r.head]

/-- The item `i` places behind the oldest one. -/
def item (r : RingBuffer α cap) (i : Nat) : α :=
  have := Nat.mod_lt (r.head + i) r.cap_pos
  r.slots[(r.head + i) % cap]

/-- The items, oldest first. -/
def contents (r : RingBuffer α cap) : List α := (List.range r.count).map r.item

@[simp] theorem length_contents (r : RingBuffer α cap) : r.contents.length = r.count := by
  simp [contents]

theorem isFull_iff (r : RingBuffer α cap) : r.isFull = true ↔ r.contents.length = cap := by
  simp [isFull]

/-- Store an item in the free slot and move on; a full ring refuses it. -/
def push (r : RingBuffer α cap) (a : α) : Option (RingBuffer α cap) :=
  if h : r.count = cap then none
  else some
    { slots := r.slots.set r.tail a r.tail_lt
      head := r.head
      tail := ringNext cap r.tail
      count := r.count + 1
      head_lt := r.head_lt
      count_le := Nat.lt_of_le_of_ne r.count_le h
      tail_eq := by
        rw [ringNext_eq r.tail_lt, r.tail_eq, Nat.mod_add_mod, Nat.add_assoc] }

/-- Take the oldest item; its slot is left as it is. -/
def pop (r : RingBuffer α cap) : Option (α × RingBuffer α cap) :=
  if h : r.count = 0 then none
  else some
    (r.front,
     { slots := r.slots
       head := ringNext cap r.head
       tail := r.tail
       count := r.count - 1
       head_lt := by
         rw [ringNext_eq r.head_lt]
         exact Nat.mod_lt _ r.cap_pos
       count_le := Nat.le_trans (Nat.sub_le _ _) r.count_le
       tail_eq := by
         have hlen : r.head + 1 + (r.count - 1) = r.head + r.count := by omega
         rw [ringNext_eq r.head_lt, r.tail_eq, Nat.mod_add_mod, hlen] })

/-- Two places within the capacity share a slot only when they are the same. -/
theorem slot_injective {head i j : Nat} (hi : i < cap) (hj : j < cap)
    (h : (head + i) % cap = (head + j) % cap) : i = j := by
  have hmod : i % cap = j % cap := Nat.ModEq.add_left_cancel' head h
  rwa [Nat.mod_eq_of_lt hi, Nat.mod_eq_of_lt hj] at hmod

/-- A push appends the item. -/
theorem contents_push {r r' : RingBuffer α cap} {a : α} (h : r.push a = some r') :
    r'.contents = r.contents ++ [a] := by
  unfold push at h
  split at h
  · cases h
  · rename_i hfull
    have hlt : r.count < cap := Nat.lt_of_le_of_ne r.count_le hfull
    cases h
    simp only [contents, List.range_succ, List.map_append, List.map_cons, List.map_nil]
    congr 1
    · refine List.map_congr_left fun i hi => ?_
      have hi : i < r.count := List.mem_range.mp hi
      have hne : r.tail ≠ (r.head + i) % cap := by
        intro heq
        rw [r.tail_eq] at heq
        have := slot_injective hlt (by omega) heq
        omega
      simp only [item]
      rw [Vector.getElem_set_ne _ _ hne]
    · simp [item, r.tail_eq]

theorem push_eq_none_iff (r : RingBuffer α cap) (a : α) :
    r.push a = none ↔ r.contents.length = cap := by
  simp [push]

/-- A pop takes the oldest item. -/
theorem contents_pop {r r' : RingBuffer α cap} {a : α} (h : r.pop = some (a, r')) :
    r.contents = a :: r'.contents := by
  unfold pop at h
  split at h
  · cases h
  · rename_i hpos
    cases h
    obtain ⟨n, hn⟩ : ∃ n, r.count = n + 1 := ⟨r.count - 1, by omega⟩
    simp only [contents, hn, List.range_succ_eq_map, List.map_cons, List.map_map,
      Nat.add_sub_cancel]
    congr 1
    · simp [item, front, Nat.mod_eq_of_lt r.head_lt]
    · refine List.map_congr_left fun i _ => ?_
      simp only [item, Function.comp, ringNext_eq r.head_lt, Nat.mod_add_mod]
      congr 2
      omega

end RingBuffer
