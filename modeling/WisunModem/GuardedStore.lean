import WisunModem.ByteStore
import WisunModem.Exec

/-!
# Stores with allowed addresses

A program that works on a byte store and may touch only the addresses that `ok`
allows; it stops with the first other address.  The rules are exact: an access ends
if and only if its addresses are allowed, so a program is followed by rewriting
and a proof shows that it stays inside as well as what it leaves.
-/

namespace GuardedStore

open ByteStore Exec

/-- A program over a byte store that may stop with an address. -/
abbrev Guarded := StateT Store (Except Nat)

variable (ok : Nat → Bool)

/-- The byte at an address. -/
def load (a : Nat) : Guarded UInt8 := fun m =>
  if ok a then .ok (m a, m) else .error a

/-- A byte is written at an address. -/
def save (a : Nat) (b : UInt8) : Guarded PUnit := fun m =>
  if ok a then .ok (⟨⟩, store m a [b]) else .error a

/-- The `n` bytes at an address. -/
def loads (a : Nat) : Nat → Guarded (List UInt8)
  | 0 => pure []
  | n + 1 => do
      let bs ← loads a n
      let b ← load ok (a + n)
      pure (bs ++ [b])

variable {ok} {a : Nat} {m : Store}

@[simp] theorem ends_load {post : UInt8 → Store → Prop} :
    Ends (load ok a) m post ↔ ok a = true ∧ post (m a) m := by
  constructor
  · rintro ⟨b, t, hrun, hpost⟩
    change (if ok a then Except.ok (m a, m) else .error a) = _ at hrun
    split at hrun
    case isTrue hok =>
      cases hrun
      exact ⟨hok, hpost⟩
    case isFalse => cases hrun
  · rintro ⟨hok, hpost⟩
    exact ⟨m a, m, if_pos hok, hpost⟩

@[simp] theorem ends_save {b : UInt8} {post : PUnit → Store → Prop} :
    Ends (save ok a b) m post ↔ ok a = true ∧ post ⟨⟩ (store m a [b]) := by
  constructor
  · rintro ⟨u, t, hrun, hpost⟩
    change (if ok a then Except.ok (PUnit.unit, store m a [b]) else .error a) = _ at hrun
    split at hrun
    case isTrue hok =>
      cases hrun
      exact ⟨hok, hpost⟩
    case isFalse => cases hrun
  · rintro ⟨hok, hpost⟩
    exact ⟨⟨⟩, store m a [b], if_pos hok, hpost⟩

/-- A block is read if and only if all of it is allowed. -/
@[simp] theorem ends_loads {n : Nat} {post : List UInt8 → Store → Prop} :
    Ends (loads ok a n) m post ↔
      (∀ i, i < n → ok (a + i) = true) ∧ post (bytes m a n) m := by
  induction n generalizing post with
  | zero => simp [loads]
  | succ n ih =>
      have hlast : bytes m a (n + 1) = bytes m a n ++ [m (a + n)] := by
        rw [bytes_append]
        rfl
      rw [loads, ends_bind, ih, ends_bind, ends_load, ends_pure, hlast]
      constructor
      · rintro ⟨hfirst, hok, hpost⟩
        refine ⟨fun i hi => ?_, hpost⟩
        rcases Nat.lt_succ_iff_lt_or_eq.mp hi with hlt | heq
        · exact hfirst i hlt
        · exact heq ▸ hok
      · rintro ⟨hall, hpost⟩
        exact ⟨fun i hi => hall i (by omega), hall n (by omega), hpost⟩

/-- Bytes are exchanged one by one, as `memswap` does. -/
def memswap (ok : Nat → Bool) (a b : Nat) : Nat → Guarded PUnit
  | 0 => pure ⟨⟩
  | n + 1 => do
      memswap ok a b n
      let t ← load ok (a + n)
      let u ← load ok (b + n)
      save ok (a + n) u
      save ok (b + n) t

/-- The store after two blocks have been exchanged. -/
def swapped (m : Store) (a b n : Nat) : Store := fun i =>
  if a ≤ i ∧ i < a + n then m (b + (i - a))
  else if b ≤ i ∧ i < b + n then m (a + (i - b))
  else m i

/-- Exchanging two blocks apart from each other. -/
theorem ends_memswap {a b n : Nat} {post : PUnit → Store → Prop}
    (ha : ∀ i, i < n → ok (a + i) = true) (hb : ∀ i, i < n → ok (b + i) = true)
    (hapart : a + n ≤ b ∨ b + n ≤ a) (hpost : post ⟨⟩ (swapped m a b n)) :
    Ends (memswap ok a b n) m post := by
  induction n generalizing post with
  | zero =>
      have hsame : swapped m a b 0 = m := by
        funext i
        have hnota : ¬(a ≤ i ∧ i < a + 0) := by omega
        have hnotb : ¬(b ≤ i ∧ i < b + 0) := by omega
        rw [swapped, if_neg hnota, if_neg hnotb]
      rw [hsame] at hpost
      exact ends_pure.mpr hpost
  | succ n ih =>
      rw [memswap, ends_bind]
      refine ih (fun i hi => ha i (by omega)) (fun i hi => hb i (by omega)) (by omega) ?_
      have hlast : store (store (swapped m a b n) (a + n) [swapped m a b n (b + n)])
          (b + n) [swapped m a b n (a + n)] = swapped m a b (n + 1) := by
        have hreada : swapped m a b n (a + n) = m (a + n) := by
          rw [swapped, if_neg (by omega), if_neg (by omega)]
        have hreadb : swapped m a b n (b + n) = m (b + n) := by
          rw [swapped, if_neg (by omega), if_neg (by omega)]
        funext i
        rw [hreada, hreadb]
        by_cases hib : i = b + n
        · have hnota : ¬(a ≤ i ∧ i < a + (n + 1)) := by omega
          have hinb : b ≤ i ∧ i < b + (n + 1) := by omega
          rw [swapped, if_neg hnota, if_pos hinb, hib]
          simp [store, blit, ofList]
        rw [store_apart (by simp; omega)]
        by_cases hia : i = a + n
        · have hina : a ≤ i ∧ i < a + (n + 1) := by omega
          rw [swapped, if_pos hina, hia]
          simp [store, blit, ofList]
        rw [store_apart (by simp; omega)]
        have hacond : (a ≤ i ∧ i < a + n) ↔ (a ≤ i ∧ i < a + (n + 1)) := by omega
        have hbcond : (b ≤ i ∧ i < b + n) ↔ (b ≤ i ∧ i < b + (n + 1)) := by omega
        simp only [swapped, hacond, hbcond]
      simp only [ends_bind, ends_load, ends_save]
      rw [hlast]
      exact ⟨ha n (by omega), hb n (by omega), ha n (by omega), hb n (by omega), hpost⟩

theorem bytes_swapped_left (m : Store) (a b n : Nat) :
    bytes (swapped m a b n) a n = bytes m b n := by
  refine bytes_congr fun i hi => ?_
  have hin : a ≤ a + i ∧ a + i < a + n := by omega
  rw [swapped, if_pos hin, Nat.add_sub_cancel_left]

/-- A byte of neither block is unchanged. -/
theorem swapped_apart {m : Store} {a b n i : Nat} (ha : i < a ∨ a + n ≤ i)
    (hb : i < b ∨ b + n ≤ i) : swapped m a b n i = m i := by
  rw [swapped, if_neg (by omega), if_neg (by omega)]

end GuardedStore
