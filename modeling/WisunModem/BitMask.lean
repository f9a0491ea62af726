import Mathlib.Data.Finset.Card
import Mathlib.Data.Finset.Range
import Mathlib.Data.Nat.Count
import Mathlib.Tactic.Common

/-!
# Sets held in the bits of a few words

A mask of `k` words of `w` bits holds the numbers below `w * k`: number `c` is bit `c % w` of word
`c / w`.  An update looks at one word and one bit of it, and fails where there is no such word.

* `has_update` — an update changes what it says about one number only;
* `card_drop` — taking out a number that is there makes the set smaller by one;
* `loop_rule` — a loop over the first numbers that keeps its invariant runs to its end.
-/

namespace BitMask

variable {w k : Nat} {σ : Type}

abbrev Mask (w k : Nat) := Vector (BitVec w) k

/-- The number is in the set. -/
def has (m : Mask w k) (c : Nat) : Bool := (m[c / w]?.getD 0).getLsbD (c % w)

/-- Changes the word that has the number's bit, `none` if there is no such word. -/
def update (m : Mask w k) (c : Nat) (f : BitVec w → BitVec w → BitVec w) : Option (Mask w k) :=
  if h : c / w < k then some (m.set (c / w) (f (m.get ⟨c / w, h⟩) (1#w <<< (c % w)))) else none

/-- Reads the bit, `none` if there is no such word. -/
def read (m : Mask w k) (c : Nat) : Option Bool :=
  if c / w < k then some (has m c) else none

/-- How many numbers are in the set. -/
def card (m : Mask w k) : Nat := ((Finset.range (w * k)).filter fun c => has m c).card

theorem div_lt {c : Nat} (hc : c < w * k) : c / w < k := Nat.div_lt_of_lt_mul hc

theorem lt_of_has {m : Mask w k} {c : Nat} (hc : has m c = true) : c < w * k := by
  by_contra hle
  unfold has at hc
  rcases Nat.eq_zero_or_pos w with rfl | hpos
  · simp [BitVec.of_length_zero] at hc
  · have hout : ¬ c / w < k := by
      rw [Nat.div_lt_iff_lt_mul hpos, Nat.mul_comm]
      exact hle
    rw [Vector.getElem?_eq_none (Nat.le_of_not_lt hout)] at hc
    simp at hc

/-- Two numbers of one word with one bit are the same. -/
theorem eq_of_div_mod {c d : Nat} (hdiv : c / w = d / w) (hmod : c % w = d % w) : c = d := by
  rw [← Nat.div_add_mod c w, ← Nat.div_add_mod d w, hdiv, hmod]

/-- A one that was shifted is one bit. -/
theorem getLsbD_bit {i j : Nat} (_hi : i < w) (hj : j < w) :
    (1#w <<< i).getLsbD j = decide (j = i) := by
  rw [BitVec.getLsbD_shiftLeft, BitVec.getLsbD_one]
  by_cases heq : j = i
  · subst heq
    simp [hj, Nat.zero_lt_of_lt hj]
  · rcases Nat.lt_or_gt_of_ne heq with hlt | hgt
    · simp [heq, hlt]
    · have hsub : j - i ≠ 0 := by omega
      simp [heq, hsub]

/-- **An update** that leaves a bit alone where the given one is zero changes one number. -/
theorem has_update {m m' : Mask w k} {c : Nat} {f : BitVec w → BitVec w → BitVec w}
    {g : Bool → Bool → Bool}
    (hf : ∀ word bit i, i < w → (f word bit).getLsbD i = g (word.getLsbD i) (bit.getLsbD i))
    (hg : ∀ b, g b false = b) (hw : 0 < w) (hupdate : update m c f = some m') (d : Nat) :
    has m' d = if d = c then g (has m c) true else has m d := by
  unfold update at hupdate
  split at hupdate
  · next hword =>
      cases hupdate
      have hbit : c % w < w := Nat.mod_lt _ hw
      unfold has
      by_cases hsame : c / w = d / w
      · have hget : m[c / w]?.getD 0 = m.get ⟨c / w, hword⟩ := by
          rw [Vector.getElem?_eq_getElem hword]
          rfl
        rw [← hsame, Vector.getElem?_set_self, Option.getD_some, hf _ _ _ (Nat.mod_lt _ hw),
          getLsbD_bit hbit (Nat.mod_lt _ hw), hget]
        by_cases heq : d = c
        · rw [if_pos heq, heq, decide_eq_true rfl]
        · have hmod : ¬ d % w = c % w := fun hmod => heq (eq_of_div_mod hsame.symm hmod)
          rw [if_neg heq, decide_eq_false hmod, hg]
      · have hne : d ≠ c := fun heq => hsame (by rw [heq])
        rw [Vector.getElem?_set_ne _ hsame, if_neg hne]
  · cases hupdate

/-- An update works where there is a word. -/
theorem update_isSome {m : Mask w k} {c : Nat} {f : BitVec w → BitVec w → BitVec w}
    (hc : c < w * k) : ∃ m', update m c f = some m' := by
  unfold update
  rw [dif_pos (div_lt hc)]
  exact ⟨_, rfl⟩

/-- It fails elsewhere. -/
theorem update_eq_none {m : Mask w k} {c : Nat} {f : BitVec w → BitVec w → BitVec w} (hw : 0 < w)
    (hc : w * k ≤ c) : update m c f = none := by
  unfold update
  rw [dif_neg]
  rw [Nat.div_lt_iff_lt_mul hw, Nat.mul_comm]
  exact Nat.not_lt.mpr hc

theorem read_eq {m : Mask w k} {c : Nat} (hc : c < w * k) : read m c = some (has m c) :=
  if_pos (div_lt hc)

/-! ## The three updates -/

/-- `word |= bit` -/
def insert (m : Mask w k) (c : Nat) : Option (Mask w k) := update m c fun word bit => word ||| bit

/-- `word &= ~bit` -/
def remove (m : Mask w k) (c : Nat) : Option (Mask w k) :=
  update m c fun word bit => word &&& ~~~bit

/-- `word ^= bit` -/
def toggle (m : Mask w k) (c : Nat) : Option (Mask w k) := update m c fun word bit => word ^^^ bit

variable {m m' : Mask w k} {c : Nat}

theorem has_insert (hw : 0 < w) (hinsert : insert m c = some m') (d : Nat) :
    has m' d = if d = c then true else has m d := by
  have hhas := has_update (g := fun a b => a || b)
    (fun word bit i _ => by rw [BitVec.getLsbD_or]) (fun b => Bool.or_false b) hw hinsert d
  simpa using hhas

theorem has_remove (hw : 0 < w) (hremove : remove m c = some m') (d : Nat) :
    has m' d = if d = c then false else has m d := by
  have hhas := has_update (g := fun a b => a && !b)
    (fun word bit i hi => by simp [hi])
    (fun b => by simp) hw hremove d
  simpa using hhas

theorem has_toggle (hw : 0 < w) (htoggle : toggle m c = some m') (d : Nat) :
    has m' d = if d = c then !has m c else has m d := by
  have hhas := has_update (g := fun a b => a ^^ b)
    (fun word bit i _ => by rw [BitVec.getLsbD_xor]) (fun b => Bool.xor_false b) hw htoggle d
  simpa using hhas

/-- **Taking out** a number that is there makes the set smaller by one. -/
theorem card_drop (hc : has m c = true)
    (hm : ∀ d, has m' d = if d = c then false else has m d) : card m' + 1 = card m := by
  have hmem : c ∈ (Finset.range (w * k)).filter fun c => has m c := by
    simp [hc, lt_of_has hc]
  have herase : ((Finset.range (w * k)).filter fun c => has m' c) =
      ((Finset.range (w * k)).filter fun c => has m c).erase c := by
    ext d
    simp only [Finset.mem_filter, Finset.mem_erase, hm d]
    by_cases hd : d = c <;> simp [hd]
  have hcard := Finset.card_erase_add_one hmem
  rw [← herase] at hcard
  exact hcard

theorem card_le : card m ≤ w * k := by
  have hle := Finset.card_filter_le (Finset.range (w * k)) fun c => has m c
  rwa [Finset.card_range] at hle

/-- All words zero: the empty set. -/
theorem has_empty (c : Nat) : has (Vector.replicate k 0 : Mask w k) c = false := by
  simp only [has, Vector.getElem?_replicate]
  split <;> simp

theorem card_empty : card (Vector.replicate k 0 : Mask w k) = 0 := by
  refine Finset.card_eq_zero.mpr (Finset.filter_eq_empty_iff.mpr fun c _ => ?_)
  rw [has_empty]
  decide

/-- Counting the first numbers counts the set, if it has no others. -/
theorem count_eq_card {n : Nat} (hn : ∀ c, has m c = true → c < n) :
    Nat.count (fun c => has m c = true) n = card m := by
  rw [Nat.count_eq_card_filter_range, card]
  congr 1
  ext c
  simp only [Finset.mem_filter, Finset.mem_range]
  constructor
  · rintro ⟨-, hc⟩
    exact ⟨lt_of_has hc, hc⟩
  · rintro ⟨-, hc⟩
    exact ⟨hn c hc, hc⟩

/-! ## Loops -/

/-- `for (c = 0; c < n; c++) body(c)`, where a turn can fail. -/
def loop (body : Nat → σ → Option σ) (n : Nat) (s : σ) : Option σ :=
  (List.range n).foldlM (fun s c => body c s) s

theorem loop_succ (body : Nat → σ → Option σ) (n : Nat) (s : σ) :
    loop body (n + 1) s = (loop body n s).bind (body n) := by
  unfold loop
  rw [List.range_succ, List.foldlM_append]
  cases h : List.foldlM (fun s c => body c s) s (List.range n) <;> simp

/-- **A loop** whose turns keep an invariant runs to its end. -/
theorem loop_rule (Inv : Nat → σ → Prop) {body : Nat → σ → Option σ} {n : Nat} {s : σ}
    (hstart : Inv 0 s)
    (hturn : ∀ c < n, ∀ s, Inv c s → ∃ s', body c s = some s' ∧ Inv (c + 1) s') :
    ∃ s', loop body n s = some s' ∧ Inv n s' := by
  induction n with
  | zero => exact ⟨s, rfl, hstart⟩
  | succ n ih =>
      obtain ⟨s', hrun, hinv⟩ := ih fun c hc => hturn c (Nat.lt_succ_of_lt hc)
      obtain ⟨s'', hbody, hinv'⟩ := hturn n (Nat.lt_succ_self n) s' hinv
      refine ⟨s'', ?_, hinv'⟩
      rw [loop_succ, hrun]
      exact hbody

/-- A loop that comes to a turn that always fails fails. -/
theorem loop_eq_none {body : Nat → σ → Option σ} {n c : Nat} {s : σ} (hc : c < n)
    (hfail : ∀ s, body c s = none) : loop body n s = none := by
  induction n with
  | zero => cases hc
  | succ n ih =>
      rw [loop_succ]
      rcases Nat.lt_succ_iff_lt_or_eq.mp hc with hlt | rfl
      · rw [ih hlt]
        rfl
      · cases loop body c s with
        | none => rfl
        | some s' => exact hfail s'

end BitMask
