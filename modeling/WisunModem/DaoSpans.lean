import WisunModem.DaoPathControl
import Mathlib.Data.List.TakeWhile

/-!
# The bits of the DAO parents

Each parent gets a span of bits, and the spans follow each other without gaps.  Where the
spans begin as if the parents that are passed over did not count, no two preferences share
a subfield.
-/

namespace RplDao

section

variable (mop : Mop) (pcs : Fin 8)

/-- The first bit of each parent and the bit behind its last one. -/
def spans : Nat → List Neighbour → List (Nat × Nat)
  | _, [] => []
  | bit, n :: rest =>
      if bit ≤ pcs ∧ eligible mop n = true then
        (bit, nextBit pcs n rest bit) :: spans (nextBit pcs n rest bit) rest
      else (bit, bit) :: spans bit rest

/-- The bit behind the last span. -/
def spansEnd : Nat → List Neighbour → Nat
  | bit, [] => bit
  | bit, n :: rest =>
      if bit ≤ pcs ∧ eligible mop n = true then spansEnd (nextBit pcs n rest bit) rest
      else spansEnd bit rest

/-- The last parent with a span, as the loop finds it. -/
def lastSpan : Nat → Nat → Option Nat → List Neighbour → Option Nat
  | _, _, last, [] => last
  | i, bit, last, n :: rest =>
      if bit ≤ pcs ∧ eligible mop n = true then
        lastSpan (i + 1) (nextBit pcs n rest bit) (some i) rest
      else lastSpan (i + 1) bit last rest

end

variable {mop : Mop} {pcs : Fin 8} {l rest : List Neighbour} {n : Neighbour} {bit : Nat}

theorem nextBit_cases (pcs : Fin 8) (n : Neighbour) (rest : List Neighbour) (bit : Nat) :
    nextBit pcs n rest bit = bit + 1 ∨
      nextBit pcs n rest bit = bit + 2 ∧ bit + 1 ≤ pcs ∧ bit % 2 = 0 := by
  unfold nextBit
  split
  · split
    · next h => exact .inr ⟨rfl, h.1, by omega⟩
    · exact .inl rfl
  · exact .inl rfl

theorem bit_lt_nextBit (pcs : Fin 8) (n : Neighbour) (rest : List Neighbour) (bit : Nat) :
    bit < nextBit pcs n rest bit := by
  rcases nextBit_cases pcs n rest bit with h | ⟨h, -, -⟩ <;> omega

theorem nextBit_le (h : bit ≤ pcs) : nextBit pcs n rest bit ≤ pcs + 1 := by
  rcases nextBit_cases pcs n rest bit with hnext | ⟨hnext, hle, -⟩ <;> omega

theorem length_spans (mop : Mop) (pcs : Fin 8) (bit : Nat) (l : List Neighbour) :
    (spans mop pcs bit l).length = l.length := by
  induction l generalizing bit with
  | nil => rfl
  | cons n rest ih =>
    unfold spans
    split <;> simp [ih]

/-- Spans follow each other. -/
theorem spans_bounds (mop : Mop) (pcs : Fin 8) (l : List Neighbour) {bit : Nat}
    (hbit : bit ≤ pcs + 1) :
    bit ≤ spansEnd mop pcs bit l ∧ spansEnd mop pcs bit l ≤ pcs + 1 ∧
      ∀ s ∈ spans mop pcs bit l, bit ≤ s.1 ∧ s.1 ≤ s.2 ∧ s.2 ≤ spansEnd mop pcs bit l := by
  induction l generalizing bit with
  | nil => exact ⟨Nat.le_refl _, hbit, by simp [spans]⟩
  | cons n rest ih =>
    unfold spans spansEnd
    by_cases h : bit ≤ pcs ∧ eligible mop n = true
    · rw [if_pos h, if_pos h]
      have hlt := bit_lt_nextBit pcs n rest bit
      have hnext : nextBit pcs n rest bit ≤ pcs + 1 := nextBit_le h.1
      obtain ⟨hend, hle, hrest⟩ := ih hnext
      refine ⟨by omega, hle, fun s hs => ?_⟩
      rcases List.mem_cons.mp hs with rfl | hs
      · exact ⟨Nat.le_refl _, by omega, hend⟩
      · obtain ⟨hfrom, hto, hlast⟩ := hrest s hs
        exact ⟨by omega, hto, hlast⟩
    · rw [if_neg h, if_neg h]
      obtain ⟨hend, hle, hrest⟩ := ih hbit
      refine ⟨hend, hle, fun s hs => ?_⟩
      rcases List.mem_cons.mp hs with rfl | hs
      · exact ⟨Nat.le_refl _, Nat.le_refl _, hend⟩
      · exact hrest s hs

theorem spans_pairwise (mop : Mop) (pcs : Fin 8) (l : List Neighbour) {bit : Nat}
    (hbit : bit ≤ pcs + 1) :
    (spans mop pcs bit l).Pairwise fun s t => s.2 ≤ t.1 := by
  induction l generalizing bit with
  | nil => exact .nil
  | cons n rest ih =>
    unfold spans
    by_cases h : bit ≤ pcs ∧ eligible mop n = true
    · rw [if_pos h]
      have hnext : nextBit pcs n rest bit ≤ pcs + 1 := nextBit_le h.1
      exact .cons (fun s hs => ((spans_bounds mop pcs rest hnext).2.2 s hs).1) (ih hnext)
    · rw [if_neg h]
      exact .cons (fun s hs => ((spans_bounds mop pcs rest hbit).2.2 s hs).1) (ih hbit)

/-- No bit is left out. -/
theorem spans_cover {i : Nat} (hfrom : bit ≤ i) (hto : i < spansEnd mop pcs bit l) :
    ∃ s ∈ spans mop pcs bit l, s.1 ≤ i ∧ i < s.2 := by
  induction l generalizing bit with
  | nil =>
    unfold spansEnd at hto
    omega
  | cons n rest ih =>
    unfold spansEnd at hto
    unfold spans
    by_cases h : bit ≤ pcs ∧ eligible mop n = true
    · rw [if_pos h] at hto ⊢
      by_cases hlt : i < nextBit pcs n rest bit
      · exact ⟨_, List.mem_cons_self, hfrom, hlt⟩
      · obtain ⟨s, hs, hin⟩ := ih (Nat.le_of_not_lt hlt) hto
        exact ⟨s, List.mem_cons_of_mem _ hs, hin⟩
    · rw [if_neg h] at hto ⊢
      obtain ⟨s, hs, hin⟩ := ih hfrom hto
      exact ⟨s, List.mem_cons_of_mem _ hs, hin⟩

/-- The last span ends where the spans end. -/
theorem lastSpan_spec (mop : Mop) (pcs : Fin 8) (i bit : Nat) (last : Option Nat) (l : List Neighbour) :
    (lastSpan mop pcs i bit last l = last ∧ spansEnd mop pcs bit l = bit ∧
        ∀ s ∈ spans mop pcs bit l, s.1 = s.2) ∨
      ∃ k s, lastSpan mop pcs i bit last l = some (i + k) ∧ (spans mop pcs bit l)[k]? = some s ∧
        s.1 < s.2 ∧ s.2 = spansEnd mop pcs bit l ∧
        ∀ y t, k < y → (spans mop pcs bit l)[y]? = some t → t.1 = t.2 := by
  induction l generalizing i bit last with
  | nil => exact .inl ⟨rfl, rfl, by simp [spans]⟩
  | cons n rest ih =>
    unfold lastSpan spansEnd spans
    by_cases h : bit ≤ pcs ∧ eligible mop n = true
    · rw [if_pos h, if_pos h, if_pos h]
      right
      rcases ih (i + 1) (nextBit pcs n rest bit) (some i) with
        ⟨hlast, hend, hempty⟩ | ⟨k, s, hlast, hs, hlt, hend, hempty⟩
      · refine ⟨0, _, hlast, rfl, bit_lt_nextBit .., hend.symm, fun y t hy ht => ?_⟩
        obtain ⟨y, rfl⟩ := Nat.exists_eq_succ_of_ne_zero (Nat.ne_of_gt hy)
        exact hempty t (List.mem_of_getElem? ht)
      · refine ⟨k + 1, s, by rw [hlast]; congr 1; omega, hs, hlt, hend, fun y t hy ht => ?_⟩
        obtain ⟨y, rfl⟩ := Nat.exists_eq_succ_of_ne_zero (Nat.ne_of_gt (Nat.zero_lt_of_lt hy))
        exact hempty y t (by omega) ht
    · rw [if_neg h, if_neg h, if_neg h]
      rcases ih (i + 1) bit last with ⟨hlast, hend, hempty⟩ | ⟨k, s, hlast, hs, hlt, hend, hempty⟩
      · refine .inl ⟨hlast, hend, fun s hs => ?_⟩
        rcases List.mem_cons.mp hs with rfl | hs
        · rfl
        · exact hempty s hs
      · refine .inr ⟨k + 1, s, by rw [hlast]; congr 1; omega, hs, hlt, hend, fun y t hy ht => ?_⟩
        obtain ⟨y, rfl⟩ := Nat.exists_eq_succ_of_ne_zero (Nat.ne_of_gt (Nat.zero_lt_of_lt hy))
        exact hempty y t (by omega) ht

/-- A parent that takes part gets a bit. -/
theorem lt_spansEnd (hbit : bit ≤ pcs) (h : ∃ n ∈ l, eligible mop n = true) :
    bit < spansEnd mop pcs bit l := by
  induction l with
  | nil =>
    obtain ⟨n, hn, -⟩ := h
    cases hn
  | cons n rest ih =>
    unfold spansEnd
    by_cases hn : eligible mop n = true
    · rw [if_pos ⟨hbit, hn⟩]
      exact (bit_lt_nextBit pcs n rest bit).trans_le (spans_bounds mop pcs rest (nextBit_le hbit)).1
    · rw [if_neg fun hboth => hn hboth.2]
      refine ih ?_
      obtain ⟨m, hm, helig⟩ := h
      rcases List.mem_cons.mp hm with rfl | hm
      · exact absurd helig hn
      · exact ⟨m, hm, helig⟩

/-! ## The loop -/

/-- The neighbour `a` is `n` with the bits of the span `s`. -/
def Given (n : Neighbour) (s : Nat × Nat) (a : Neighbour) : Prop :=
  { a with daoPathControl := n.daoPathControl } = n ∧
    ∀ i < 8, has a.daoPathControl i = decide (s.1 ≤ i ∧ i < s.2)

theorem given_empty (hclear : n.daoPathControl = 0) (bit : Nat) : Given n (bit, bit) n := by
  refine ⟨rfl, fun i _ => ?_⟩
  rw [hclear, has_zero]
  exact (decide_eq_false (by omega)).symm

/-- What the loop gives to one neighbour. -/
theorem given_nextBit (n : Neighbour) (rest : List Neighbour) (hbit : bit ≤ pcs) :
    Given n (bit, nextBit pcs n rest bit)
      (if nextBit pcs n rest bit = bit + 2 then
        Neighbour.give { n with daoPathControl := PCBIT bit } (bit + 1)
      else { n with daoPathControl := PCBIT bit }) := by
  have hpcs := pcs.isLt
  rcases nextBit_cases pcs n rest bit with hnext | ⟨hnext, hle, -⟩
  · rw [if_neg (by omega)]
    refine ⟨rfl, fun i hi => ?_⟩
    rw [has_PCBIT (by omega) hi, hnext]
    refine decide_eq_decide.mpr ?_
    dsimp only
    omega
  · rw [if_pos hnext]
    refine ⟨rfl, fun i hi => ?_⟩
    rw [Neighbour.give, has_or _ _ hi, has_PCBIT (by omega) hi, has_PCBIT (by omega) hi, hnext,
      ← Bool.decide_or]
    refine decide_eq_decide.mpr ?_
    dsimp only
    omega

/-- **The loop** gives each parent its span. -/
theorem assign_parents (hparents : ∀ n ∈ l, n.dodagParent = true)
    (hclear : ∀ n ∈ l, n.daoPathControl = 0) (i bit : Nat) (last : Option Nat) :
    (assign mop pcs i bit last l).2
        = (spansEnd mop pcs bit l, lastSpan mop pcs i bit last l) ∧
      (assign mop pcs i bit last l).1.length = l.length ∧
      ∀ (x : Nat) (n a : Neighbour) (s : Nat × Nat), l[x]? = some n →
        (assign mop pcs i bit last l).1[x]? = some a →
        (spans mop pcs bit l)[x]? = some s → Given n s a := by
  induction l generalizing i bit last with
  | nil => exact ⟨rfl, rfl, fun x n a s hn => by cases hn⟩
  | cons n rest ih =>
    have hn := hparents n List.mem_cons_self
    have hrest := ih (fun m hm => hparents m (List.mem_cons_of_mem _ hm))
      fun m hm => hclear m (List.mem_cons_of_mem _ hm)
    -- one element more in front of all three lists
    have hcons : ∀ (i' bit' : Nat) (last' : Option Nat) (given : Neighbour) (span : Nat × Nat),
        Given n span given →
        (assign mop pcs i' bit' last' rest).2
            = (spansEnd mop pcs bit' rest, lastSpan mop pcs i' bit' last' rest) ∧
          (given :: (assign mop pcs i' bit' last' rest).1).length = (n :: rest).length ∧
          ∀ (x : Nat) (m a : Neighbour) (s : Nat × Nat), (n :: rest)[x]? = some m →
            (given :: (assign mop pcs i' bit' last' rest).1)[x]? = some a →
            (span :: spans mop pcs bit' rest)[x]? = some s → Given m s a := by
      intro i' bit' last' given span hgiven
      obtain ⟨hstate, hlength, helements⟩ := hrest i' bit' last'
      refine ⟨hstate, by simp [hlength], fun x m a s hm ha hs => ?_⟩
      cases x with
      | zero =>
        cases hm
        cases ha
        cases hs
        exact hgiven
      | succ x => exact helements x m a s hm ha hs
    unfold assign spans spansEnd lastSpan
    by_cases hbit : bit ≤ pcs
    · by_cases helig : eligible mop n = true
      · rw [if_pos (by simp [hn, hbit]), if_neg (by simp [helig]), if_pos ⟨hbit, helig⟩,
          if_pos ⟨hbit, helig⟩, if_pos ⟨hbit, helig⟩]
        exact hcons _ _ _ _ _ (given_nextBit n rest hbit)
      · rw [if_pos (by simp [hn, hbit]), if_pos (by simp [helig]), if_neg fun h => helig h.2,
          if_neg fun h => helig h.2, if_neg fun h => helig h.2]
        exact hcons _ _ _ _ _ (given_empty (hclear n List.mem_cons_self) bit)
    · have hfull : assign mop pcs (i + 1) bit last rest = (rest, bit, last) := by
        cases rest with
        | nil => rfl
        | cons m rest =>
          unfold assign
          rw [if_neg (by simp [hbit])]
      have hall := hcons (i + 1) bit last n (bit, bit)
        (given_empty (hclear n List.mem_cons_self) bit)
      rw [hfull] at hall
      rw [if_neg (by simp [hbit]), if_neg fun h => hbit h.1, if_neg fun h => hbit h.1,
        if_neg fun h => hbit h.1]
      exact hall

/-- The loop stops at the first neighbour that is no parent. -/
theorem assign_eq (i bit : Nat) (last : Option Nat) (l : List Neighbour) :
    assign mop pcs i bit last l
      = ((assign mop pcs i bit last (parents l)).1 ++ l.dropWhile (·.dodagParent),
        (assign mop pcs i bit last (parents l)).2) := by
  induction l generalizing i bit last with
  | nil => rfl
  | cons n rest ih =>
    cases hn : n.dodagParent with
    | false =>
      unfold parents
      rw [List.takeWhile_cons_of_neg (by simp [hn]), List.dropWhile_cons_of_neg (by simp [hn])]
      unfold assign
      rw [if_neg (by simp [hn])]
      rfl
    | true =>
      have hparents : parents (n :: rest) = n :: parents rest :=
        List.takeWhile_cons_of_pos (by simp [hn])
      have hnext : nextBit pcs n (parents rest) bit = nextBit pcs n rest bit := by
        unfold nextBit parents
        rw [List.head?_takeWhile]
        cases rest.head? with
        | none => rfl
        | some m => cases hm : m.dodagParent <;> simp [Option.filter, hm]
      rw [hparents, List.dropWhile_cons_of_pos (by simp [hn])]
      unfold assign
      rw [hnext]
      by_cases hbit : bit ≤ pcs
      · by_cases helig : eligible mop n = true
        · rw [if_pos (by simp [hn, hbit]), if_neg (by simp [helig]), if_pos (by simp [hn, hbit]),
            if_neg (by simp [helig]), ih (i + 1) (nextBit pcs n rest bit) (some i)]
          rfl
        · rw [if_pos (by simp [hn, hbit]), if_pos (by simp [helig]), if_pos (by simp [hn, hbit]),
            if_pos (by simp [helig]), ih (i + 1) bit last]
          rfl
      · rw [if_neg (by simp [hbit]), if_neg (by simp [hbit])]
        unfold parents
        rw [List.cons_append, List.takeWhile_append_dropWhile]

/-! ## Who holds a bit -/

/-- Bit `i` is in the span of the parent `x`, which for the last one goes on to the end. -/
def Holder (mop : Mop) (pcs : Fin 8) (l : List Neighbour) (x i : Nat) : Prop :=
  ∃ s, (spans mop pcs 0 l)[x]? = some s ∧ s.1 ≤ i ∧
    i < if lastSpan mop pcs 0 0 none l = some x then pcs.val + 1 else s.2

theorem Holder.span {x i : Nat} (h : Holder mop pcs l x i) :
    ∃ s, (spans mop pcs 0 l)[x]? = some s ∧ s.1 < s.2 ∧ s.1 ≤ i ∧
      (lastSpan mop pcs 0 0 none l ≠ some x → i < s.2) ∧ i ≤ pcs := by
  obtain ⟨s, hs, hfrom, hto⟩ := h
  have hbounds := (spans_bounds mop pcs l (Nat.zero_le (pcs.val + 1))).2
  have hs' := hbounds.2 s (List.mem_of_getElem? hs)
  split at hto
  · next hlast =>
    rcases lastSpan_spec mop pcs 0 0 none l with
      ⟨hnone, -⟩ | ⟨k, t, hsome, ht, hlt, -⟩
    · rw [hnone] at hlast
      cases hlast
    · rw [hlast, Nat.zero_add] at hsome
      cases hsome
      rw [hs] at ht
      cases ht
      exact ⟨s, hs, hlt, hfrom, fun hne => absurd hlast hne, by omega⟩
  · exact ⟨s, hs, by omega, hfrom, fun _ => hto, by omega⟩

/-- A parent further back holds later bits. -/
theorem Holder.lt {x y i j : Nat} (hx : Holder mop pcs l x i) (hy : Holder mop pcs l y j)
    (hlt : x < y) : i < j := by
  obtain ⟨s, hs, -, -, hto, -⟩ := hx.span
  obtain ⟨t, ht, htne, hfrom, -, -⟩ := hy.span
  by_cases hlast : lastSpan mop pcs 0 0 none l = some x
  · rcases lastSpan_spec mop pcs 0 0 none l with
      ⟨hnone, -⟩ | ⟨k, u, hsome, -, -, -, hempty⟩
    · rw [hnone] at hlast
      cases hlast
    · rw [hlast, Nat.zero_add] at hsome
      cases hsome
      have hzero := hempty y t hlt ht
      omega
  · have hpair := spans_pairwise mop pcs l (Nat.zero_le (pcs.val + 1))
    obtain ⟨hx', hxs⟩ := List.getElem?_eq_some_iff.mp hs
    obtain ⟨hy', hyt⟩ := List.getElem?_eq_some_iff.mp ht
    have hle := List.pairwise_iff_getElem.mp hpair x y hx' hy' hlt
    rw [hxs, hyt] at hle
    have hi := hto hlast
    omega

/-- Each bit is held where a parent takes part. -/
theorem exists_holder (h : ∃ n ∈ l, eligible mop n = true) {i : Nat} (hi : i ≤ pcs) :
    ∃ x, Holder mop pcs l x i := by
  have hlt : 0 < spansEnd mop pcs 0 l := lt_spansEnd (Nat.zero_le _) h
  rcases lastSpan_spec mop pcs 0 0 none l with
    ⟨-, hend, -⟩ | ⟨k, s, hlast, hs, hne, hend, -⟩
  · omega
  rw [Nat.zero_add] at hlast
  by_cases hbefore : i < spansEnd mop pcs 0 l
  · obtain ⟨t, ht, hfrom, hto⟩ := spans_cover (Nat.zero_le i) hbefore
    obtain ⟨x, hx⟩ := List.getElem?_of_mem ht
    refine ⟨x, t, hx, hfrom, ?_⟩
    split
    · omega
    · exact hto
  · refine ⟨k, s, hs, by omega, ?_⟩
    rw [if_pos hlast]
    omega

theorem expand_same (pcs : Fin 8) (n : Neighbour) (bit : Nat) (pc : UInt8) :
    { n.expand pcs bit with daoPathControl := pc } = { n with daoPathControl := pc } := by
  unfold Neighbour.expand
  generalize List.range' bit (pcs + 1 - bit) = bits
  induction bits generalizing n with
  | nil => rfl
  | cons b bits ih => exact ih _

/-- What comes out: parents with the bits they hold, and the others as they were. -/
theorem converted (hmop : mop ≠ .noDownward) (hclear : ∀ n ∈ l, n.daoPathControl = 0) :
    (rpl_downward_convert_dodag_preferences_to_dao_path_control mop pcs l).length = l.length ∧
    ∀ (x : Nat) (n a : Neighbour), l[x]? = some n →
      (rpl_downward_convert_dodag_preferences_to_dao_path_control mop pcs l)[x]? = some a →
      { a with daoPathControl := n.daoPathControl } = n ∧
        ∀ i < 8, (has a.daoPathControl i = true ↔ Holder mop pcs (parents l) x i) := by
  have hparents : ∀ n ∈ parents l, n.dodagParent = true := fun n hn =>
    List.mem_takeWhile_imp hn
  have hsplit : parents l ++ l.dropWhile (·.dodagParent) = l := List.takeWhile_append_dropWhile
  have hclear' : ∀ n ∈ parents l, n.daoPathControl = 0 :=
    fun n hn => hclear n (hsplit ▸ List.mem_append_left _ hn)
  obtain ⟨hstate, hlength, helements⟩ := assign_parents hparents hclear' 0 0 none
  have hassign : assign mop pcs 0 0 none l = _ := assign_eq 0 0 none l
  rw [hstate] at hassign
  -- the neighbours before the final one is expanded
  have hbase : ∀ (x : Nat) (n a : Neighbour), l[x]? = some n →
      ((assign mop pcs 0 0 none (parents l)).1 ++ l.dropWhile (·.dodagParent))[x]? = some a →
      (∃ s, (spans mop pcs 0 (parents l))[x]? = some s ∧ Given n s a) ∨
        (spans mop pcs 0 (parents l))[x]? = none ∧ a = n := by
    intro x n a hn ha
    rw [← hsplit] at hn
    by_cases hx : x < (parents l).length
    · rw [List.getElem?_append_left hx] at hn
      rw [List.getElem?_append_left (by omega)] at ha
      have hs : x < (spans mop pcs 0 (parents l)).length := by rwa [length_spans]
      exact .inl ⟨_, List.getElem?_eq_getElem hs, helements x n a _ hn ha
        (List.getElem?_eq_getElem hs)⟩
    · rw [List.getElem?_append_right (by omega)] at hn
      rw [List.getElem?_append_right (by omega), hlength] at ha
      refine .inr ⟨List.getElem?_eq_none (by rw [length_spans]; omega), ?_⟩
      rw [hn] at ha
      exact (Option.some.inj ha).symm
  have htotal : ((assign mop pcs 0 0 none (parents l)).1 ++ l.dropWhile (·.dodagParent)).length
      = l.length := by
    rw [List.length_append, hlength, ← List.length_append, hsplit]
  unfold rpl_downward_convert_dodag_preferences_to_dao_path_control
  rw [if_neg hmop, hassign]
  unfold Holder
  cases hlast : lastSpan mop pcs 0 0 none (parents l) with
  | none =>
    refine ⟨htotal, fun x n a hn ha => ?_⟩
    rcases hbase x n a hn ha with ⟨s, hs, hsame, hhas⟩ | ⟨hnone, rfl⟩
    · refine ⟨hsame, fun i hi => ?_⟩
      rw [hhas i hi, hs]
      simp
    · refine ⟨rfl, fun i _ => ?_⟩
      rw [hclear a (List.mem_of_getElem? hn), has_zero, hnone]
      simp
  | some k =>
    obtain ⟨s', hk', hlt, hend⟩ : ∃ s', (spans mop pcs 0 (parents l))[k]? = some s' ∧
        s'.1 < s'.2 ∧ s'.2 = spansEnd mop pcs 0 (parents l) := by
      rcases lastSpan_spec mop pcs 0 0 none (parents l) with ⟨hnone, -⟩ | ⟨k', s', hsome, hs, hlt, hend, -⟩
      · rw [hlast] at hnone
        cases hnone
      · rw [hlast, Nat.zero_add] at hsome
        cases hsome
        exact ⟨s', hs, hlt, hend⟩
    have hle := (spans_bounds mop pcs (parents l) (Nat.zero_le _)).2.1
    dsimp only
    refine ⟨by rw [List.length_modify]; exact htotal, fun x n a hn ha => ?_⟩
    rw [List.getElem?_modify] at ha
    obtain ⟨a', ha', rfl⟩ := Option.map_eq_some_iff.mp ha
    rcases hbase x n a' hn ha' with ⟨s, hs, hsame, hhas⟩ | ⟨hnone, rfl⟩
    · by_cases hk : k = x
      · -- the final neighbour
        subst hk
        rw [hk'] at hs
        cases hs
        rw [if_pos rfl]
        refine ⟨(expand_same ..).trans hsame, fun i hi => ?_⟩
        rw [has_expand pcs a' _ hi, hhas i hi, hk', ← hend]
        simp only [Bool.or_eq_true, decide_eq_true_eq, Option.some.injEq, exists_eq_left', if_true]
        omega
      · rw [if_neg hk]
        refine ⟨hsame, fun i hi => ?_⟩
        rw [hhas i hi, hs]
        simp [hk]
    · have hne : k ≠ x := fun heq => by
        rw [← heq, hk'] at hnone
        cases hnone
      rw [if_neg hne]
      refine ⟨rfl, fun i _ => ?_⟩
      rw [hclear a' (List.mem_of_getElem? hn), has_zero, hnone]
      simp

end RplDao
