import Mathlib.Algebra.GroupWithZero.Nat
import Mathlib.Data.List.Basic
import Mathlib.Tactic.Common

/-!
# Walking over elements that carry their own length

A list of elements is written one after the other; each has a header of two bytes, little end
first, that says what it is and how long the content is.  `split` cuts a byte string into the
elements that lie in it and what is left, `walk` is a loop over the bytes that keeps the number
of bytes that remain in sixteen bits.

* `split_write` — what was written is cut where it was joined;
* `search_exact_iff` — a search is exact unless it meets an element that is longer than what
  remains and does not look at what remains;
* `search_write` — what was written is found.
-/

namespace Tlv

universe u

/-- An element: its header and its content. -/
abbrev Element := Nat × List UInt8

/-- The header in the first two bytes. -/
def header (b₀ b₁ : UInt8) : Nat := b₀.toNat + 2 ^ 8 * b₁.toNat

/-- The two bytes of a header. -/
def headerBytes (h : Nat) : List UInt8 := [UInt8.ofNat h, UInt8.ofNat (h / 2 ^ 8)]

theorem header_headerBytes {h : Nat} (hlt : h < 2 ^ 16) :
    header (UInt8.ofNat h) (UInt8.ofNat (h / 2 ^ 8)) = h := by
  unfold header
  rw [UInt8.toNat_ofNat', UInt8.toNat_ofNat']
  omega

/-! ## Cutting -/

/-- The elements that lie in the bytes, and what is left: less than a header, or an element that
is longer than what is there. -/
def cut (len : Nat → Nat) : Nat → List UInt8 → List Element × List UInt8
  | n + 1, b₀ :: b₁ :: tail =>
      if len (header b₀ b₁) ≤ tail.length then
        let rest := cut len n (tail.drop (len (header b₀ b₁)))
        ((header b₀ b₁, tail.take (len (header b₀ b₁))) :: rest.1, rest.2)
      else ([], b₀ :: b₁ :: tail)
  | _, bs => ([], bs)

/-- There are no more elements than bytes. -/
def split (len : Nat → Nat) (bs : List UInt8) : List Element × List UInt8 :=
  cut len bs.length bs

/-- What the elements look like side by side. -/
def write (es : List Element) : List UInt8 := es.flatMap fun e => headerBytes e.1 ++ e.2

@[simp] theorem write_nil : write [] = [] := rfl

@[simp] theorem write_cons (e : Element) (es : List Element) :
    write (e :: es) = headerBytes e.1 ++ e.2 ++ write es := by
  simp [write]

theorem length_write_cons (e : Element) (es : List Element) :
    (write (e :: es)).length = e.2.length + 2 + (write es).length := by
  rw [write_cons]
  simp only [headerBytes, List.length_append, List.length_cons, List.length_nil]
  omega

theorem length_le_write {es : List Element} {e : Element} (hmem : e ∈ es) :
    e.2.length + 2 ≤ (write es).length := by
  induction es with
  | nil => cases hmem
  | cons e' es ih =>
      rw [length_write_cons]
      rcases List.mem_cons.mp hmem with rfl | hmem
      · omega
      · have hin := ih hmem
        omega

variable {len : Nat → Nat}

theorem cut_step {n : Nat} {b₀ b₁ : UInt8} {tail : List UInt8}
    (hfits : len (header b₀ b₁) ≤ tail.length) :
    cut len (n + 1) (b₀ :: b₁ :: tail) =
      ((header b₀ b₁, tail.take (len (header b₀ b₁))) ::
        (cut len n (tail.drop (len (header b₀ b₁)))).1,
        (cut len n (tail.drop (len (header b₀ b₁)))).2) := by
  simp [cut, hfits]

/-- Cutting loses nothing. -/
theorem write_cut (len : Nat → Nat) (n : Nat) (bs : List UInt8) :
    write (cut len n bs).1 ++ (cut len n bs).2 = bs := by
  induction n generalizing bs with
  | zero => simp [cut]
  | succ n ih =>
      match bs with
      | [] => simp [cut]
      | [b] => simp [cut]
      | b₀ :: b₁ :: tail =>
          by_cases hfits : len (header b₀ b₁) ≤ tail.length
          · have hbytes : headerBytes (header b₀ b₁) = [b₀, b₁] := by
              have h₀ := b₀.toNat_lt
              have hlow : UInt8.ofNat (header b₀ b₁) = b₀ := by
                apply UInt8.toNat_inj.mp
                rw [UInt8.toNat_ofNat', header]
                omega
              have hhigh : UInt8.ofNat (header b₀ b₁ / 2 ^ 8) = b₁ := by
                apply UInt8.toNat_inj.mp
                have h₁ := b₁.toNat_lt
                rw [UInt8.toNat_ofNat', header]
                omega
              rw [headerBytes, hlow, hhigh]
            have hrest := ih (tail.drop (len (header b₀ b₁)))
            rw [cut_step hfits, write_cons, hbytes, List.append_assoc, hrest]
            simp
          · simp [cut, hfits]

/-- The elements that were cut out have the length their header says. -/
theorem length_of_mem_cut {n : Nat} {bs : List UInt8} {e : Element}
    (hmem : e ∈ (cut len n bs).1) : e.2.length = len e.1 := by
  induction n generalizing bs with
  | zero => simp [cut] at hmem
  | succ n ih =>
      match bs with
      | [] => simp [cut] at hmem
      | [b] => simp [cut] at hmem
      | b₀ :: b₁ :: tail =>
          by_cases hfits : len (header b₀ b₁) ≤ tail.length
          · rw [cut_step hfits] at hmem
            rcases List.mem_cons.mp hmem with rfl | hmem
            · simp [hfits]
            · exact ih hmem
          · simp [cut, hfits] at hmem

/-- Once there are as many turns as bytes, more of them do not matter. -/
theorem cut_eq_of_le {n m : Nat} {bs : List UInt8} (hn : bs.length ≤ n) (hm : bs.length ≤ m) :
    cut len n bs = cut len m bs := by
  induction n generalizing m bs with
  | zero =>
      obtain rfl : bs = [] := List.length_eq_zero_iff.mp (by omega)
      cases m <;> rfl
  | succ n ih =>
      match bs, m with
      | [], m => cases m <;> rfl
      | [b], m => cases m <;> rfl
      | b₀ :: b₁ :: tail, 0 => simp at hm
      | b₀ :: b₁ :: tail, m + 1 =>
          simp only [List.length_cons] at hn hm
          by_cases hfits : len (header b₀ b₁) ≤ tail.length
          · have hrest : cut len n (tail.drop (len (header b₀ b₁))) =
                cut len m (tail.drop (len (header b₀ b₁))) := by
              apply ih <;> rw [List.length_drop] <;> omega
            rw [cut_step hfits, cut_step hfits, hrest]
          · simp [cut, hfits]

/-- An element can be written: its header says how long it is. -/
def Writable (len : Nat → Nat) (e : Element) : Prop := e.1 < 2 ^ 16 ∧ e.2.length = len e.1

/-- **What was written** is cut where it was joined. -/
theorem split_write {es : List Element} (hes : ∀ e ∈ es, Writable len e) :
    split len (write es) = (es, []) := by
  unfold split
  induction es with
  | nil => rfl
  | cons e es ih =>
      obtain ⟨hlt, hlen⟩ := hes e (List.mem_cons_self ..)
      have hheader := header_headerBytes hlt
      have hbytes : write (e :: es) =
          UInt8.ofNat e.1 :: UInt8.ofNat (e.1 / 2 ^ 8) :: (e.2 ++ write es) := by
        rw [write_cons, headerBytes, List.append_assoc]
        rfl
      have hfits : len (header (UInt8.ofNat e.1) (UInt8.ofNat (e.1 / 2 ^ 8))) ≤
          (e.2 ++ write es).length := by
        rw [hheader, ← hlen, List.length_append]
        omega
      have htail : (e.2 ++ write es).drop e.2.length = write es := List.drop_left ..
      have hrest : cut len ((e.2 ++ write es).length + 1) (write es) = (es, []) := by
        rw [← ih fun e' hmem => hes e' (List.mem_cons_of_mem _ hmem)]
        exact cut_eq_of_le (by rw [List.length_append]; omega) (Nat.le_refl _)
      rw [hbytes, List.length_cons, List.length_cons, cut_step hfits, hheader, ← hlen, htail,
        hrest, List.take_left]

/-! ## Walking -/

/-- A loop that looks for an element. -/
structure Walker where
  /-- The loop goes on while this many bytes remain. -/
  least : Nat
  /-- An element longer than what remains ends the search. -/
  checked : Bool
  len : Nat → Nat
  /-- Looks at a header and the bytes behind it, `none` when it reads more than there are. -/
  test : Nat → List UInt8 → Option Bool
  /-- So many bytes of the content belong to the test and are not reported. -/
  skip : Nat
  two_le_least : 2 ≤ least
  least_le : least ≤ 2 ^ 12
  len_lt (h : Nat) : len h < 2 ^ 11
  test_take (h : Nat) (tail : List UInt8) : len h ≤ tail.length →
    test h (tail.take (len h)) = test h tail
  test_reads (h : Nat) (tail : List UInt8) : least ≤ tail.length + 2 → (test h tail).isSome
  skip_le (h : Nat) (tail : List UInt8) : test h tail = some true → skip ≤ len h
  least_le_len (h : Nat) (tail : List UInt8) : test h tail = some true → least ≤ len h + 2

/-- How a search ends. -/
inductive Outcome where
  | endless
  /-- A byte outside the area is read. -/
  | outside
  | nothing
  /-- Where the content starts and how long it is. -/
  | found (start length : Nat)
deriving DecidableEq, Repr

/-- The loop at `rest`, `pos` bytes into the area, when `length` bytes remain by its own count,
which has sixteen bits. -/
def walk (w : Walker) : Nat → Nat → Nat → List UInt8 → Outcome
  | 0, _, _, _ => .endless
  | fuel + 1, pos, length, rest =>
      if length < w.least then .nothing
      else match rest with
        | b₀ :: b₁ :: tail =>
            let h := header b₀ b₁
            if w.checked ∧ length < w.len h + 2 then .nothing
            else match w.test h tail with
              | none => .outside
              | some true => .found (pos + 2 + w.skip) (w.len h - w.skip)
              | some false =>
                  walk w fuel (pos + (w.len h + 2)) ((length + 2 ^ 16 - (w.len h + 2)) % 2 ^ 16)
                    (tail.drop (w.len h))
        | _ => .outside

/-- A search through a whole area. -/
def search (w : Walker) (area : List UInt8) : Outcome :=
  walk w (area.length + 1) 0 area.length area

/-- An element that is looked for. -/
def Wanted (w : Walker) (e : Element) : Prop := w.test e.1 e.2 = some true

instance (w : Walker) (e : Element) : Decidable (Wanted w e) :=
  inferInstanceAs (Decidable (_ = _))

/-- What a search is for: the first element in the area that passes the test, or the news that
there is none. -/
inductive Exact (w : Walker) (pos : Nat) (es : List Element) : Outcome → Prop
  | nothing : (∀ e ∈ es, ¬ Wanted w e) → Exact w pos es .nothing
  | found (before : List Element) (e : Element) (behind : List Element) :
      es = before ++ e :: behind → (∀ e' ∈ before, ¬ Wanted w e') → Wanted w e →
      Exact w pos es (.found (pos + (write before).length + 2 + w.skip) (e.2.length - w.skip))

/-- Nothing misleads the walk: it finds an element, or it looks at the remaining length, or what
is left behind the elements is too short to be taken for one. -/
def Clear (w : Walker) (s : List Element × List UInt8) : Prop :=
  (∃ e ∈ s.1, Wanted w e) ∨ w.checked = true ∨ s.2.length < w.least

instance (w : Walker) (s : List Element × List UInt8) : Decidable (Clear w s) :=
  inferInstanceAs (Decidable ((∃ e ∈ s.1, Wanted w e) ∨ _ ∨ _))

/-- The walk went wrong: it reads outside, or reports what does not lie inside. -/
def Astray (stop : Nat) (o : Outcome) : Prop :=
  o = .outside ∨ ∃ start length, o = .found start length ∧ stop < start + length

variable {w : Walker}

/-- An element in front of the others that is not wanted. -/
theorem Exact.behind {pos : Nat} {e : Element} {es : List Element} {o : Outcome}
    (hnot : ¬ Wanted w e) (hexact : Exact w (pos + (e.2.length + 2)) es o) :
    Exact w pos (e :: es) o := by
  cases hexact with
  | nothing hnone =>
      refine .nothing fun e' hmem => ?_
      rcases List.mem_cons.mp hmem with rfl | hmem
      · exact hnot
      · exact hnone e' hmem
  | found before e' behind hes hbefore hwanted =>
      have hstart : pos + (e.2.length + 2) + (write before).length + 2 + w.skip =
          pos + (write (e :: before)).length + 2 + w.skip := by
        rw [length_write_cons]
        omega
      rw [hstart]
      refine .found (e :: before) e' behind (by rw [hes]; rfl) (fun e'' hmem => ?_) hwanted
      rcases List.mem_cons.mp hmem with rfl | hmem
      · exact hnot
      · exact hbefore e'' hmem

/-- An exact search of an area without wanted elements finds nothing. -/
theorem Exact.eq_nothing {pos : Nat} {es : List Element} {o : Outcome}
    (hexact : Exact w pos es o) (hnone : ∀ e ∈ es, ¬ Wanted w e) : o = .nothing := by
  cases hexact with
  | nothing _ => rfl
  | found before e behind hes _ hwanted =>
      exact absurd hwanted (hnone e (by rw [hes]; simp))

/-- The loop ends when too little remains. -/
theorem walk_short {fuel pos length : Nat} {rest : List UInt8} (hshort : length < w.least) :
    walk w (fuel + 1) pos length rest = .nothing := by
  unfold walk
  rw [if_pos hshort]

/-- Behind the area there is nothing to read. -/
theorem walk_beyond {fuel pos length : Nat} (hlength : w.least ≤ length) :
    walk w (fuel + 1) pos length [] = .outside := by
  simp [walk, Nat.not_lt.mpr hlength]

/-- One turn over an element that lies in what remains. -/
theorem walk_step (fuel pos : Nat) {b₀ b₁ : UInt8} {tail : List UInt8}
    (hleast : w.least ≤ tail.length + 2) (hlt : tail.length + 2 < 2 ^ 16)
    (hfits : w.len (header b₀ b₁) ≤ tail.length) :
    walk w (fuel + 1) pos (tail.length + 2) (b₀ :: b₁ :: tail) =
      if Wanted w (header b₀ b₁, tail.take (w.len (header b₀ b₁))) then
        .found (pos + 2 + w.skip) (w.len (header b₀ b₁) - w.skip)
      else walk w fuel (pos + (w.len (header b₀ b₁) + 2))
        (tail.drop (w.len (header b₀ b₁))).length (tail.drop (w.len (header b₀ b₁))) := by
  have hreads := w.test_reads (header b₀ b₁) tail hleast
  have hcount : (tail.length + 2 + 2 ^ 16 - (w.len (header b₀ b₁) + 2)) % 2 ^ 16 =
      (tail.drop (w.len (header b₀ b₁))).length := by
    rw [List.length_drop]
    omega
  rw [walk, if_neg (by omega)]
  simp only [Wanted, w.test_take _ _ hfits]
  rw [if_neg (by omega), hcount]
  cases htest : w.test (header b₀ b₁) tail with
  | none => rw [htest] at hreads; cases hreads
  | some found => cases found <;> simp

/-- An element that is longer than what remains ends a search that looks. -/
theorem walk_checked (fuel pos : Nat) {b₀ b₁ : UInt8} {tail : List UInt8}
    (hleast : w.least ≤ tail.length + 2) (hlong : tail.length < w.len (header b₀ b₁))
    (hchecked : w.checked = true) :
    walk w (fuel + 1) pos (tail.length + 2) (b₀ :: b₁ :: tail) = .nothing := by
  rw [walk, if_neg (by omega)]
  simp only []
  rw [if_pos ⟨hchecked, by omega⟩]

/-- It leads any other search astray: the count of what remains wraps around. -/
theorem walk_long {fuel pos : Nat} {b₀ b₁ : UInt8} {tail : List UInt8}
    (hleast : w.least ≤ tail.length + 2) (hlong : tail.length < w.len (header b₀ b₁))
    (hchecked : w.checked = false) (hfuel : 0 < fuel) :
    Astray (pos + (tail.length + 2))
      (walk w (fuel + 1) pos (tail.length + 2) (b₀ :: b₁ :: tail)) := by
  have hreads := w.test_reads (header b₀ b₁) tail hleast
  have hlen := w.len_lt (header b₀ b₁)
  have hsmall := w.least_le
  rw [walk, if_neg (by omega)]
  simp only []
  rw [if_neg (by simp [hchecked])]
  cases htest : w.test (header b₀ b₁) tail with
  | none => rw [htest] at hreads; cases hreads
  | some found =>
      cases found with
      | true =>
          have hskip := w.skip_le _ _ htest
          refine Or.inr ⟨pos + 2 + w.skip, w.len (header b₀ b₁) - w.skip, rfl, ?_⟩
          omega
      | false =>
          obtain ⟨turns, rfl⟩ : ∃ turns, fuel = turns + 1 := ⟨fuel - 1, by omega⟩
          have hgone : tail.drop (w.len (header b₀ b₁)) = [] :=
            List.drop_eq_nil_of_le (by omega)
          simp only [hgone]
          exact Or.inl (walk_beyond (by omega))

theorem clear_step {n : Nat} {b₀ b₁ : UInt8} {tail : List UInt8}
    (hfits : w.len (header b₀ b₁) ≤ tail.length)
    (hnot : ¬ Wanted w (header b₀ b₁, tail.take (w.len (header b₀ b₁)))) :
    Clear w (cut w.len (n + 1) (b₀ :: b₁ :: tail)) ↔
      Clear w (cut w.len n (tail.drop (w.len (header b₀ b₁)))) := by
  rw [cut_step hfits]
  simp [Clear, hnot]

/-- Bytes that are too few for the loop hold no element it looks for. -/
theorem exact_short {n pos : Nat} {rest : List UInt8} (hshort : rest.length < w.least) :
    Exact w pos (cut w.len n rest).1 .nothing := by
  refine .nothing fun e hmem hwanted => ?_
  have hlen := length_of_mem_cut hmem
  have hleast := w.least_le_len _ _ hwanted
  have hsize := congrArg List.length (write_cut w.len n rest)
  have hin := length_le_write hmem
  rw [List.length_append] at hsize
  omega

/-- **The walk is exact** where nothing misleads it. -/
theorem walk_first {fuel pos : Nat} {rest : List UInt8} (hfuel : rest.length < fuel)
    (hlt : rest.length < 2 ^ 16) (hclear : Clear w (cut w.len fuel rest)) :
    Exact w pos (cut w.len fuel rest).1 (walk w fuel pos rest.length rest) := by
  induction fuel generalizing pos rest with
  | zero => omega
  | succ fuel ih =>
      by_cases hshort : rest.length < w.least
      · rw [walk_short hshort]
        exact exact_short hshort
      have htwo := w.two_le_least
      match rest with
      | [] => exact absurd hshort (by rw [List.length_nil]; omega)
      | [b] => exact absurd hshort (by rw [List.length_singleton]; omega)
      | b₀ :: b₁ :: tail =>
          simp only [List.length_cons] at hfuel hlt hshort
          have hleast : w.least ≤ tail.length + 2 := by omega
          by_cases hfits : w.len (header b₀ b₁) ≤ tail.length
          · have hturn := walk_step fuel pos hleast hlt hfits
            rw [List.length_cons, List.length_cons, hturn, cut_step hfits]
            have hsize : (tail.take (w.len (header b₀ b₁))).length = w.len (header b₀ b₁) := by
              simp [hfits]
            split
            · next hwanted =>
                have hhere := @Exact.found w pos _ [] _
                  (cut w.len fuel (tail.drop (w.len (header b₀ b₁)))).1 rfl (by simp) hwanted
                rw [hsize] at hhere
                exact hhere
            · next hnot =>
                have hrest := (clear_step hfits hnot).mp hclear
                refine Exact.behind hnot ?_
                rw [hsize]
                exact ih (by rw [List.length_drop]; omega) (by rw [List.length_drop]; omega) hrest
          · have hcut : cut w.len (fuel + 1) (b₀ :: b₁ :: tail) = ([], b₀ :: b₁ :: tail) := by
              simp [cut, hfits]
            rw [hcut] at hclear ⊢
            rcases hclear with ⟨e, hmem, _⟩ | hchecked | hleft
            · cases hmem
            · have hnone := walk_checked fuel pos hleast
                (Nat.lt_of_not_le hfits) hchecked
              rw [List.length_cons, List.length_cons, hnone]
              exact .nothing (by simp)
            · exact absurd hleft (by simp only [List.length_cons]; omega)

/-- **Elsewhere it goes astray**: there is nothing it looks for, but it does not say so. -/
theorem walk_astray (fuel pos : Nat) {rest : List UInt8} (hfuel : rest.length < fuel)
    (hlt : rest.length < 2 ^ 16) (hclear : ¬ Clear w (cut w.len fuel rest)) :
    (∀ e ∈ (cut w.len fuel rest).1, ¬ Wanted w e) ∧
      Astray (pos + rest.length) (walk w fuel pos rest.length rest) := by
  refine ⟨fun e hmem hwanted => hclear (Or.inl ⟨e, hmem, hwanted⟩), ?_⟩
  induction fuel generalizing pos rest with
  | zero => omega
  | succ fuel ih =>
      have htwo := w.two_le_least
      match rest with
      | [] => exact absurd (Or.inr (Or.inr (by simp only [cut, List.length_nil]; omega))) hclear
      | [b] => exact absurd (Or.inr (Or.inr (by simp only [cut, List.length_singleton]; omega))) hclear
      | b₀ :: b₁ :: tail =>
          simp only [List.length_cons] at hfuel hlt
          by_cases hfits : w.len (header b₀ b₁) ≤ tail.length
          · have hnot : ¬ Wanted w (header b₀ b₁, tail.take (w.len (header b₀ b₁))) := by
              intro hwanted
              refine hclear (Or.inl ⟨_, ?_, hwanted⟩)
              rw [cut_step hfits]
              exact List.mem_cons_self ..
            have hrest := mt (clear_step hfits hnot).mpr hclear
            have hleft : w.least ≤ tail.length + 2 := by
              by_contra hshort
              refine hclear (Or.inr (Or.inr ?_))
              have hsize := congrArg List.length
                (write_cut w.len (fuel + 1) (b₀ :: b₁ :: tail))
              rw [List.length_append, List.length_cons, List.length_cons] at hsize
              omega
            have hstop : pos + (w.len (header b₀ b₁) + 2) +
                (tail.drop (w.len (header b₀ b₁))).length = pos + (tail.length + 1 + 1) := by
              rw [List.length_drop]
              omega
            have hturn := walk_step fuel pos hleft hlt hfits
            rw [List.length_cons, List.length_cons, hturn, if_neg hnot, ← hstop]
            exact ih _ (by rw [List.length_drop]; omega) (by rw [List.length_drop]; omega) hrest
          · have hcut : cut w.len (fuel + 1) (b₀ :: b₁ :: tail) = ([], b₀ :: b₁ :: tail) := by
              simp [cut, hfits]
            have hopen : w.checked = false := by
              cases hchecked : w.checked with
              | false => rfl
              | true => exact absurd (Or.inr (Or.inl hchecked)) hclear
            have hleast : w.least ≤ tail.length + 2 := by
              by_contra hshort
              refine hclear (Or.inr (Or.inr ?_))
              rw [hcut]
              simp only [List.length_cons]
              omega
            exact walk_long hleast (by omega) hopen (by omega)

/-- **A search is exact** if and only if nothing misleads it. -/
theorem search_exact_iff {area : List UInt8} (hlt : area.length < 2 ^ 16) :
    Exact w 0 (split w.len area).1 (search w area) ↔ Clear w (split w.len area) := by
  have hsplit : split w.len area = cut w.len (area.length + 1) area :=
    cut_eq_of_le (Nat.le_refl _) (Nat.le_succ _)
  rw [hsplit, search]
  constructor
  · intro hexact
    by_contra hclear
    obtain ⟨hnone, hastray⟩ := walk_astray _ 0 (Nat.lt_succ_self _) hlt hclear
    rw [hexact.eq_nothing hnone] at hastray
    rcases hastray with hout | ⟨start, length, hfound, _⟩
    · cases hout
    · cases hfound
  · exact walk_first (Nat.lt_succ_self _) hlt

/-- What a search is to report about a list of elements: the content of the first one that it
wants, as it lies in the area. -/
def Reported (skip : Nat) (area : List UInt8) (o : Outcome) : Option (List UInt8) → Prop
  | none => o = .nothing
  | some content => ∃ start length, o = .found start length ∧ start + length ≤ area.length ∧
      (area.drop start).take length = content.drop skip

/-- **What was written is found**: the first element that is wanted, with its content. -/
theorem search_write {es : List Element} (hes : ∀ e ∈ es, Writable w.len e)
    (hlt : (write es).length < 2 ^ 16) :
    Reported w.skip (write es) (search w (write es))
      ((es.find? fun e => Wanted w e).map fun e => e.2) := by
  have htwo := w.two_le_least
  have hsplit := split_write hes
  have hexact := (search_exact_iff (w := w) hlt).mpr
    (Or.inr (Or.inr (by rw [hsplit, List.length_nil]; omega)))
  rw [hsplit] at hexact
  cases hfind : es.find? fun e => Wanted w e with
  | none =>
      refine hexact.eq_nothing fun e hmem hwanted => ?_
      exact List.find?_eq_none.mp hfind e hmem (by simpa using hwanted)
  | some e =>
      generalize search w (write es) = o at hexact
      cases hexact with
      | nothing hnone =>
          have hwanted := List.find?_some hfind
          exact absurd (by simpa using hwanted) (hnone e (List.mem_of_find?_eq_some hfind))
      | found before e' behind hjoin hbefore hwanted =>
          have hcons : es = before ++ e' :: behind := hjoin
          have hfirst : es.find? (fun e => Wanted w e) = some e' := by
            rw [hcons, List.find?_append, List.find?_eq_none.mpr (by simpa using hbefore)]
            simp [hwanted]
          obtain rfl : e' = e := Option.some.inj (hfirst ▸ hfind)
          have hskip := w.skip_le _ _ hwanted
          have hlen := (hes e' (by rw [hcons]; simp)).2
          have hbytes : write es = write before ++ (headerBytes e'.1 ++ (e'.2 ++ write behind)) := by
            rw [hcons, write, List.flatMap_append]
            simp [write]
          have htwo' : (headerBytes e'.1).length = 2 := rfl
          refine ⟨_, _, rfl, ?_, ?_⟩
          · rw [hbytes]
            simp only [List.length_append]
            omega
          · have hdrop : (write es).drop (0 + (write before).length + 2 + w.skip) =
                e'.2.drop w.skip ++ write behind := by
              rw [show 0 + (write before).length + 2 + w.skip =
                (write before).length + ((headerBytes e'.1).length + w.skip) by omega, hbytes,
                List.drop_length_add_append, List.drop_length_add_append,
                List.drop_append_of_le_length (by omega)]
            rw [hdrop, List.take_left' (by rw [List.length_drop])]

end Tlv
