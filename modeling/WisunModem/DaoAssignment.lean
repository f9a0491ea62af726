import WisunModem.DaoSpans

/-!
# When preferences share a subfield

As long as the look at the next parent sees the next one that takes part, the spans begin
where they should, and a less preferred parent begins at an even bit.
-/

namespace RplDao

section

variable (mop : Mop) (pcs : Fin 8)

/-- In a list whose spans begin at `bit` and whose places begin at `place`, a parent takes
the second bit of the subfield of a more preferred one although there was room for it. -/
def Shares (bit place : Nat) (l : List Neighbour) : Prop :=
  ∃ (x y : Nat) (n m : Neighbour) (s t : Nat × Nat) (p : Nat), x < y ∧ l[x]? = some n ∧
    l[y]? = some m ∧ n.dodagPref < m.dodagPref ∧ (spans mop pcs bit l)[x]? = some s ∧
    (spans mop pcs bit l)[y]? = some t ∧ s.1 < s.2 ∧ t.1 < t.2 ∧ s.2 = t.1 ∧ t.1 % 2 = 1 ∧
    (places mop place l)[y]? = some p ∧ p ≤ pcs

/-- The look at the next parent sees the next one that takes part where it matters. -/
def Looks (place : Nat) (l : List Neighbour) : Prop :=
  ∀ (front : List Neighbour) (a c : Neighbour) (back : List Neighbour) (b : Neighbour)
    (p : Nat), l = front ++ a :: c :: back → eligible mop a = true → eligible mop c = false →
    c.dodagPref = a.dodagPref → back.find? (eligible mop) = some b →
    a.dodagPref < b.dodagPref → (places mop place l)[front.length]? = some p → p % 2 = 0 →
    (pcs : Nat) < p + 2

/-- The place of the next parent. -/
def nextPlace (n : Neighbour) (rest : List Neighbour) (place : Nat) : Nat :=
  if eligible mop n then
    match rest.find? (eligible mop) with
    | some b => if n.dodagPref < b.dodagPref ∧ (place + 1) % 2 = 1 then place + 2 else place + 1
    | none => place + 1
  else place

end

variable {mop : Mop} {pcs : Fin 8} {l rest : List Neighbour} {n : Neighbour} {bit place : Nat}

theorem places_cons (mop : Mop) (place : Nat) (n : Neighbour) (rest : List Neighbour) :
    places mop place (n :: rest) = place :: places mop (nextPlace mop n rest place) rest := rfl

theorem le_nextPlace (mop : Mop) (n : Neighbour) (rest : List Neighbour) (place : Nat) :
    place ≤ nextPlace mop n rest place := by
  unfold nextPlace
  split
  · split
    · split <;> omega
    · omega
  · omega

theorem le_of_mem_places {p : Nat} (h : p ∈ places mop place l) : place ≤ p := by
  induction l generalizing place with
  | nil => cases h
  | cons n rest ih =>
    rw [places_cons] at h
    rcases List.mem_cons.mp h with rfl | h
    · exact Nat.le_refl _
    · exact (le_nextPlace mop n rest place).trans (ih h)

/-- Only parents that take part get bits, and none behind the last bit. -/
theorem eligible_of_span {x : Nat} {m : Neighbour} {s : Nat × Nat} (hm : l[x]? = some m)
    (hs : (spans mop pcs bit l)[x]? = some s) (hne : s.1 < s.2) :
    eligible mop m = true ∧ bit ≤ pcs := by
  induction l generalizing bit x with
  | nil => cases hm
  | cons n rest ih =>
    unfold spans at hs
    by_cases h : bit ≤ pcs ∧ eligible mop n = true
    · rw [if_pos h] at hs
      cases x with
      | zero =>
        cases hm
        exact ⟨h.2, h.1⟩
      | succ x => exact ⟨(ih hm hs).1, h.1⟩
    · rw [if_neg h] at hs
      cases x with
      | zero =>
        cases hs
        exact absurd hne (Nat.lt_irrefl _)
      | succ x => exact ih hm hs

/-- No room, no sharing. -/
theorem not_shares_of_lt (h : (pcs : Nat) < place) : ¬ Shares mop pcs bit place l := by
  rintro ⟨x, y, n, m, s, t, p, -, -, -, -, -, -, -, -, -, -, hp, hle⟩
  have hge := le_of_mem_places (List.mem_of_getElem? hp)
  omega

theorem looks_of_lt (h : (pcs : Nat) < place) : Looks mop pcs place l := by
  intro front a c back b p _ _ _ _ _ _ hp _
  have hge := le_of_mem_places (List.mem_of_getElem? hp)
  omega

variable (pcs) in
/-- The first parent that takes part begins where the list begins. -/
theorem find?_span {b : Neighbour} (h : l.find? (eligible mop) = some b) :
    ∃ y : Nat, l[y]? = some b ∧ (∀ place, (places mop place l)[y]? = some place) ∧
      ∀ bit : Nat, bit ≤ pcs → ∃ upto, (spans mop pcs bit l)[y]? = some (bit, upto) ∧ bit < upto ∧
        ∀ (x : Nat) (s : Nat × Nat), (spans mop pcs bit l)[x]? = some s → s.1 < s.2 →
          s.1 = bit → x = y := by
  induction l with
  | nil => cases h
  | cons n rest ih =>
    cases helig : eligible mop n with
    | true =>
      rw [List.find?_cons_of_pos helig] at h
      cases h
      refine ⟨0, rfl, fun _ => rfl, fun bit hbit => ?_⟩
      have hlt := bit_lt_nextBit pcs b rest bit
      unfold spans
      rw [if_pos ⟨hbit, helig⟩]
      refine ⟨_, rfl, hlt, fun x s hs _ hfrom => ?_⟩
      cases x with
      | zero => rfl
      | succ x =>
        have hle := ((spans_bounds mop pcs rest (nextBit_le hbit)).2.2 s
          (List.mem_of_getElem? hs)).1
        omega
    | false =>
      rw [List.find?_cons_of_neg (by simp [helig])] at h
      obtain ⟨y, hy, hplaces, hspans⟩ := ih h
      refine ⟨y + 1, hy, fun place => ?_, fun bit hbit => ?_⟩
      · rw [places_cons]
        have hsame : nextPlace mop n rest place = place := by
          unfold nextPlace
          rw [helig]
          rfl
        rw [hsame]
        exact hplaces place
      · obtain ⟨upto, hupto, hlt, hunique⟩ := hspans bit hbit
        unfold spans
        rw [if_neg (by simp [helig])]
        refine ⟨upto, hupto, hlt, fun x s hs hne hfrom => ?_⟩
        cases x with
        | zero =>
          cases hs
          exact absurd hne (Nat.lt_irrefl _)
        | succ x => exact congrArg (· + 1) (hunique x s hs hne hfrom)

theorem nextPlace_of_skip (h : eligible mop n = false) : nextPlace mop n rest place = place := by
  unfold nextPlace
  rw [if_neg (by simp [h])]

variable (place) in
theorem nextPlace_of_find? (h : eligible mop n = true) {b : Neighbour}
    (hb : rest.find? (eligible mop) = some b) :
    nextPlace mop n rest place
      = if n.dodagPref < b.dodagPref ∧ (place + 1) % 2 = 1 then place + 2 else place + 1 := by
  unfold nextPlace
  rw [if_pos h, hb]

/-! ## One parent more in front -/

theorem shares_cons_of_skip (h : eligible mop n = false) :
    Shares mop pcs bit place (n :: rest) ↔ Shares mop pcs bit place rest := by
  have hspans : spans mop pcs bit (n :: rest) = (bit, bit) :: spans mop pcs bit rest := by
    rw [spans, if_neg (by simp [h])]
  have hplaces : places mop place (n :: rest) = place :: places mop place rest := by
    rw [places_cons, nextPlace_of_skip h]
  unfold Shares
  rw [hspans, hplaces]
  constructor
  · rintro ⟨x, y, a, m, s, t, p, hlt, ha, hm, hpref, hs, ht, hne, hrest⟩
    obtain ⟨y, rfl⟩ := Nat.exists_eq_succ_of_ne_zero (Nat.ne_of_gt (Nat.zero_lt_of_lt hlt))
    cases x with
    | zero =>
      cases hs
      exact absurd hne (Nat.lt_irrefl _)
    | succ x => exact ⟨x, y, a, m, s, t, p, Nat.lt_of_succ_lt_succ hlt, ha, hm, hpref, hs, ht, hne, hrest⟩
  · rintro ⟨x, y, a, m, s, t, p, hlt, hrest⟩
    exact ⟨x + 1, y + 1, a, m, s, t, p, Nat.succ_lt_succ hlt, hrest⟩

theorem looks_cons_of_skip (h : eligible mop n = false) :
    Looks mop pcs place (n :: rest) ↔ Looks mop pcs place rest := by
  have hplaces : places mop place (n :: rest) = place :: places mop place rest := by
    rw [places_cons, nextPlace_of_skip h]
  unfold Looks
  rw [hplaces]
  constructor
  · intro hl front a c back b p hsplit ha hc hpref hb hless hp heven
    exact hl (n :: front) a c back b p (by rw [hsplit]; rfl) ha hc hpref hb hless hp heven
  · intro hl front a c back b p hsplit ha hc hpref hb hless hp heven
    cases front with
    | nil =>
      cases hsplit
      rw [h] at ha
      cases ha
    | cons m front =>
      injection hsplit with _ hsplit
      exact hl front a c back b p hsplit ha hc hpref hb hless hp heven

/-- The first parent shares with the next one that takes part, or two others share. -/
theorem shares_cons (h : eligible mop n = true) (hbit : bit ≤ pcs) :
    Shares mop pcs bit place (n :: rest) ↔
      (∃ b, rest.find? (eligible mop) = some b ∧ n.dodagPref < b.dodagPref ∧
        nextBit pcs n rest bit % 2 = 1 ∧ nextBit pcs n rest bit ≤ pcs ∧
        nextPlace mop n rest place ≤ pcs) ∨
      Shares mop pcs (nextBit pcs n rest bit) (nextPlace mop n rest place) rest := by
  have hspans : spans mop pcs bit (n :: rest)
      = (bit, nextBit pcs n rest bit) :: spans mop pcs (nextBit pcs n rest bit) rest := by
    rw [spans, if_pos ⟨hbit, h⟩]
  unfold Shares
  rw [hspans, places_cons]
  constructor
  · rintro ⟨x, y, a, m, s, t, p, hlt, ha, hm, hpref, hs, ht, hne, htne, hmeet, hodd, hp, hle⟩
    obtain ⟨y, rfl⟩ := Nat.exists_eq_succ_of_ne_zero (Nat.ne_of_gt (Nat.zero_lt_of_lt hlt))
    cases x with
    | zero =>
      cases ha
      cases hs
      left
      -- only the next parent that takes part begins right behind
      obtain ⟨helig, hroom⟩ := eligible_of_span (show rest[y]? = some m from hm) ht htne
      have hsome : (rest.find? (eligible mop)).isSome :=
        List.find?_isSome.mpr ⟨m, List.mem_of_getElem? hm, helig⟩
      obtain ⟨b, hb⟩ := Option.isSome_iff_exists.mp hsome
      obtain ⟨z, hz, hplaces, hunique⟩ := find?_span pcs hb
      obtain ⟨-, -, -, honly⟩ := hunique _ hroom
      have hyz : y = z := honly y t ht htne hmeet.symm
      subst hyz
      rw [show rest[y]? = some m from hm] at hz
      cases hz
      have hplace := hplaces (nextPlace mop n rest place)
      rw [show (places mop (nextPlace mop n rest place) rest)[y]? = some p from hp] at hplace
      cases hplace
      exact ⟨m, hb, hpref, by rw [← hodd, ← hmeet], hroom, hle⟩
    | succ x =>
      exact .inr ⟨x, y, a, m, s, t, p, Nat.lt_of_succ_lt_succ hlt, ha, hm, hpref, hs, ht, hne, htne, hmeet, hodd,
        hp, hle⟩
  · rintro (⟨b, hb, hpref, hodd, hroom, hplace⟩ | ⟨x, y, a, m, s, t, p, hlt, hrest⟩)
    · obtain ⟨y, hy, hplaces, hspan⟩ := find?_span pcs hb
      obtain ⟨upto, ht, hlt, -⟩ := hspan _ hroom
      exact ⟨0, y + 1, n, b, _, _, _, Nat.succ_pos y, rfl, hy, hpref, rfl, ht,
        bit_lt_nextBit .., hlt, rfl, hodd, hplaces _, hplace⟩
    · exact ⟨x + 1, y + 1, a, m, s, t, p, Nat.succ_lt_succ hlt, hrest⟩

theorem looks_cons (h : eligible mop n = true) :
    Looks mop pcs place (n :: rest) ↔
      (∀ c back b, rest = c :: back → eligible mop c = false → c.dodagPref = n.dodagPref →
        back.find? (eligible mop) = some b → n.dodagPref < b.dodagPref → place % 2 = 0 →
        (pcs : Nat) < place + 2) ∧
      Looks mop pcs (nextPlace mop n rest place) rest := by
  unfold Looks
  rw [places_cons]
  constructor
  · intro hl
    refine ⟨fun c back b hsplit hc hpref hb hless heven => ?_,
      fun front a c back b p hsplit ha hc hpref hb hless hp heven => ?_⟩
    · exact hl [] n c back b place (by rw [hsplit]; rfl) h hc hpref hb hless rfl heven
    · exact hl (n :: front) a c back b p (by rw [hsplit]; rfl) ha hc hpref hb hless hp heven
  · rintro ⟨hhead, hl⟩ front a c back b p hsplit ha hc hpref hb hless hp heven
    cases front with
    | nil =>
      cases hsplit
      cases hp
      exact hhead c back b rfl hc hpref hb hless heven
    | cons m front =>
      injection hsplit with _ hsplit
      exact hl front a c back b p hsplit ha hc hpref hb hless hp heven

variable (pcs bit place) in
/-- Behind the last parent that takes part nobody shares. -/
theorem not_shares_of_find? (h : l.find? (eligible mop) = none) :
    ¬ Shares mop pcs bit place l ∧ Looks mop pcs place l := by
  have hnone : ∀ m ∈ l, eligible mop m = false := fun m hm => by
    simpa using List.find?_eq_none.mp h m hm
  constructor
  · rintro ⟨x, y, a, m, s, t, p, -, -, hm, -, -, ht, -, htne, -⟩
    have helig := (eligible_of_span hm ht htne).1
    rw [hnone m (List.mem_of_getElem? hm)] at helig
    cases helig
  · intro front a c back b p hsplit ha
    rw [hnone a (by rw [hsplit]; exact List.mem_append_right _ List.mem_cons_self)] at ha
    cases ha

/-- **Preferences share a subfield** exactly where the look ahead is misled. -/
theorem shares_iff_not_looks (hparents : ∀ n ∈ l, n.dodagParent = true)
    (hsorted : l.Pairwise fun a b => a.dodagPref ≤ b.dodagPref) (bit : Nat) :
    Shares mop pcs bit bit l ↔ ¬ Looks mop pcs bit l := by
  induction l generalizing bit with
  | nil =>
    obtain ⟨hshares, hlooks⟩ : ¬ Shares mop pcs bit bit [] ∧ Looks mop pcs bit [] :=
      not_shares_of_find? pcs bit bit rfl
    exact iff_of_false hshares (not_not_intro hlooks)
  | cons n rest ih =>
    have ih := ih (fun m hm => hparents m (List.mem_cons_of_mem _ hm)) hsorted.of_cons
    by_cases hbit : bit ≤ pcs
    case neg =>
      have hlt := Nat.lt_of_not_le hbit
      exact iff_of_false (not_shares_of_lt hlt) (not_not_intro (looks_of_lt hlt))
    cases helig : eligible mop n with
    | false => rw [shares_cons_of_skip helig, looks_cons_of_skip helig, ih]
    | true =>
      rw [shares_cons helig hbit, looks_cons helig]
      cases hfind : rest.find? (eligible mop) with
      | none =>
        obtain ⟨hshares, hlooks⟩ := not_shares_of_find? pcs (nextBit pcs n rest bit)
          (nextPlace mop n rest bit) hfind
        refine iff_of_false ?_ (not_not_intro ⟨fun c back b hsplit hc _ hb => ?_, hlooks⟩)
        · rintro (⟨b, hb, -⟩ | hs)
          · cases hb
          · exact hshares hs
        · rw [hsplit, List.find?_cons_of_neg (by simp [hc]), hb] at hfind
          cases hfind
      | some b =>
        have hplace := nextPlace_of_find? bit helig hfind
        obtain ⟨head, back, rfl⟩ : ∃ head back, rest = head :: back := by
          cases rest with
          | nil => cases hfind
          | cons head back => exact ⟨head, back, rfl⟩
        have hnext : nextBit pcs n (head :: back) bit
            = if bit + 1 ≤ pcs ∧ n.dodagPref < head.dodagPref ∧ (bit + 1) % 2 = 1 then bit + 2
              else bit + 1 := by
          unfold nextBit
          rw [List.head?_cons, Option.filter_some,
            if_pos (hparents head (List.mem_cons_of_mem _ List.mem_cons_self))]
        have hbmem : b = head ∨ b ∈ back :=
          List.mem_cons.mp (List.mem_of_find?_eq_some hfind)
        have hheadle : n.dodagPref ≤ head.dodagPref :=
          (List.pairwise_cons.mp hsorted).1 head List.mem_cons_self
        have hble : head.dodagPref ≤ b.dodagPref := by
          rcases hbmem with rfl | hb
          · exact Nat.le_refl _
          · exact (List.pairwise_cons.mp hsorted.of_cons).1 b hb
        by_cases hsame : nextBit pcs n (head :: back) bit = nextPlace mop n (head :: back) bit
        · -- the spans keep up with the places
          rw [← hsame, ih]
          rw [hplace] at hsame
          have hhead : ¬ ∃ b', some b = some b' ∧ n.dodagPref < b'.dodagPref ∧
              nextBit pcs n (head :: back) bit % 2 = 1 ∧ nextBit pcs n (head :: back) bit ≤ pcs ∧
              nextBit pcs n (head :: back) bit ≤ pcs := by
            rintro ⟨b', hb', hless, hodd, -, -⟩
            cases hb'
            rw [hsame] at hodd
            split at hodd <;> omega
          have hlook : ∀ c back' b', head :: back = c :: back' → eligible mop c = false →
              c.dodagPref = n.dodagPref → back'.find? (eligible mop) = some b' →
              n.dodagPref < b'.dodagPref → bit % 2 = 0 → (pcs : Nat) < bit + 2 := by
            intro c back' b' hsplit hc hpref hb' hless heven
            cases hsplit
            rw [List.find?_cons_of_neg (by simp [hc]), hb'] at hfind
            cases hfind
            rw [hnext, if_neg (by omega), if_pos (by omega)] at hsame
            omega
          exact ⟨fun h hl => (h.resolve_left hhead) hl.2,
            fun h => .inr fun hl => h ⟨hlook, hl⟩⟩
        · -- the look ahead saw a parent of the same preference that is passed over
          have hbehind : nextPlace mop n (head :: back) bit = bit + 2 ∧
              nextBit pcs n (head :: back) bit = bit + 1 ∧ n.dodagPref < b.dodagPref ∧
              bit % 2 = 0 ∧ (bit + 1 ≤ pcs → head.dodagPref = n.dodagPref) := by
            rw [hplace, hnext] at hsame ⊢
            split at hsame <;> split at hsame <;> grind
          obtain ⟨hplace, hnext, hless, heven, hhead⟩ := hbehind
          rw [hplace, hnext]
          by_cases hroom : bit + 2 ≤ pcs
          · have hpref : head.dodagPref = n.dodagPref := hhead (by omega)
            have hskip : eligible mop head = false := by
              cases hskip : eligible mop head with
              | false => rfl
              | true =>
                rw [List.find?_cons_of_pos hskip] at hfind
                cases hfind
                omega
            refine iff_of_true (.inl ⟨b, rfl, hless, by omega, by omega, hroom⟩) fun hl => ?_
            have hfind' : back.find? (eligible mop) = some b := by
              rwa [List.find?_cons_of_neg (by simp [hskip])] at hfind
            have hlt := hl.1 head back b rfl hskip hpref hfind' hless heven
            omega
          · have hlt : (pcs : Nat) < bit + 2 := by omega
            refine iff_of_false ?_ (not_not_intro ⟨fun _ _ _ _ _ _ _ _ _ => hlt,
              looks_of_lt hlt⟩)
            rintro (⟨_, _, _, _, _, hle⟩ | hs)
            · omega
            · exact not_shares_of_lt hlt hs

/-! ## The assignment -/

/-- A holder's neighbours before and after. -/
theorem holder_of_has (hmop : mop ≠ .noDownward) (hclear : ∀ n ∈ l, n.daoPathControl = 0) {x : Nat}
    {a : Neighbour}
    (ha : (rpl_downward_convert_dodag_preferences_to_dao_path_control mop pcs l)[x]? = some a) :
    ∃ n, l[x]? = some n ∧ a.dodagPref = n.dodagPref ∧
      { a with daoPathControl := n.daoPathControl } = n ∧
      ∀ i < 8, (has a.daoPathControl i = true ↔ Holder mop pcs (parents l) x i) := by
  obtain ⟨hlength, hall⟩ := @converted mop pcs l hmop hclear
  obtain ⟨hx, -⟩ := List.getElem?_eq_some_iff.mp ha
  have hn : l[x]? = some l[x] := List.getElem?_eq_getElem (by omega)
  obtain ⟨hsame, hbits⟩ := hall x _ a hn ha
  exact ⟨_, hn, by rw [← hsame], hsame, hbits⟩

/-- Only parents hold bits. -/
theorem Holder.parent {x i : Nat} (h : Holder mop pcs (parents l) x i) (hn : l[x]? = some n) :
    (parents l)[x]? = some n := by
  obtain ⟨s, hs, -⟩ := h.span
  have hx : x < (parents l).length := by
    rw [← length_spans mop pcs 0]
    exact (List.getElem?_eq_some_iff.mp hs).1
  have hsplit : parents l ++ l.dropWhile (·.dodagParent) = l := List.takeWhile_append_dropWhile
  rwa [← hsplit, List.getElem?_append_left hx] at hn

/-- The more preferred of two holders comes first. -/
theorem Holder.order (hsorted : (parents l).Pairwise fun a b => a.dodagPref ≤ b.dodagPref)
    {x y i j : Nat} {a b : Neighbour} (hx : Holder mop pcs (parents l) x i)
    (hy : Holder mop pcs (parents l) y j) (ha : l[x]? = some a) (hb : l[y]? = some b)
    (hless : a.dodagPref < b.dodagPref) : x < y := by
  obtain ⟨hx', hxa⟩ := List.getElem?_eq_some_iff.mp (hx.parent ha)
  obtain ⟨hy', hyb⟩ := List.getElem?_eq_some_iff.mp (hy.parent hb)
  rcases Nat.lt_trichotomy x y with hlt | rfl | hlt
  · exact hlt
  · rw [hxa] at hyb
    subst hyb
    omega
  · have hle := List.pairwise_iff_getElem.mp hsorted y x hy' hx' hlt
    rw [hxa, hyb] at hle
    omega

theorem has_foldl (l : List Neighbour) (mask : UInt8) {i : Nat} (hi : i < 8) :
    has (l.foldl (fun mask n => mask ||| n.daoPathControl) mask) i = true ↔
      has mask i = true ∨ ∃ n ∈ l, has n.daoPathControl i = true := by
  induction l generalizing mask with
  | nil => simp
  | cons n rest ih => simp [ih, has_or _ _ hi, or_assoc]

/-- Holders that share a subfield do so as the spans say. -/
theorem shares_of_holders (hsorted : (parents l).Pairwise fun a b => a.dodagPref ≤ b.dodagPref)
    {x y i j place : Nat} {a b : Neighbour} (hx : Holder mop pcs (parents l) x i)
    (hy : Holder mop pcs (parents l) y j) (ha : l[x]? = some a) (hb : l[y]? = some b)
    (hless : a.dodagPref < b.dodagPref) (hsub : i / 2 = j / 2)
    (hplace : (places mop 0 (parents l))[y]? = some place) (hle : place ≤ pcs) :
    Shares mop pcs 0 0 (parents l) := by
  have hlt := hx.order hsorted hy ha hb hless
  have hij := hx.lt hy hlt
  obtain ⟨s, hs, hsne, hfrom, hto, -⟩ := hx.span
  obtain ⟨t, ht, htne, hstart, -, -⟩ := hy.span
  have hnotlast : lastSpan mop pcs 0 0 none (parents l) ≠ some x := by
    intro hlast
    rcases lastSpan_spec mop pcs 0 0 none (parents l) with
      ⟨hnone, -⟩ | ⟨k, u, hsome, -, -, -, hempty⟩
    · rw [hnone] at hlast
      cases hlast
    · rw [hlast, Nat.zero_add] at hsome
      cases hsome
      have hzero := hempty y t hlt ht
      omega
  have hlast := hto hnotlast
  obtain ⟨hx', hxs⟩ := List.getElem?_eq_some_iff.mp hs
  obtain ⟨hy', hyt⟩ := List.getElem?_eq_some_iff.mp ht
  have hnext := List.pairwise_iff_getElem.mp
    (spans_pairwise mop pcs (parents l) (Nat.zero_le (pcs.val + 1))) x y hx' hy' hlt
  rw [hxs, hyt] at hnext
  exact ⟨x, y, a, b, s, t, place, hlt, hx.parent ha, hy.parent hb, hless, hs, ht, hsne, htne,
    by omega, by omega, hplace, hle⟩

/-- **Path control is assigned** as it should be exactly where the look ahead is not misled. -/
theorem assigned_iff_looksAhead (hmop : mop ≠ .noDownward) (hl : Selected l) :
    Assigned mop pcs l (rpl_downward_convert_dodag_preferences_to_dao_path_control mop pcs l) ↔
      LooksAhead mop pcs l := by
  have hclear := hl.cleared
  have hsorted := hl.byPreference
  have hparents : ∀ n ∈ parents l, n.dodagParent = true := fun n hn => List.mem_takeWhile_imp hn
  have hshares := @shares_iff_not_looks mop pcs _ hparents hsorted 0
  have hlook : LooksAhead mop pcs l ↔ ¬ Shares mop pcs 0 0 (parents l) := by
    rw [hshares, not_not]
    exact Iff.rfl
  obtain ⟨hlength, hall⟩ := @converted mop pcs l hmop hclear
  rw [hlook]
  generalize hout : rpl_downward_convert_dodag_preferences_to_dao_path_control mop pcs l = out
    at hlength hall
  have hhold : ∀ {x : Nat} {a : Neighbour}, out[x]? = some a → ∃ n, l[x]? = some n ∧
      a.dodagPref = n.dodagPref ∧ { a with daoPathControl := n.daoPathControl } = n ∧
      ∀ i < 8, (has a.daoPathControl i = true ↔ Holder mop pcs (parents l) x i) := by
    intro x a ha
    rw [← hout] at ha
    exact holder_of_has hmop hclear ha
  constructor
  · rintro hassigned ⟨x, y, n, m, s, t, p, hlt, hn, hm, hless, hs, ht, hsne, htne, hmeet, hodd,
      hp, hle⟩
    have hx : Holder mop pcs (parents l) x (s.2 - 1) :=
      ⟨s, hs, by omega, by
        have hend := (spans_bounds mop pcs (parents l) (Nat.zero_le (pcs.val + 1))).2
        have hto := hend.2 s (List.mem_of_getElem? hs)
        split <;> omega⟩
    have hy : Holder mop pcs (parents l) y t.1 :=
      ⟨t, ht, Nat.le_refl _, by
        have hend := (spans_bounds mop pcs (parents l) (Nat.zero_le (pcs.val + 1))).2
        have hto := hend.2 t (List.mem_of_getElem? ht)
        split <;> omega⟩
    have hfront : ∀ {x : Nat} {n : Neighbour}, (parents l)[x]? = some n → l[x]? = some n := by
      intro x n hn
      have hsplit : parents l ++ l.dropWhile (·.dodagParent) = l :=
        List.takeWhile_append_dropWhile
      rw [← hsplit, List.getElem?_append_left (List.getElem?_eq_some_iff.mp hn).1]
      exact hn
    have hget : ∀ {x : Nat} {n : Neighbour}, l[x]? = some n → ∃ a, out[x]? = some a := by
      intro x n hn
      have hx := (List.getElem?_eq_some_iff.mp hn).1
      exact ⟨_, List.getElem?_eq_getElem (hlength ▸ hx)⟩
    obtain ⟨a, ha⟩ := hget (hfront hn)
    obtain ⟨b, hb⟩ := hget (hfront hm)
    obtain ⟨n', hn', hapref, -, habits⟩ := hhold ha
    obtain ⟨m', hm', hbpref, -, hbbits⟩ := hhold hb
    rw [hfront hn] at hn'
    rw [hfront hm] at hm'
    cases hn'
    cases hm'
    have hpcs := pcs.isLt
    obtain ⟨-, -, -, -, -, htpcs⟩ := hy.span
    have hgt := hassigned.share x y a b ha hb (by omega) (s.2 - 1) (by omega) t.1 (by omega)
      ((habits _ (by omega)).mpr hx) ((hbbits _ (by omega)).mpr hy) (by omega) p hp
    omega
  · intro hnot
    refine ⟨?_, ?_, ?_, ?_, ?_⟩
    · refine List.ext_getElem? fun x => ?_
      rw [List.getElem?_map, List.getElem?_map]
      cases ha : out[x]? with
      | none =>
        have hnone : l[x]? = none := by
          rw [List.getElem?_eq_none_iff] at ha ⊢
          omega
        rw [hnone]
      | some a =>
        obtain ⟨n, hn, -, hsame, -⟩ := hhold ha
        rw [hn, ← hsame]
        rfl
    · refine List.pairwise_iff_getElem.mpr fun x y hx hy hlt => and_eq_zero_of_has ?_
      intro i hi hax
      obtain ⟨n, -, -, -, hbits⟩ := hhold (List.getElem?_eq_getElem hx)
      obtain ⟨m, -, -, -, hbits'⟩ := hhold (List.getElem?_eq_getElem hy)
      refine Bool.eq_false_iff.mpr fun hay => ?_
      exact Nat.lt_irrefl i (((hbits i hi).mp hax).lt ((hbits' i hi).mp hay) hlt)
    · intro helig
      refine eq_of_has fun i hi => Bool.eq_iff_iff.mpr ?_
      rw [has_foldl _ _ hi, has_PCSMASK pcs hi, has_zero, decide_eq_true_eq]
      constructor
      · rintro (h | ⟨a, ha, hbit⟩)
        · cases h
        · obtain ⟨x, hx⟩ := List.getElem?_of_mem ha
          obtain ⟨-, -, -, -, hbits⟩ := hhold hx
          obtain ⟨-, -, -, -, -, hle⟩ := ((hbits i hi).mp hbit).span
          exact hle
      · intro hle
        obtain ⟨x, hx⟩ := exists_holder helig hle
        obtain ⟨s, hs, -⟩ := hx.span
        have hxl : x < out.length := by
          have hlt := (List.getElem?_eq_some_iff.mp hs).1
          rw [length_spans] at hlt
          have hpre : (parents l).length ≤ l.length := (List.takeWhile_prefix _).length_le
          omega
        obtain ⟨-, -, -, -, hbits⟩ := hhold (List.getElem?_eq_getElem hxl)
        exact .inr ⟨_, List.getElem_mem hxl, (hbits i hi).mpr hx⟩
    · intro a ha b hb hless i hi j hj hai hbj
      obtain ⟨x, hx⟩ := List.getElem?_of_mem ha
      obtain ⟨y, hy⟩ := List.getElem?_of_mem hb
      obtain ⟨n, hn, hapref, -, hbits⟩ := hhold hx
      obtain ⟨m, hm, hbpref, -, hbits'⟩ := hhold hy
      have hxi := (hbits i hi).mp hai
      have hyj := (hbits' j hj).mp hbj
      have hlt := hxi.lt hyj (hxi.order hsorted hyj hn hm (by omega))
      omega
    · intro x y a b hx hy hless i hi j hj hai hbj hsub place hplace
      obtain ⟨n, hn, hapref, -, hbits⟩ := hhold hx
      obtain ⟨m, hm, hbpref, -, hbits'⟩ := hhold hy
      refine Nat.lt_of_not_le fun hle => hnot ?_
      exact shares_of_holders hsorted ((hbits i hi).mp hai) ((hbits' j hj).mp hbj) hn hm
        (by omega) hsub hplace hle

end RplDao
