import WisunModem.Collecting

/-!
# Fragments that nobody promised anything about

Offsets and sizes are taken from the frame, and a hole is described in the bytes it stands
for.  As long as each hole that is left has `Room` for its description, the list stays whole
whatever arrives; a fragment of another size than a multiple of eight may leave a hole that
has none, and the next data destroys the list.

* `Ordered.cover_refill` — the holes behind a fragment are those before it, without the
  fragment;
* `intact_copy` — with room for each of them, memory says the same;
* `run_intact` — so it does in every run all of whose fragments leave room.
-/

namespace Lowpan

/-! ## Holes as ranges -/

/-- Holes in order, inside a datagram of this size. -/
def Ordered (size : Nat) : List (Nat × Nat) → Prop
  | [] => True
  | (first, last) :: hs =>
      first ≤ last ∧ last < size ∧ (∀ h ∈ hs, last < h.1) ∧ Ordered size hs

/-- The offset lies in one of the ranges. -/
def Within (ranges : List (Nat × Nat)) (x : Nat) : Prop := ∃ h ∈ ranges, h.1 ≤ x ∧ x ≤ h.2

theorem not_within_nil (x : Nat) : ¬Within [] x := by
  rintro ⟨h, hmem, -⟩
  cases hmem

theorem within_cons {first last x : Nat} {hs : List (Nat × Nat)} :
    Within ((first, last) :: hs) x ↔ (first ≤ x ∧ x ≤ last) ∨ Within hs x := by
  simp [Within]

theorem within_append {hs hs' : List (Nat × Nat)} {x : Nat} :
    Within (hs ++ hs') x ↔ Within hs x ∨ Within hs' x := by
  simp only [Within, List.mem_append, or_and_right, exists_or]

theorem within_leftOver {first last f l x : Nat} :
    Within (leftOver first last f l) x ↔
      (f ≤ x ∧ x < first ∧ f < first) ∨ (last < x ∧ x ≤ l ∧ last < l) := by
  constructor
  · rintro ⟨h, hmem, hlow, hhigh⟩
    rcases mem_leftOver.mp hmem with ⟨hfront, rfl⟩ | ⟨hmore, rfl⟩
    · exact .inl ⟨hlow, by dsimp only at hhigh; omega, hfront⟩
    · exact .inr ⟨hlow, hhigh, hmore⟩
  · rintro (⟨hlow, hhigh, hfront⟩ | ⟨hlow, hhigh, hmore⟩)
    · exact ⟨_, mem_leftOver.mpr (.inl ⟨hfront, rfl⟩), hlow, by dsimp only; omega⟩
    · exact ⟨_, mem_leftOver.mpr (.inr ⟨hmore, rfl⟩), hlow, hhigh⟩

theorem Ordered.bounds {size : Nat} {hs : List (Nat × Nat)} (h : Ordered size hs) :
    ∀ hole ∈ hs, hole.1 ≤ hole.2 ∧ hole.2 < size := by
  induction hs with
  | nil => exact fun _ hmem => by cases hmem
  | cons hole hs ih =>
      intro other hmem
      rcases List.mem_cons.mp hmem with rfl | hmem
      · exact ⟨h.1, h.2.1⟩
      · exact ih h.2.2.2 other hmem

/-- What is left of a hole stands in its place. -/
theorem Ordered.leftOver {size first last f l : Nat} {hs : List (Nat × Nat)}
    (h : Ordered size ((f, l) :: hs)) (hin : f ≤ first ∧ first ≤ last + 1 ∧ last ≤ l) :
    Ordered size (leftOver first last f l ++ hs) := by
  obtain ⟨hfl, hl, hrest, hordered⟩ := h
  have hbehind : Ordered size ((if last < l then [(last + 1, l)] else []) ++ hs) := by
    split
    · rename_i hmore
      exact ⟨hmore, hl, hrest, hordered⟩
    · exact hordered
  unfold Lowpan.leftOver
  rw [List.append_assoc]
  split
  · refine ⟨by omega, by omega, ?_, hbehind⟩
    intro hole hmem
    have hmem : hole ∈ (if last < l then [(last + 1, l)] else []) ++ hs := hmem
    rcases List.mem_append.mp hmem with hmem | hmem
    · split at hmem
      · rw [List.mem_singleton.mp hmem]
        dsimp only
        omega
      · cases hmem
    · have := hrest hole hmem
      omega
  · exact hbehind

/-- A fragment that goes into a hole lies only partly in it. -/
def straddles (first last : Nat) : List (Nat × Nat) → Bool
  | [] => false
  | (f, l) :: hs =>
      if first > l ∨ last < f then straddles first last hs else decide (first < f ∨ last > l)

/-- The holes behind a fragment: where it straddles one, everything received before it is
forgotten. -/
def refill (size first last : Nat) (hs : List (Nat × Nat)) : List (Nat × Nat) :=
  if straddles first last hs then leftOver first last 0 (size - 1)
  else fillRanges first last hs

theorem Ordered.beside {size first last : Nat} {hs : List (Nat × Nat)} (h : Ordered size hs)
    (hinside : straddles first last hs = false) : ∀ hole ∈ hs, Beside first last hole := by
  induction hs with
  | nil => exact fun _ hmem => by cases hmem
  | cons hole hs ih =>
      obtain ⟨f, l⟩ := hole
      obtain ⟨-, -, hrest, hordered⟩ := h
      unfold straddles at hinside
      intro other hmem
      by_cases hskip : first > l ∨ last < f
      · rw [if_pos hskip] at hinside
        rcases List.mem_cons.mp hmem with rfl | hmem
        · exact hskip.elim .inl fun hlow => .inr (.inl hlow)
        · exact ih hordered hinside other hmem
      · rw [if_neg hskip, decide_eq_false_iff_not] at hinside
        rcases List.mem_cons.mp hmem with rfl | hmem
        · exact .inr (.inr ⟨by dsimp only; omega, by dsimp only; omega⟩)
        · have := hrest other hmem
          exact .inr (.inl (by omega))

/-- The holes a fragment goes into stay in order, and lose what it brings. -/
theorem Ordered.fillRanges {size first last : Nat} {hs : List (Nat × Nat)}
    (h : Ordered size hs) (hle : first ≤ last + 1)
    (hbeside : ∀ hole ∈ hs, Beside first last hole) :
    Ordered size (fillRanges first last hs) ∧
      ∀ x, Within (Lowpan.fillRanges first last hs) x ↔
        Within hs x ∧ ¬(first ≤ x ∧ x ≤ last) := by
  induction hs with
  | nil => exact ⟨trivial, fun x => by simp [Lowpan.fillRanges, not_within_nil]⟩
  | cons hole hs ih =>
      obtain ⟨f, l⟩ := hole
      obtain ⟨hfl, hl, hrest, hordered⟩ := h
      have hb := hbeside (f, l) List.mem_cons_self
      unfold Lowpan.fillRanges
      by_cases hskip : first > l ∨ last < f
      · rw [if_pos hskip]
        obtain ⟨hord, hcover⟩ :=
          ih hordered (fun hole hmem => hbeside hole (List.mem_cons_of_mem _ hmem))
        constructor
        · refine ⟨hfl, hl, ?_, hord⟩
          intro hole hmem
          -- the first offset of what is left was in a hole behind this one
          have hbounds := hord.bounds hole hmem
          obtain ⟨⟨other, hother, hlow, -⟩, -⟩ :=
            (hcover hole.1).mp ⟨hole, hmem, Nat.le_refl _, hbounds.1⟩
          exact Nat.lt_of_lt_of_le (hrest other hother) hlow
        · intro x
          rw [within_cons, within_cons, hcover]
          constructor
          · rintro (hin | ⟨hin, hout⟩)
            · exact ⟨.inl hin, by omega⟩
            · exact ⟨.inr hin, hout⟩
          · rintro ⟨hin | hin, hout⟩
            · exact .inl hin
            · exact .inr ⟨hin, hout⟩
      · rw [if_neg hskip]
        obtain ⟨hlow, hhigh⟩ := not_or.mp hskip
        have hin : f ≤ first ∧ last ≤ l := by
          rcases hb with h | h | h
          · exact absurd h hlow
          · exact absurd h hhigh
          · exact h
        refine ⟨Ordered.leftOver ⟨hfl, hl, hrest, hordered⟩ ⟨hin.1, hle, hin.2⟩, ?_⟩
        intro x
        rw [within_append, within_leftOver, within_cons]
        have hout (hx : Within hs x) : last < x := by
          obtain ⟨hole, hmem, hle, -⟩ := hx
          have := hrest hole hmem
          omega
        constructor
        · rintro ((hx | hx) | hx)
          · exact ⟨.inl (by omega), by omega⟩
          · exact ⟨.inl (by omega), by omega⟩
          · exact ⟨.inr hx, by have := hout hx; omega⟩
        · rintro ⟨hx | hx, hnot⟩
          · exact .inl (by omega)
          · exact .inr hx

/-- The whole datagram as one hole. -/
theorem ordered_whole {size : Nat} (h : 0 < size) : Ordered size [(0, size - 1)] :=
  ⟨Nat.zero_le _, by omega, (fun _ hmem => by cases hmem), trivial⟩

/-- **The holes behind a fragment** are in order, and lose what it brings; where it straddles
one, they are all but what it brings. -/
theorem Ordered.cover_refill {size first last : Nat} {hs : List (Nat × Nat)}
    (h : Ordered size hs) (hle : first ≤ last + 1) (hlast : last < size) :
    Ordered size (refill size first last hs) ∧
      ∀ x < size, Within (refill size first last hs) x ↔
        (Within hs x ∨ straddles first last hs) ∧ ¬(first ≤ x ∧ x ≤ last) := by
  unfold refill
  by_cases hstraddles : straddles first last hs = true
  · rw [if_pos hstraddles]
    have hwhole : Ordered size (Lowpan.leftOver first last 0 (size - 1) ++ []) :=
      (ordered_whole (by omega)).leftOver ⟨Nat.zero_le _, hle, by omega⟩
    rw [List.append_nil] at hwhole
    refine ⟨hwhole, fun x hx => ?_⟩
    rw [within_leftOver]
    constructor
    · intro hout
      exact ⟨.inr hstraddles, by omega⟩
    · rintro ⟨-, hout⟩
      omega
  · rw [if_neg hstraddles]
    have hinside := h.beside ((Bool.not_eq_true _).mp hstraddles)
    obtain ⟨hord, hcover⟩ := h.fillRanges hle hinside
    refine ⟨hord, fun x _ => ?_⟩
    rw [hcover]
    constructor
    · exact fun hx => ⟨.inl hx.1, hx.2⟩
    · rintro ⟨hx | hx, hout⟩
      · exact ⟨hx, hout⟩
      · exact absurd hx hstraddles

/-! ## Room for descriptions -/

/-- The description of a hole lies in it, or behind the end of the datagram. -/
def Room (a : Area) (size : Nat) (hole : Nat × Nat) : Prop :=
  a.holePointer hole.1 + 6 ≤ hole.2 + 1 ∨
    hole.2 + 1 = size ∧ a.holePointer hole.1 + 6 ≤ a.back

instance (a : Area) (size : Nat) (hole : Nat × Nat) : Decidable (Room a size hole) :=
  inferInstanceAs (Decidable (_ ∨ _))

theorem Room.congr {a a' : Area} {size : Nat} {hole : Nat × Nat} (h : Room a size hole)
    (hodd : a'.odd = a.odd) (hback : a'.back = a.back) : Room a' size hole := by
  unfold Room Area.holePointer at h ⊢
  rw [hodd, hback]
  exact h

/-- There is always room for the whole datagram. -/
theorem room_whole {a : Area} {size : Nat} (hpos : 0 < size) (hback : a.back = roundUp size) :
    Room a size (0, size - 1) := by
  have h := a.holePointer_bounds 0
  have hup := le_roundUp size
  have height : 8 ≤ roundUp size := by
    unfold roundUp
    omega
  exact .inr ⟨by dsimp only; omega, by dsimp only; omega⟩

theorem Ordered.apart {a : Area} {size : Nat} {hs : List (Nat × Nat)} (h : Ordered size hs)
    (hroom : ∀ hole ∈ hs, Room a size hole) (hback : size ≤ a.back) : Apart a hs := by
  induction hs with
  | nil => trivial
  | cons hole hs ih =>
      obtain ⟨f, l⟩ := hole
      obtain ⟨hfl, hl, hrest, hordered⟩ := h
      have hhere := hroom (f, l) List.mem_cons_self
      have hslot : a.holePointer f + 6 ≤ a.back := by
        rcases hhere with hin | ⟨-, hin⟩
        · dsimp only at hin
          omega
        · exact hin
      refine ⟨hfl, by omega, hslot, ?_,
        ih hordered fun hole hmem => hroom hole (List.mem_cons_of_mem _ hmem)⟩
      intro hole hmem
      have hnext := hrest hole hmem
      have hbounds := hordered.bounds hole hmem
      refine ⟨hnext, ?_⟩
      rcases hhere with hin | ⟨hend, -⟩
      · dsimp only at hin
        omega
      · dsimp only at hend
        omega

theorem Ordered.length_le {size n : Nat} {hs : List (Nat × Nat)} (h : Ordered size hs)
    (hlow : ∀ hole ∈ hs, n ≤ hole.1) : hs.length ≤ size - n := by
  induction hs generalizing n with
  | nil => exact Nat.zero_le _
  | cons hole hs ih =>
      obtain ⟨f, l⟩ := hole
      obtain ⟨hfl, hl, hrest, hordered⟩ := h
      have hn : n ≤ f := hlow (f, l) List.mem_cons_self
      have := ih (n := n + 1) hordered fun hole hmem => by
        have := hrest hole hmem
        omega
      rw [List.length_cons]
      omega

/-- The holes from one on, as memory has them. -/
def readHoles (e : Entry) : Nat → Nat → List (Nat × Nat)
  | 0, _ => []
  | fuel + 1, hole =>
      if hole = 0xffff then []
      else
        (e.area.read16 (e.area.holePointer hole), e.area.read16 (e.area.holePointer hole + 2)) ::
          readHoles e fuel (e.readPrev (.hole hole))

def Entry.holes (e : Entry) : List (Nat × Nat) := readHoles e (2 ^ 16) e.offset

theorem Linked.readHoles {e : Entry} {prev : Prev} {hs : List (Nat × Nat)} (fuel : Nat)
    (hfuel : hs.length ≤ fuel) (hlinked : Linked e prev hs) (hap : Apart e.area hs)
    (hback : e.area.back < 2 ^ 16) : readHoles e fuel (e.readPrev prev) = hs := by
  induction hs generalizing prev fuel with
  | nil =>
      cases fuel with
      | zero => rfl
      | succ fuel =>
          have hend : e.readPrev prev = 0xffff := hlinked
          unfold Lowpan.readHoles
          rw [if_pos hend]
  | cons hole hs ih =>
      obtain ⟨f, l⟩ := hole
      obtain ⟨fuel, rfl⟩ : ∃ m, fuel = m + 1 := ⟨fuel - 1, by simp at hfuel; omega⟩
      have hne := hlinked.next_ne hap hback (List.cons_ne_nil _ _)
      obtain ⟨hoff, hread, hread', hrest⟩ := hlinked
      unfold Lowpan.readHoles
      rw [if_neg hne, hoff, hread, hread', ih fuel (by simpa using hfuel) hrest hap.2.2.2.2]

/-- Where a fragment straddles a hole, the loop finds it, and starts again with one hole. -/
theorem fillHole_straddles {e : Entry} {prev : Prev} {first last : Nat} {hs : List (Nat × Nat)}
    (fuel : Nat) (hfuel : hs.length ≤ fuel) (hlinked : Linked e prev hs)
    (hap : Apart e.area hs) (hback : e.area.back < 2 ^ 16)
    (hstraddles : straddles first last hs = true) :
    fillHole fuel e first last (e.readPrev prev) prev =
      some (splitHole (createHole { e with offset := 0xffff } 0 (e.size - 1) .entry) first last 0
        0 (e.size - 1) .entry) := by
  induction hs generalizing prev fuel with
  | nil => cases hstraddles
  | cons hole hs ih =>
      obtain ⟨f, l⟩ := hole
      obtain ⟨fuel, rfl⟩ : ∃ m, fuel = m + 1 := ⟨fuel - 1, by simp at hfuel; omega⟩
      obtain ⟨hoff, hread, hread', hrest⟩ := hlinked
      unfold straddles at hstraddles
      unfold fillHole
      dsimp only
      rw [hoff, hread, hread']
      by_cases hskip : first > l ∨ last < f
      · rw [if_pos hskip] at hstraddles ⊢
        have hmore : hs ≠ [] := by
          rintro rfl
          cases hstraddles
        rw [if_neg (hrest.next_ne hap.2.2.2.2 hback hmore)]
        exact ih fuel (by simpa using hfuel) hrest hap.2.2.2.2 hstraddles
      · rw [if_neg hskip] at hstraddles ⊢
        rw [if_pos (of_decide_eq_true hstraddles)]
        rfl

/-- One hole as large as the datagram. -/
theorem linked_whole {e : Entry} (hoffset : e.offset = 0xffff) (hpos : 0 < e.size)
    (hsize : e.size < 2 ^ 11) (hback : e.area.back = roundUp e.size) :
    Linked (createHole e 0 (e.size - 1) .entry) .entry [(0, e.size - 1)] ∧
      Alters (fun _ => True) e (createHole e 0 (e.size - 1) .entry) := by
  have hlinked : Linked e .entry [] := hoffset
  have hread : e.readPrev .entry = 0xffff := hoffset
  have hfirst : (Prev.hole 0).Inside e.area := by
    rcases room_whole hpos hback with hin | ⟨-, hin⟩
    · have := le_roundUp e.size
      change _ ≤ _
      dsimp only at hin
      omega
    · exact hin
  have hentry : Prev.Inside e.area .entry := trivial
  have hnums : 0 < 2 ^ 16 ∧ e.size - 1 < 2 ^ 16 ∧ e.readPrev .entry < 2 ^ 16 := by
    rw [hread]
    omega
  have hapart : ∀ x, Prev.entry.cell e.area x → ¬slot e.area 0 x := by
    intro x hx
    cases hx
    exact id
  obtain ⟨halters, -⟩ := createHole_spec e hfirst hentry hnums hapart
  refine ⟨linked_createHole hlinked hfirst hentry hnums hapart (fun _ hmem => by cases hmem), ?_⟩
  exact halters.mono fun _ _ => trivial

/-- **The list behind a fragment**, if there is room for it. -/
theorem linked_refill {e : Entry} {first last : Nat} {hs : List (Nat × Nat)}
    (hlinked : Linked e .entry hs) (hordered : Ordered e.size hs) (hsome : hs ≠ [])
    (hsize : e.size < 2 ^ 11) (hback : e.area.back = roundUp e.size)
    (hroom : ∀ hole ∈ hs, Room e.area e.size hole)
    (hroom' : ∀ hole ∈ refill e.size first last hs, Room e.area e.size hole)
    (hle : first ≤ last + 1) (hlast : last < e.size) :
    ∃ e', fillHole (2 ^ 16) e first last e.offset .entry = some e' ∧
      Linked e' .entry (refill e.size first last hs) ∧ Alters (fun _ => True) e e' := by
  have hup := le_roundUp e.size
  have hbound : roundUp e.size < 2 ^ 12 := by
    unfold roundUp
    omega
  have hap := hordered.apart hroom (by omega)
  have hap' := (hordered.cover_refill hle hlast).1.apart hroom' (by omega)
  have hlength := hordered.length_le (n := 0) fun _ _ => Nat.zero_le _
  have hread : e.readPrev .entry = e.offset := rfl
  unfold refill at hap' ⊢
  by_cases hstraddles : straddles first last hs = true
  · rw [if_pos hstraddles] at hap' ⊢
    have hfill := fillHole_straddles (2 ^ 16) (by omega) hlinked hap (by omega) hstraddles
    rw [hread] at hfill
    obtain ⟨hwhole, halters⟩ := linked_whole (e := { e with offset := 0xffff }) rfl
      (by dsimp only; omega) hsize hback
    dsimp only at hwhole halters
    generalize createHole { e with offset := 0xffff } 0 (e.size - 1) .entry = e₁ at *
    have hback₁ : e₁.area.back = e.area.back := halters.back
    have hodd₁ : e₁.area.odd = e.area.odd := halters.odd
    have hapart₁ : Apart e₁.area [(0, e.size - 1)] := by
      apply (ordered_whole (by omega)).apart _ (by rw [hback₁]; omega)
      intro hole hmem
      rw [List.mem_singleton.mp hmem]
      exact room_whole (by omega) (hback₁.trans hback)
    obtain ⟨hsplit, halters₂⟩ := linked_splitHole hwhole hapart₁
      (by rw [List.append_nil]; exact hap'.congr hodd₁ hback₁) trivial (by omega) trivial
      ⟨Nat.zero_le first, hle, by omega⟩
    rw [List.append_nil] at hsplit
    refine ⟨_, hfill, hsplit, ?_⟩
    have hrest : Alters (fun _ => True) e { e with offset := 0xffff } := by
      constructor
      · exact fun hn => absurd trivial hn
      all_goals first | exact fun _ _ => rfl | rfl | exact id
    exact ((hrest.trans halters).trans halters₂).mono fun _ _ => trivial
  · rw [if_neg hstraddles] at hap' ⊢
    obtain ⟨e', hfill, hlinked', halters⟩ := linked_fillHole (2 ^ 16) (by omega) hsome hlinked hap
      hap' trivial (by omega) (fun _ _ => trivial)
      (hordered.beside ((Bool.not_eq_true _).mp hstraddles)) hle
    exact ⟨e', hfill, hlinked', halters.mono fun _ _ => trivial⟩

/-! ## What a fragment covers -/

/-- What `iphc_header_scan` counts, before it is cut to 16 bits. -/
def headerSizes (bytes : List UInt8) : Nat × Nat :=
  if bytes.head? = some 0x41 then (1, 0) else scanFrom bytes (bytes.length + 2) (.iphc ⟨0, 0⟩)

theorem iphcHeaderScan_eq (bytes : List UInt8) :
    iphcHeaderScan bytes = ((headerSizes bytes).1, (headerSizes bytes).2 % 2 ^ 16) := by
  unfold iphcHeaderScan headerSizes
  split
  · rfl
  · rfl

theorem headerSizes_growth (bytes : List UInt8) :
    19 * (headerSizes bytes).1 ≤ 20 * (headerSizes bytes).2 + 19 := by
  unfold headerSizes
  split
  · exact Nat.le_refl _
  · exact (scanFrom_balanced bytes _ (.iphc ⟨0, 0⟩) ⟨by decide, by decide⟩).1

/-- The offset behind a fragment, before it is cut to 16 bits. -/
def Frame.span (frame : Frame) : Nat :=
  if frame.first = 0 then
    let sizes := headerSizes frame.data
    frame.data.length - sizes.1 % 2 ^ 8 + sizes.2
  else frame.first + frame.data.length

theorem lastOffset_span {frame : Frame} (hspan : frame.span ≤ 2 ^ 16)
    (hlast : lastOffset frame < 2 ^ 11) : lastOffset frame + 1 = frame.span := by
  have hle := iphcHeaderScan_le frame.data
  unfold lastOffset ipv6Size Frame.span at *
  rw [iphcHeaderScan_eq] at hle hlast ⊢
  dsimp only at hle hlast hspan ⊢
  have hmod := Nat.mod_le (headerSizes frame.data).1 (2 ^ 8)
  by_cases hzero : frame.first = 0
  · simp only [hzero, if_true] at hspan hlast ⊢
    omega
  · simp only [hzero, if_false] at hspan hlast ⊢
    omega

/-- Its data goes to where it counts, but for headers that are longer than they were. -/
theorem copy_place {frame : Frame} (hspan : frame.span ≤ 2 ^ 16)
    (hlast : lastOffset frame < 2 ^ 11) :
    frame.first ≤ lastOffset frame + 1 ∧
      ((lastOffset frame : Int) + 1 - frame.data.length = frame.first ∨
        frame.first = 0 ∧ -41 ≤ (lastOffset frame : Int) + 1 - frame.data.length) := by
  have heq := lastOffset_span hspan hlast
  unfold Frame.span at heq
  by_cases hzero : frame.first = 0
  · refine ⟨by omega, .inr ⟨hzero, ?_⟩⟩
    rw [if_pos hzero] at heq
    dsimp only at heq
    have hgrowth := headerSizes_growth frame.data
    have hle : (headerSizes frame.data).1 ≤ frame.data.length := by
      have := iphcHeaderScan_le frame.data
      rw [iphcHeaderScan_eq] at this
      exact this
    have hmod := Nat.mod_le (headerSizes frame.data).1 (2 ^ 8)
    omega
  · rw [if_neg hzero] at heq
    exact ⟨by omega, .inl (by omega)⟩

/-! ## One entry -/

/-- The list of an entry says what is missing, and nothing that came lies on it. -/
structure Intact (got : List (Nat × Nat)) (e : Entry) (hs : List (Nat × Nat)) : Prop where
  linked : Linked e .entry hs
  ordered : Ordered e.size hs
  covers : ∀ x < e.size, Within hs x ↔ ¬Within got x
  clear : ∀ hole ∈ hs, ∀ x : Nat, Within got x → ¬slot e.area hole.1 (some x)

/-- What keeps it so. -/
structure Kept (got : List (Nat × Nat)) (e : Entry) (hs : List (Nat × Nat)) : Prop where
  linked : Linked e .entry hs
  ordered : Ordered e.size hs
  covers : ∀ x < e.size, Within hs x ↔ ¬Within got x
  room : ∀ hole ∈ hs, Room e.area e.size hole
  inside : ∀ g ∈ got, g.2 < e.size
  size : 0 < e.size ∧ e.size < 2 ^ 11
  front : 41 ≤ e.area.front
  back : e.area.back = roundUp e.size
  safe : e.area.safe = true

/-- A hole with room is described in itself, or behind the datagram. -/
theorem Room.slot_place {a : Area} {size : Nat} {hole : Nat × Nat} (h : Room a size hole)
    {x : Int} (hx : slot a hole.1 (some x)) :
    (hole.1 ≤ x ∧ x ≤ hole.2) ∨ (size : Int) ≤ x ∨ (hole.1 ≤ x ∧ hole.2 + 1 = size) := by
  have hpos := a.holePointer_bounds hole.1
  have hlow := hx.1
  have hhigh := hx.2
  rcases h with hin | ⟨hend, -⟩ <;> omega

theorem Kept.clear {got : List (Nat × Nat)} {e : Entry} {hs : List (Nat × Nat)}
    (h : Kept got e hs) : ∀ hole ∈ hs, ∀ x : Nat, Within got x →
      ¬slot e.area hole.1 (some x) := by
  intro hole hmem x hgot hslot
  have hin : x < e.size := by
    obtain ⟨g, hg, -, hhigh⟩ := hgot
    have := h.inside g hg
    omega
  apply (h.covers x hin).mp _ hgot
  rcases (h.room hole hmem).slot_place hslot with hx | hx | hx
  · exact ⟨hole, hmem, by omega, by omega⟩
  · omega
  · exact ⟨hole, hmem, by omega, by omega⟩

theorem Kept.intact {got : List (Nat × Nat)} {e : Entry} {hs : List (Nat × Nat)}
    (h : Kept got e hs) : Intact got e hs :=
  ⟨h.linked, h.ordered, h.covers, h.clear⟩

/-- The list memory has is the one there is. -/
theorem Kept.holes {got : List (Nat × Nat)} {e : Entry} {hs : List (Nat × Nat)}
    (h : Kept got e hs) : e.holes = hs := by
  have hsize := h.size
  have hup := le_roundUp e.size
  have hbound : roundUp e.size < 2 ^ 12 := by
    unfold roundUp
    omega
  have hback := h.back
  have hlength := h.ordered.length_le (n := 0) fun _ _ => Nat.zero_le _
  exact h.linked.readHoles (2 ^ 16) (by omega) (h.ordered.apart h.room (by omega)) (by omega)

/-- What has come since the entry was made, or last forgot everything. -/
def hear (first last : Nat) (hs got : List (Nat × Nat)) : List (Nat × Nat) :=
  if straddles first last hs then [(first, last)] else (first, last) :: got

theorem within_hear {first last : Nat} {hs got : List (Nat × Nat)} {x : Nat} :
    Within (hear first last hs got) x ↔
      (first ≤ x ∧ x ≤ last) ∨ Within got x ∧ ¬straddles first last hs := by
  unfold hear
  split
  · rename_i hstraddles
    rw [within_cons]
    simp [hstraddles, not_within_nil]
  · rename_i hinside
    rw [within_cons]
    simp [hinside]

/-- There is room for what a fragment leaves, and its offsets have 16 bits. -/
def Leaves (frame : Frame) (e : Entry) : Prop :=
  frame.span ≤ 2 ^ 16 ∧
    ∀ hole ∈ refill e.size frame.first (lastOffset frame) e.holes, Room e.area e.size hole

instance (frame : Frame) (e : Entry) : Decidable (Leaves frame e) :=
  inferInstanceAs (Decidable (_ ∧ _))

/-- None of it depends on the rest of the entry. -/
theorem Kept.congr {got : List (Nat × Nat)} {e e' : Entry} {hs : List (Nat × Nat)}
    (h : Kept got e hs) (harea : e'.area = e.area) (hoffset : e'.offset = e.offset)
    (hsize : e'.size = e.size) : Kept got e' hs := by
  obtain ⟨hlinked, hordered, hcovers, hroom, hinside, hsizes, hfront, hback, hsafe⟩ := h
  constructor
  · exact linked_congr hlinked harea hoffset
  all_goals first | rw [hsize, harea] | rw [hsize] | rw [harea]
  all_goals assumption

/-- **A fragment goes into its entry**: the loop ends, the copy stays inside the buffer, and
the list says what is missing now. -/
theorem kept_copy {got : List (Nat × Nat)} {e : Entry} {hs : List (Nat × Nat)}
    (h : Kept got e hs) (hsome : hs ≠ []) {frame : Frame} (hlast : lastOffset frame < e.size)
    (hspan : frame.span ≤ 2 ^ 16)
    (hroom' : ∀ hole ∈ refill e.size frame.first (lastOffset frame) hs,
      Room e.area e.size hole) :
    ∃ e', fillHole (2 ^ 16) e frame.first (lastOffset frame) e.offset .entry = some e' ∧
      e'.size = e.size ∧ (copyData e' frame).key = e.key ∧
      Kept (hear frame.first (lastOffset frame) hs got) (copyData e' frame)
        (refill e.size frame.first (lastOffset frame) hs) := by
  have hsize := h.size
  have hup := le_roundUp e.size
  obtain ⟨hle, hplace⟩ := copy_place hspan (by omega)
  obtain ⟨hord, hcover⟩ := h.ordered.cover_refill hle hlast
  obtain ⟨e', hfill, hlinked', halters⟩ := linked_refill h.linked h.ordered hsome hsize.2 h.back
    h.room hroom' hle hlast
  have hrest := halters.rest
  have hfront := h.front
  have hback := h.back
  have hsize' : e'.size = e.size := by rw [hrest]
  -- The data is written beside the holes that are left.
  let e'' : Entry :=
    { e' with
      area := e'.area.write ((lastOffset frame : Int) + 1 - frame.data.length) frame.data }
  have hcopy : Alters
      (fun x => ∃ i, x = some i ∧ (lastOffset frame : Int) + 1 - frame.data.length ≤ i ∧
        i ≤ lastOffset frame) e' e'' := by
    constructor
    · exact fun _ => rfl
    · intro i hout
      apply Area.bytes_write_out
      by_contra hin
      exact hout ⟨i, rfl, by omega, by omega⟩
    all_goals first | rfl | skip
    intro hsafe
    simp only [e'', Area.write, hsafe, Bool.true_and, decide_eq_true_eq, halters.front,
      halters.back]
    omega
  have hodd : e''.area.odd = e.area.odd := hcopy.odd.trans halters.odd
  have hback'' : e''.area.back = e.area.back := hcopy.back.trans halters.back
  have hbeside : ∀ hole ∈ refill e.size frame.first (lastOffset frame) hs, ∀ x,
      slot e'.area hole.1 x → ¬∃ i, x = some i ∧
        (lastOffset frame : Int) + 1 - frame.data.length ≤ i ∧ i ≤ lastOffset frame := by
    rintro hole hmem x hx ⟨i, rfl, hlow, hhigh⟩
    rw [slot_congr halters.odd] at hx
    have hin : hole.1 ≤ i ∧ i.toNat ≤ hole.2 := by
      have hbounds := hord.bounds hole hmem
      rcases (hroom' hole hmem).slot_place hx with hin | hin | hin
      · exact ⟨hin.1, by omega⟩
      · omega
      · exact ⟨hin.1, by omega⟩
    -- the byte would be missing and just come
    have hmissing := (hcover i.toNat (by omega)).mp ⟨hole, hmem, by omega, hin.2⟩
    apply hmissing.2
    constructor
    · omega
    · omega
  have hlinked'' := hlinked'.alters hcopy
    (fun x hx => by cases hx; rintro ⟨i, hi, -⟩; cases hi) hbeside
  have hkept : Kept (hear frame.first (lastOffset frame) hs got) e''
      (refill e.size frame.first (lastOffset frame) hs) := by
    have hsize'' : e''.size = e.size := hsize'
    constructor
    · exact hlinked''
    · rw [hsize'']
      exact hord
    · intro x hx
      rw [hsize''] at hx
      rw [hcover x hx, within_hear, h.covers x hx]
      tauto
    · intro hole hmem
      rw [hsize'']
      exact (hroom' hole hmem).congr hodd hback''
    · intro g hmem
      rw [hsize'']
      unfold hear at hmem
      split at hmem
      · rw [List.mem_singleton.mp hmem]
        exact hlast
      · rcases List.mem_cons.mp hmem with rfl | hmem
        · exact hlast
        · exact h.inside g hmem
    · rw [hsize'']
      exact hsize
    · rw [hcopy.front.trans halters.front]
      exact hfront
    · rw [hback'', hsize'']
      exact hback
    · exact hcopy.safe (halters.safe h.safe)
  refine ⟨e', hfill, hsize', ?_, hkept.congr rfl rfl rfl⟩
  change e'.key = e.key
  rw [hrest]
  rfl

/-- A new entry misses everything. -/
theorem kept_new (alloc : Alloc) (timeout : Nat) {frame : Frame} (hsize : frame.size ≠ 0) :
    Kept [] (newEntry alloc timeout frame) [(0, frame.size - 1)] ∧
      (newEntry alloc timeout frame).key = frame.key := by
  have hlt : frame.size < 2 ^ 11 := Nat.mod_lt _ (by decide)
  unfold newEntry
  generalize he : Entry.mk _ _ _ _ _ _ _ _ _ = e
  have hsize' : e.size = frame.size := by rw [← he]
  have hoffset : e.offset = 0xffff := by rw [← he]
  have hback : e.area.back = roundUp e.size := by rw [← he]
  have hfront : 41 ≤ e.area.front := by
    rw [← he]
    dsimp only
    unfold Buffer.roundedSize
    omega
  have hsafe : e.area.safe = true := by rw [← he]
  have hkey : e.key = frame.key := by
    rw [← he]
    rfl
  clear he
  obtain ⟨hlinked, halters⟩ := linked_whole hoffset (by omega) (by omega) hback
  rw [hsize'] at hlinked halters hback
  have hrest := halters.rest
  generalize createHole e 0 (frame.size - 1) .entry = e' at *
  have hsize'' : e'.size = frame.size := by rw [hrest, hsize']
  refine ⟨?_, ?_⟩
  · constructor
    · exact hlinked
    · rw [hsize'']
      exact ordered_whole (by omega)
    · intro x hx
      rw [within_cons]
      simp only [not_within_nil, or_false, not_false_eq_true, iff_true]
      omega
    · intro hole hmem
      rw [List.mem_singleton.mp hmem, hsize'']
      exact room_whole (by omega) (halters.back.trans hback)
    · exact fun _ hmem => by cases hmem
    · omega
    · rw [halters.front]
      exact hfront
    · rw [halters.back, hsize'']
      exact hback
    · exact halters.safe hsafe
  · rw [hrest]
    exact hkey

/-- A fragment is kept, or completes the datagram, or is out of range. -/
theorem kept_addFragment {got : List (Nat × Nat)} {e : Entry} {hs : List (Nat × Nat)}
    (h : Kept got e hs) (hsome : hs ≠ []) {frame : Frame} (hkey : e.key = frame.key)
    (hleaves : lastOffset frame < e.size → Leaves frame e) (r : Reassembler) :
    (∃ up, addFragment r e frame = some (r.drop frame.key, up)) ∨
      ∃ e' hs', addFragment r e frame = some ({ r with rx := setFirst frame.key e' r.rx }, none) ∧
        e'.key = frame.key ∧ hs' ≠ [] ∧
        Kept (hear frame.first (lastOffset frame) hs got) e' hs' := by
  have hfirst : Kept got (noteFirst e frame) hs := by
    unfold noteFirst
    split
    · exact h.congr rfl rfl rfl
    · exact h
  have hkey' : (noteFirst e frame).key = frame.key := by
    unfold noteFirst
    split
    · simp only [Entry.key, Frame.key, Key.mk.injEq] at hkey ⊢
      exact ⟨hkey.1, hkey.2.1, trivial, trivial⟩
    · exact hkey
  have hsize : (noteFirst e frame).size = e.size := by
    unfold noteFirst
    split
    · rfl
    · rfl
  have harea : (noteFirst e frame).area = e.area := by
    unfold noteFirst
    split
    · rfl
    · rfl
  unfold addFragment
  dsimp only
  by_cases hout : lastOffset frame ≥ (noteFirst e frame).size
  · rw [if_pos hout, hkey']
    exact .inl ⟨none, rfl⟩
  · rw [if_neg hout]
    rw [hsize] at hout
    obtain ⟨hspan, hroom⟩ := hleaves (by omega)
    rw [h.holes] at hroom
    obtain ⟨e', hfill, -, hkey'', hkept⟩ := kept_copy hfirst hsome (by omega) hspan
      (by rw [hsize, harea]; exact hroom)
    rw [hfill]
    simp only [Option.bind_some, hkept.safe, Bool.not_true, Bool.false_eq_true, if_false]
    rw [hkey''.trans hkey']
    rw [hsize] at hkept
    by_cases hend : (copyData e' frame).offset = 0xffff
    · rw [if_neg (not_not.mpr hend)]
      exact .inl ⟨_, rfl⟩
    · rw [if_pos hend]
      refine .inr ⟨_, _, rfl, hkey''.trans hkey', ?_, hkept⟩
      intro hnil
      have hlinked := hkept.linked
      rw [hnil] at hlinked
      exact hend hlinked

/-! ## All entries, in every run -/

/-- The interface, and what has come for each entry since it was made or last forgot
everything. -/
structure Watched where
  r : Reassembler
  got : Key → List (Nat × Nat)

/-- The entry a frame belongs to, if there is one or one can be made. -/
def target (alloc : Alloc) (r : Reassembler) (frame : Frame) : Option Entry :=
  match entryOf r.rx frame.key with
  | some e => some e
  | none =>
      if r.free = 0 ∨ alloc.memory = false then none
      else some (newEntry alloc r.timeout frame)

def heard (w : Watched) (key : Key) : Event → List (Nat × Nat)
  | .fragment alloc frame =>
      if key = frame.key then
        hear frame.first (lastOffset frame) ((target alloc w.r frame).elim [] Entry.holes)
          (w.got key)
      else w.got key
  | .seconds _ => w.got key

/-- Nothing has come for an entry there is not. -/
def watch (w : Watched) (ev : Event) : Option Watched :=
  (step w.r ev).map fun s =>
    ⟨s.1, fun key => if (entryOf s.1.rx key).isSome then heard w key ev else []⟩

/-- A frame has its header, and its fragment leaves room if it is in range. -/
def Harmless (w : Watched) : Event → Prop
  | .fragment alloc frame =>
      frame.Whole ∧ (frame.size ≠ 0 ∧ lastOffset frame < frame.size →
        ∀ e, target alloc w.r frame = some e → Leaves frame e)
  | .seconds _ => True

instance (w : Watched) : (ev : Event) → Decidable (Harmless w ev)
  | .fragment _ _ => inferInstanceAs (Decidable (_ ∧ (_ → _)))
  | .seconds _ => isTrue trivial

/-- The invariant of the interface. -/
structure Upheld (w : Watched) : Prop where
  nodup : (w.r.rx.map Entry.key).Nodup
  live : ∀ key e, entryOf w.r.rx key = some e → ∃ hs, hs ≠ [] ∧ Kept (w.got key) e hs
  absent : ∀ key, entryOf w.r.rx key = none → w.got key = []

theorem upheld_addFragment {r : Reassembler} {got : Key → List (Nat × Nat)}
    (h : Upheld ⟨r, got⟩) {frame : Frame} {e : Entry} (he : entryOf r.rx frame.key = some e)
    (hleaves : lastOffset frame < e.size → Leaves frame e) :
    ∃ r' up, addFragment r e frame = some (r', up) ∧
      Upheld ⟨r', fun key => if (entryOf r'.rx key).isSome then
        if key = frame.key then hear frame.first (lastOffset frame) e.holes (got key)
        else got key
      else []⟩ := by
  obtain ⟨hs, hsome, hkept⟩ := h.live frame.key e he
  have hlive := h.live
  dsimp only at hkept hlive
  rcases kept_addFragment hkept hsome (entryOf_key he) hleaves r with
    ⟨up, hadd⟩ | ⟨e', hs', hadd, hkey, hsome', hkept'⟩
  · refine ⟨_, _, hadd, nodup_drop h.nodup _, ?_, ?_⟩
    · intro key other hother
      have hother' : entryOf (r.rx.eraseP fun e => e.key = frame.key) key = some other := hother
      dsimp only at hother ⊢
      rw [hother, Option.isSome_some, if_pos rfl]
      rw [entryOf_drop h.nodup] at hother'
      split at hother'
      · cases hother'
      · rename_i hne
        rw [if_neg hne]
        exact hlive key other hother'
    · intro key hnone
      dsimp only at hnone ⊢
      rw [hnone]
      rfl
  · have hset (key : Key) := entryOf_setFirst hkey (by rw [he]; simp) key
    refine ⟨_, _, hadd, ?_, ?_, ?_⟩
    · dsimp only
      rw [keys_setFirst hkey]
      exact h.nodup
    · intro key other hother
      dsimp only at hother ⊢
      rw [hother, Option.isSome_some, if_pos rfl]
      rw [hset] at hother
      split at hother
      · rename_i heq
        cases hother
        rw [if_pos heq, heq, hkept.holes]
        exact ⟨hs', hsome', hkept'⟩
      · rename_i hne
        rw [if_neg hne]
        exact hlive key other hother
    · intro key hnone
      dsimp only at hnone ⊢
      rw [hnone]
      rfl

theorem entryOf_of_mem {es : List Entry} (hnodup : (es.map Entry.key).Nodup) {e : Entry}
    (hmem : e ∈ es) : entryOf es e.key = some e := by
  induction es with
  | nil => cases hmem
  | cons e' es ih =>
      rw [List.map_cons, List.nodup_cons] at hnodup
      rcases List.mem_cons.mp hmem with rfl | hmem
      · simp [entryOf]
      · have hne : ¬e'.key = e.key := fun heq =>
          hnodup.1 (heq ▸ List.mem_map_of_mem hmem)
        simpa [entryOf, hne] using ih hnodup.2 hmem

theorem Upheld.same {r : Reassembler} {got : Key → List (Nat × Nat)} (h : Upheld ⟨r, got⟩)
    {got' : Key → List (Nat × Nat)}
    (hsame : ∀ key e, entryOf r.rx key = some e → got' key = got key) :
    Upheld ⟨r, fun key => if (entryOf r.rx key).isSome then got' key else []⟩ := by
  refine ⟨h.nodup, ?_, ?_⟩
  · intro key e he
    dsimp only at he ⊢
    rw [he, Option.isSome_some, if_pos rfl, hsame key e he]
    exact h.live key e he
  · intro key hnone
    dsimp only at hnone ⊢
    rw [hnone]
    rfl

/-- A new entry is put before the others. -/
theorem Upheld.new {r : Reassembler} {got : Key → List (Nat × Nat)} (h : Upheld ⟨r, got⟩)
    {frame : Frame} (hnone : entryOf r.rx frame.key = none) (hsize : frame.size ≠ 0)
    (alloc : Alloc) :
    Upheld ⟨{ r with
      rx := newEntry alloc r.timeout frame :: r.rx
      free := r.free - 1 }, got⟩ := by
  have hlive := h.live
  have habsent := h.absent
  dsimp only at hlive habsent
  obtain ⟨hkept, hkey⟩ := kept_new alloc r.timeout hsize
  generalize newEntry alloc r.timeout frame = e at *
  have hentry (key : Key) : entryOf (e :: r.rx) key =
      if key = frame.key then some e else entryOf r.rx key := by
    by_cases heq : key = frame.key
    · simp [entryOf, hkey, heq]
    · have hne : ¬frame.key = key := fun h => heq h.symm
      simp [entryOf, hkey, heq, hne]
  refine ⟨?_, ?_, ?_⟩
  · dsimp only
    rw [List.map_cons, List.nodup_cons]
    refine ⟨?_, h.nodup⟩
    intro hmem
    obtain ⟨e', hmem, heq⟩ := List.mem_map.mp hmem
    have hfound := entryOf_of_mem h.nodup hmem
    dsimp only at hfound
    rw [heq, hkey, hnone] at hfound
    cases hfound
  · intro key other hother
    dsimp only at hother ⊢
    rw [hentry] at hother
    split at hother
    · rename_i heq
      cases hother
      rw [heq, habsent _ hnone]
      exact ⟨_, List.cons_ne_nil _ _, hkept⟩
    · exact hlive key other hother
  · intro key hother
    dsimp only at hother ⊢
    rw [hentry] at hother
    split at hother
    · cases hother
    · exact habsent key hother

/-- Entries that are too old are freed, the others only grow older. -/
theorem Upheld.seconds {r : Reassembler} {got : Key → List (Nat × Nat)} (h : Upheld ⟨r, got⟩)
    (n : Nat) :
    Upheld ⟨cipv6FragTimer r n,
      fun key => if (entryOf (cipv6FragTimer r n).rx key).isSome then got key else []⟩ := by
  have hkeys : (cipv6FragTimer r n).rx.map Entry.key =
      (r.rx.filter fun e => e.ttl > n).map Entry.key := by
    unfold cipv6FragTimer
    dsimp only
    rw [List.map_map]
    rfl
  refine ⟨?_, ?_, ?_⟩
  · dsimp only
    rw [hkeys]
    exact h.nodup.sublist (List.filter_sublist.map _)
  · intro key e he
    dsimp only at he ⊢
    rw [he, Option.isSome_some, if_pos rfl]
    obtain ⟨e', hmem, rfl⟩ := List.mem_map.mp (List.mem_of_find?_eq_some he)
    have hkey := entryOf_key he
    change e'.key = key at hkey
    have hfound := entryOf_of_mem h.nodup (List.mem_filter.mp hmem).1
    rw [hkey] at hfound
    obtain ⟨hs, hsome, hkept⟩ := h.live key e' hfound
    exact ⟨hs, hsome, hkept.congr rfl rfl rfl⟩
  · intro key hnone
    dsimp only at hnone ⊢
    rw [hnone]
    rfl

/-- **What a harmless event does**: it answers, and the lists stay whole. -/
theorem upheld_watch {w : Watched} (h : Upheld w) (ev : Event) (hharmless : Harmless w ev) :
    ∃ w', watch w ev = some w' ∧ Upheld w' := by
  obtain ⟨r, got⟩ := w
  cases ev with
  | seconds n => exact ⟨_, rfl, h.seconds n⟩
  | fragment alloc frame =>
      obtain ⟨hwhole, hleaves⟩ := hharmless
      dsimp only at hleaves
      unfold watch step cipv6FragReassembly
      simp only [heard]
      rw [if_neg (not_not.mpr hwhole)]
      by_cases hsize : frame.size = 0
      · rw [if_pos hsize]
        refine ⟨_, rfl, h.same ?_⟩
        intro key e he
        apply if_neg
        rintro rfl
        -- no entry is as small as that
        obtain ⟨hs, -, hkept⟩ := h.live _ e he
        have hkey := entryOf_key he
        simp only [Entry.key, Frame.key, Key.mk.injEq] at hkey
        have := hkept.size
        omega
      · rw [if_neg hsize]
        have hfind : r.rx.find? (fun e => e.key = frame.key) = entryOf r.rx frame.key := rfl
        have hadded {r' : Reassembler} (h' : Upheld ⟨r', got⟩) {e : Entry}
            (he : entryOf r'.rx frame.key = some e) (htarget : target alloc r frame = some e) :
            ∃ w', (addFragment r' e frame).map (fun s => (⟨s.1, fun key =>
                if (entryOf s.1.rx key).isSome then
                  if key = frame.key then
                    hear frame.first (lastOffset frame)
                      ((target alloc r frame).elim [] Entry.holes) (got key)
                  else got key
                else []⟩ : Watched)) = some w' ∧ Upheld w' := by
          have hkey := entryOf_key he
          simp only [Entry.key, Frame.key, Key.mk.injEq] at hkey
          obtain ⟨r'', up, hadd, hupheld⟩ := upheld_addFragment h' he fun hlast =>
            hleaves ⟨hsize, by omega⟩ e htarget
          rw [hadd, htarget]
          exact ⟨_, rfl, hupheld⟩
        cases he : entryOf r.rx frame.key with
        | some e =>
            rw [hfind, he]
            exact hadded h he (by rw [target, he])
        | none =>
            rw [hfind, he]
            dsimp only
            by_cases hrefused : r.free = 0 ∨ alloc.memory = false
            · rw [if_pos hrefused]
              refine ⟨_, rfl, h.same ?_⟩
              intro key e hlive
              apply if_neg
              rintro rfl
              rw [he] at hlive
              cases hlive
            · rw [if_neg hrefused]
              obtain ⟨hkept, hkey⟩ := kept_new alloc r.timeout hsize
              rw [hkept.safe]
              apply hadded (h.new he hsize alloc)
              · simp [entryOf, hkey]
              · rw [target, he]
                exact if_neg hrefused

/-- **Lists survive harmless fragments.**  Whatever arrives, as long as each fragment leaves
room for the holes behind it: every call returns, no copy leaves the buffer, and the list
of every live entry is in order, says what is missing, and is not written over. -/
theorem run_intact (timeout free : Nat) (evs : List Event)
    (hharmless : Runs.Meets watch Harmless ⟨⟨timeout, [], free⟩, fun _ => []⟩ evs) :
    ∃ w, Runs.run watch ⟨⟨timeout, [], free⟩, fun _ => []⟩ evs = some w ∧
      ∀ key e, entryOf w.r.rx key = some e → ∃ hs, Intact (w.got key) e hs := by
  obtain ⟨w, hrun, hupheld⟩ := Runs.run_answers Upheld
    (fun _ ev h => upheld_watch h ev) (s := ⟨⟨timeout, [], free⟩, fun _ => []⟩)
    ⟨List.nodup_nil, fun _ _ he => (by cases he), fun _ _ => rfl⟩ hharmless
  refine ⟨w, hrun, fun key e he => ?_⟩
  obtain ⟨hs, -, hkept⟩ := hupheld.live key e he
  exact ⟨hs, hkept.intact⟩

/-- A fragment of a datagram of 64 bytes from the neighbour 1. -/
def neighbourFragment (offset : Nat) (data : List UInt8) : Event :=
  .fragment ⟨true, false, fun _ => 0⟩
    ⟨⟨2, [0xCA, 0xFE], [1]⟩, ⟨2, [0xCA, 0xFE], [2]⟩, false,
      [0xE0, 64, 0, 7, UInt8.ofNat (offset / 8)] ++ data⟩

/-- Fragments that overlap, are empty or out of range, and of odd sizes, but leave room. -/
theorem overlapping_intact :
    ∃ w, Runs.run watch ⟨⟨5, [], 8⟩, fun _ => []⟩
        [neighbourFragment 8 (List.replicate 11 1), neighbourFragment 0 (List.replicate 24 2),
          neighbourFragment 32 [], .seconds 1, neighbourFragment 200 [3],
          neighbourFragment 40 (List.replicate 24 4), neighbourFragment 16 (List.replicate 9 5)] =
        some w ∧
      ∀ key e, entryOf w.r.rx key = some e → ∃ hs, Intact (w.got key) e hs :=
  run_intact 5 8 _ (by decide +kernel)

/-- **Thirteen bytes, and eight behind them**: the three bytes between are described in six,
of which the second fragment overwrites four. -/
theorem odd_not_intact :
    ¬∃ w, Runs.run watch ⟨⟨5, [], 8⟩, fun _ => []⟩
        [neighbourFragment 0 (List.replicate 13 0), neighbourFragment 16 (List.replicate 8 1)] =
        some w ∧
      ∀ key e, entryOf w.r.rx key = some e → ∃ hs, Intact (w.got key) e hs := by
  have hreached : ∃ w, Runs.run watch ⟨⟨5, [], 8⟩, fun _ => []⟩
        [neighbourFragment 0 (List.replicate 13 0), neighbourFragment 16 (List.replicate 8 1)] =
        some w ∧
      ∃ e, entryOf w.r.rx ⟨7, 64, (2, [1]), (2, [2])⟩ = some e ∧ e.size = 64 ∧
        e.readPrev .entry = 13 ∧ e.area.read16 (e.area.holePointer 13 + 2) = 0x0101 := by
    decide +kernel
  obtain ⟨w, hrun, e, he, hsize, hoffset, hread⟩ := hreached
  rintro ⟨w', hrun', hintact⟩
  rw [hrun] at hrun'
  cases hrun'
  obtain ⟨hs, hlinked, hordered, -, -⟩ := hintact _ e he
  cases hs with
  | nil =>
      have hend : e.readPrev .entry = 0xffff := hlinked
      rw [hoffset] at hend
      cases hend
  | cons hole hs =>
      obtain ⟨f, l⟩ := hole
      obtain ⟨hf, -, hl, -⟩ := hlinked
      rw [hoffset] at hf
      rw [← hf, hread] at hl
      have := hordered.2.1
      omega

end Lowpan
