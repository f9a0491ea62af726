import WisunModem.Datagrams

/-!
# Collecting the fragments of a datagram

`Holding` is what an entry holds when the fragments `got` have come: the holes cover what
is missing (`Tiles`), and the data of the others lies in its place.  Every fragment, new
or not, is added to it, and when none is missing the payload lies in one piece.

* `Tiles.fill` — a fragment is no longer missing;
* `holding_addFragment` — it is kept, or the whole payload is handed up;
* `reassembled` — every payload is handed up when its last missing fragment comes.
-/

namespace Lowpan

open Datagram

variable {d : Datagram}

/-! ## Holes are what is missing -/

/-- Where `hs` lies, fragments are missing, and where one is missing lies a hole. -/
structure Tiles (d : Datagram) (got : Nat → Bool) (hs : List (Nat × Nat)) : Prop where
  spaced : Spaced (roundUp d.size) hs
  missing : ∀ h ∈ hs, ∃ i j, i < j ∧ j ≤ d.count ∧ h = (d.cut i, d.cut j - 1) ∧
    ∀ k, i ≤ k → k < j → got k = false
  covered : ∀ k < d.count, got k = false →
    ∃ h ∈ hs, h.1 ≤ d.cut k ∧ d.cut (k + 1) - 1 ≤ h.2

/-- A fragment has come. -/
def receive (got : Nat → Bool) (k : Nat) : Nat → Bool := fun m => decide (m = k) || got m

theorem le_roundUp (size : Nat) : size ≤ roundUp size := by
  unfold roundUp
  omega

/-- A fragment lies before the cuts from `i` to `j`, in between, or behind. -/
theorem fragment_place {k i j : Nat} (hk : k < d.count) (hij : i < j) (hj : j ≤ d.count) :
    (k < i ∧ d.cut (k + 1) - 1 < d.cut i) ∨ (j ≤ k ∧ d.cut k > d.cut j - 1) ∨
      (i ≤ k ∧ k < j ∧ d.cut i ≤ d.cut k ∧ d.cut (k + 1) ≤ d.cut j) := by
  have hlt := d.cut_lt k hk
  by_cases hbefore : k < i
  · left
    have := cut_le (show k + 1 ≤ i by omega) (by omega : i ≤ d.count)
    exact ⟨hbefore, by omega⟩
  · right
    by_cases hbehind : j ≤ k
    · left
      have := cut_le hbehind (Nat.le_of_lt hk)
      have := cut_strict hij hj
      exact ⟨hbehind, by omega⟩
    · right
      exact ⟨by omega, by omega, cut_le (by omega) (Nat.le_of_lt hk), cut_le (by omega) hj⟩

theorem Tiles.fits {got : Nat → Bool} {hs : List (Nat × Nat)} (h : Tiles d got hs) {k : Nat}
    (hk : k < d.count) : ∀ hole ∈ hs, Fits (d.cut k) (d.cut (k + 1) - 1) hole := by
  intro hole hmem
  obtain ⟨i, j, hij, hj, rfl, -⟩ := h.missing hole hmem
  have hlt := d.cut_lt k hk
  have hpos := cut_strict hij hj
  rcases fragment_place hk hij hj with ⟨-, hbefore⟩ | ⟨-, hbehind⟩ | ⟨-, hkj, hlow, hhigh⟩
  · exact .inr (.inl hbefore)
  · exact .inl hbehind
  · right; right
    refine ⟨hlow, by dsimp only; omega, ?_⟩
    intro hmore
    have hnext : k + 1 < d.count := by
      by_contra hlast
      have heq : k + 1 = j := by omega
      rw [heq] at hmore
      exact absurd hmore (Nat.lt_irrefl _)
    have := d.cut_aligned (k + 1) hnext
    omega

/-- The holes behind a fragment: those it does not lie in, and what is left of the one it
lies in. -/
theorem mem_fillRanges_iff {back first last : Nat} {hs : List (Nat × Nat)}
    (hspaced : Spaced back hs) (hfits : ∀ hole ∈ hs, Fits first last hole)
    (h : Nat × Nat) :
    h ∈ fillRanges first last hs ↔
      (h ∈ hs ∧ (first > h.2 ∨ last < h.1)) ∨
        ∃ hole ∈ hs, ¬(first > hole.2 ∨ last < hole.1) ∧
          h ∈ leftOver first last hole.1 hole.2 := by
  induction hs with
  | nil => simp [fillRanges]
  | cons hole hs ih =>
      obtain ⟨f, l⟩ := hole
      obtain ⟨-, -, -, hrest, hspaced'⟩ := hspaced
      have hfit := hfits (f, l) List.mem_cons_self
      have ih := ih hspaced' (fun hole hmem => hfits hole (List.mem_cons_of_mem _ hmem))
      unfold fillRanges
      split
      · rename_i hout
        rw [List.mem_cons, ih]
        constructor
        · rintro (rfl | ⟨hmem, ho⟩ | ⟨hole, hmem, hi⟩)
          · exact .inl ⟨List.mem_cons_self, hout⟩
          · exact .inl ⟨List.mem_cons_of_mem _ hmem, ho⟩
          · exact .inr ⟨hole, List.mem_cons_of_mem _ hmem, hi⟩
        · rintro (⟨hmem, ho⟩ | ⟨hole, hmem, hi, hl⟩)
          · rcases List.mem_cons.mp hmem with rfl | hmem
            · exact .inl rfl
            · exact .inr (.inl ⟨hmem, ho⟩)
          · rcases List.mem_cons.mp hmem with rfl | hmem
            · exact absurd hout hi
            · exact .inr (.inr ⟨hole, hmem, hi, hl⟩)
      · rename_i hin
        have hlast : last ≤ l := by
          rcases hfit with h | h | h
          · exact absurd (.inl h) hin
          · exact absurd (.inr h) hin
          · exact h.2.1
        have hout (other : Nat × Nat) (hmem : other ∈ hs) : first > other.2 ∨ last < other.1 :=
          .inr (Nat.lt_of_le_of_lt hlast (hrest other hmem))
        rw [List.mem_append]
        constructor
        · rintro (hmem | hmem)
          · exact .inr ⟨(f, l), List.mem_cons_self, hin, hmem⟩
          · exact .inl ⟨List.mem_cons_of_mem _ hmem, hout h hmem⟩
        · rintro (⟨hmem, ho⟩ | ⟨hole, hmem, hi, hl⟩)
          · rcases List.mem_cons.mp hmem with rfl | hmem
            · exact absurd ho hin
            · exact .inr hmem
          · rcases List.mem_cons.mp hmem with rfl | hmem
            · exact .inl hl
            · exact absurd (hout hole hmem) hi

/-- **A fragment is no longer missing.** -/
theorem Tiles.fill {got : Nat → Bool} {hs : List (Nat × Nat)} (h : Tiles d got hs) {k : Nat}
    (hk : k < d.count) :
    Tiles d (receive got k) (fillRanges (d.cut k) (d.cut (k + 1) - 1) hs) := by
  have hlt := d.cut_lt k hk
  have hle : d.cut k ≤ d.cut (k + 1) - 1 := by omega
  have hfits := h.fits hk
  have hmem_iff := mem_fillRanges_iff h.spaced hfits
  refine ⟨spaced_fillRanges h.spaced hfits hle, ?_, ?_⟩
  · intro hole hmem
    rcases (hmem_iff hole).mp hmem with ⟨hmem, hout⟩ | ⟨hole', hmem, hin, hleft⟩
    · obtain ⟨i, j, hij, hj, rfl, hmissing⟩ := h.missing hole hmem
      refine ⟨i, j, hij, hj, rfl, ?_⟩
      intro m him hmj
      have hne : m ≠ k := by
        rintro rfl
        have := cut_le him (Nat.le_of_lt hk)
        have := cut_le (show m + 1 ≤ j by omega) hj
        have := cut_strict hij hj
        dsimp only at hout
        omega
      simp [receive, hne, hmissing m him hmj]
    · obtain ⟨i, j, hij, hj, rfl, hmissing⟩ := h.missing hole' hmem
      have hpos := cut_strict hij hj
      obtain ⟨hik, hkj⟩ : i ≤ k ∧ k < j := by
        rcases fragment_place hk hij hj with ⟨-, hb⟩ | ⟨-, hb⟩ | hin'
        · exact absurd (.inr hb) hin
        · exact absurd (.inl hb) hin
        · exact ⟨hin'.1, hin'.2.1⟩
      rcases mem_leftOver.mp hleft with ⟨hfront, rfl⟩ | ⟨hmore, rfl⟩
      · have hne : i ≠ k := by
          rintro rfl
          exact absurd hfront (Nat.lt_irrefl _)
        refine ⟨i, k, by omega, Nat.le_of_lt hk, rfl, ?_⟩
        intro m him hmk
        have hne : m ≠ k := by omega
        simp [receive, hne, hmissing m him (by omega)]
      · have hnext : k + 1 ≠ j := by
          rintro rfl
          exact absurd hmore (Nat.lt_irrefl _)
        refine ⟨k + 1, j, by omega, hj, ?_, ?_⟩
        · rw [Nat.sub_add_cancel (by omega)]
        · intro m him hmj
          have hne : m ≠ k := by omega
          simp [receive, hne, hmissing m (by omega) hmj]
  · intro m hm hgot
    simp only [receive, Bool.or_eq_false_iff, decide_eq_false_iff_not] at hgot
    obtain ⟨hole, hmem, hlow, hhigh⟩ := h.covered m hm hgot.2
    by_cases hout : d.cut k > hole.2 ∨ d.cut (k + 1) - 1 < hole.1
    · exact ⟨hole, (hmem_iff hole).mpr (.inl ⟨hmem, hout⟩), hlow, hhigh⟩
    · have hmlt := d.cut_lt m hm
      by_cases hbefore : m < k
      · have hcut := cut_le (show m + 1 ≤ k by omega) (Nat.le_of_lt hk)
        refine ⟨(hole.1, d.cut k - 1), (hmem_iff _).mpr (.inr ⟨hole, hmem, hout, ?_⟩), hlow,
          by dsimp only; omega⟩
        exact mem_leftOver.mpr (.inl ⟨by omega, rfl⟩)
      · have hcut := cut_le (show k + 1 ≤ m by omega) (Nat.le_of_lt hm)
        refine ⟨(d.cut (k + 1) - 1 + 1, hole.2),
          (hmem_iff _).mpr (.inr ⟨hole, hmem, hout, ?_⟩), by dsimp only; omega, hhigh⟩
        exact mem_leftOver.mpr (.inr ⟨by omega, rfl⟩)

/-- Nothing is missing where there is no hole. -/
theorem Tiles.nil_iff {got : Nat → Bool} {hs : List (Nat × Nat)} (h : Tiles d got hs) :
    hs = [] ↔ ∀ k < d.count, got k = true := by
  constructor
  · rintro rfl k hk
    by_contra hne
    obtain ⟨hole, hmem, -⟩ := h.covered k hk ((Bool.not_eq_true _).mp hne)
    cases hmem
  · intro hall
    cases hs with
    | nil => rfl
    | cons hole hs =>
        obtain ⟨i, j, hij, hj, -, hmissing⟩ := h.missing hole List.mem_cons_self
        have := hall i (by omega)
        rw [hmissing i (Nat.le_refl i) hij] at this
        cases this

/-- At first everything is missing. -/
theorem tiles_all : Tiles d (fun _ => false) [(0, d.size - 1)] := by
  have hpos := d.size_pos
  have hround := le_roundUp d.size
  refine ⟨⟨rfl, Nat.zero_le _, by omega, (fun _ hmem => by cases hmem), trivial⟩, ?_, ?_⟩
  · intro hole hmem
    rw [List.mem_singleton.mp hmem]
    exact ⟨0, d.count, d.count_pos, Nat.le_refl _, by rw [d.cut_zero]; rfl, fun _ _ _ => rfl⟩
  · intro k hk _
    have := cut_le (show k + 1 ≤ d.count by omega) (Nat.le_refl _)
    have hsize : d.size = d.cut d.count := rfl
    exact ⟨_, List.mem_singleton.mpr rfl, Nat.zero_le _, by dsimp only; omega⟩

/-! ## What an entry holds -/

/-- The data of the fragments that have come lies in its place. -/
def Stored (d : Datagram) (got : Nat → Bool) (a : Area) : Prop :=
  ∀ k < d.count, got k = true → ∀ x, d.start k ≤ x → x < d.stop k →
    a.bytes (x + d.pattern) = d.payload.getD x 0

/-- What an entry holds of a datagram. -/
structure Holding (d : Datagram) (got : Nat → Bool) (e : Entry) : Prop where
  key : e.key = d.key
  back : e.area.back = roundUp d.size
  front : 41 ≤ e.area.front
  safe : e.area.safe = true
  holes : ∃ hs, Linked e .entry hs ∧ Tiles d got hs
  stored : Stored d got e.area
  pattern : got 0 = true → e.pattern = d.pattern

/-- The list is read from the buffer and the entry's offset. -/
theorem linked_congr {e e' : Entry} {prev : Prev} {hs : List (Nat × Nat)}
    (h : Linked e prev hs) (harea : e'.area = e.area) (hoffset : e'.offset = e.offset) :
    Linked e' prev hs := by
  have hread (p : Prev) : e'.readPrev p = e.readPrev p := by
    cases p with
    | entry => exact hoffset
    | hole offset => simp only [Entry.readPrev, harea]
  induction hs generalizing prev with
  | nil => exact (hread prev).trans h
  | cons hole hs ih =>
      obtain ⟨hoff, hfirst, hlast, hrest⟩ := h
      refine ⟨(hread prev).trans hoff, ?_, ?_, ih hrest⟩
      · rw [harea]
        exact hfirst
      · rw [harea]
        exact hlast

/-- A byte of a fragment lies outside the description of a hole. -/
theorem block_outside {got : Nat → Bool} {hs : List (Nat × Nat)} (h : Tiles d got hs)
    (hshort : d.Short) {k x : Nat} (hk : k < d.count) (hgot : got k = true)
    (hx : d.start k ≤ x ∧ x < d.stop k) {hole : Nat × Nat} (hmem : hole ∈ hs) :
    ¬block hole.1 (some (x + d.pattern)) := by
  obtain ⟨i, j, hij, hj, rfl, hmissing⟩ := h.missing hole hmem
  have hne : k ≠ i := by
    rintro rfl
    rw [hmissing k (Nat.le_refl k) hij] at hgot
    cases hgot
  have hplace := place_eq (show 0 < k + 1 by omega) hk
  have hstop : d.stop k = d.place (d.cut (k + 1)) := rfl
  have hp : d.pattern = d.uncompressed - d.compressed := rfl
  intro hin
  have hlow := hin.1
  have hhigh := hin.2
  dsimp only at hlow hhigh
  by_cases hbefore : k < i
  · have := cut_le (show k + 1 ≤ i by omega) (show i ≤ d.count by omega)
    omega
  · have hfar := cut_far (show i < k by omega) hk
    have := (start_pos hk hshort).2 (by omega)
    omega

/-- What is written is what was to be. -/
theorem bytes_write_in (a : Area) {pos i : Int} {data : List UInt8}
    (h : pos ≤ i ∧ i < pos + data.length) :
    (a.write pos data).bytes i = data.getD (i - pos).toNat 0 :=
  if_pos h

/-- The data of a fragment is copied into its place. -/
theorem stored_copy {got : Nat → Bool} {a : Area} (h : Stored d got a) {k : Nat}
    (hk : k < d.count) :
    Stored d (receive got k) (a.write (d.start k + d.pattern) (d.data k)) := by
  have hlen := length_data hk
  have hlt := start_lt_stop hk
  have hle := stop_le hk
  intro m hm hgot x hlow hhigh
  by_cases hin : d.start k ≤ x ∧ x < d.stop k
  · rw [bytes_write_in a (by omega)]
    have hidx : ((x : Int) + d.pattern - (d.start k + d.pattern)).toNat = x - d.start k := by
      omega
    rw [hidx]
    unfold data
    rw [List.getD_eq_getElem?_getD, List.getElem?_take_of_lt (by omega), List.getElem?_drop,
      List.getD_eq_getElem?_getD, Nat.add_sub_cancel' hin.1]
  · rw [a.bytes_write_out (by omega)]
    have hne : m ≠ k := by
      rintro rfl
      exact hin ⟨hlow, hhigh⟩
    apply h m hm _ x hlow hhigh
    simpa [receive, hne] using hgot

/-- There are not more holes than offsets. -/
theorem spaced_length {back n : Nat} {hs : List (Nat × Nat)} (h : Spaced back hs)
    (hlow : ∀ hole ∈ hs, n ≤ hole.1) : hs.length ≤ back - n := by
  induction hs generalizing n with
  | nil => exact Nat.zero_le _
  | cons hole hs ih =>
      obtain ⟨f, l⟩ := hole
      obtain ⟨-, hfl, hl, hrest, hspaced⟩ := h
      have hf := hlow (f, l) List.mem_cons_self
      have := ih (n := n + 1) hspaced (fun hole hmem => by have := hrest hole hmem; omega)
      rw [List.length_cons]
      omega

theorem roundUp_lt : roundUp d.size < 2 ^ 12 ∧ roundUp d.size % 8 = 0 := by
  have := d.size_lt'
  unfold roundUp
  omega

/-- The holes are listed while something is missing. -/
theorem offset_iff {got : Nat → Bool} {e : Entry} {hs : List (Nat × Nat)}
    (hlinked : Linked e .entry hs) (htiles : Tiles d got hs) :
    e.offset = 0xffff ↔ ∀ k < d.count, got k = true := by
  rw [← htiles.nil_iff]
  cases hs with
  | nil => exact ⟨fun _ => rfl, fun _ => hlinked⟩
  | cons hole hs =>
      have hoff : e.offset = hole.1 := hlinked.1
      have := roundUp_lt (d := d)
      have := htiles.spaced.2.1
      have := htiles.spaced.2.2.1
      constructor
      · intro hend
        omega
      · intro hne
        cases hne

/-- The first fragment says where the headers begin. -/
theorem holding_noteFirst {got : Nat → Bool} {e : Entry} (h : Holding d got e) {k : Nat}
    {frame : Frame} (hfrag : d.IsFragment k frame) (hshort : d.Short) :
    Holding d got (noteFirst e frame) ∧ (k = 0 → (noteFirst e frame).pattern = d.pattern) ∧
      (noteFirst e frame).bypass = e.bypass := by
  unfold noteFirst
  by_cases hzero : frame.first = 0
  · rw [if_pos hzero]
    have hk : k = 0 := by
      by_contra hne
      have := cut_far (Nat.pos_of_ne_zero hne) hfrag.lt
      rw [first_eq hfrag] at hzero
      omega
    subst hk
    have hpattern := pattern_eq hfrag hshort
    refine ⟨⟨?_, h.back, h.front, h.safe, ?_, h.stored, fun _ => hpattern⟩,
      fun _ => hpattern, rfl⟩
    · have hkey := h.key
      simp only [Entry.key, key, Key.mk.injEq] at hkey ⊢
      exact ⟨hkey.1, hkey.2.1, hfrag.src, hfrag.dst⟩
    · obtain ⟨hs, hlinked, htiles⟩ := h.holes
      exact ⟨hs, linked_congr hlinked rfl rfl, htiles⟩
  · rw [if_neg hzero]
    refine ⟨h, ?_, rfl⟩
    rintro rfl
    rw [first_eq hfrag] at hzero
    exact absurd d.cut_zero hzero

/-- **A fragment goes into the hole it lies in**, or where it was before. -/
theorem holding_fill {got : Nat → Bool} {e : Entry} (h : Holding d got e) {k : Nat}
    (hk : k < d.count) (hshort : d.Short) (hmissing : ∃ m < d.count, got m = false)
    (hpattern : k = 0 → e.pattern = d.pattern) :
    ∃ e', fillHole (2 ^ 16) e (d.cut k) (d.cut (k + 1) - 1) e.offset .entry = some e' ∧
      ∀ bypass, Holding d (receive got k)
        { e' with
          area := e'.area.write (d.start k + d.pattern) (d.data k)
          bypass := bypass } := by
  obtain ⟨hs, hlinked, htiles⟩ := h.holes
  have hsome : hs ≠ [] := by
    intro hnil
    obtain ⟨m, hm, hgot⟩ := hmissing
    rw [htiles.nil_iff.mp hnil m hm] at hgot
    cases hgot
  have hround := roundUp_lt (d := d)
  have hlt := d.cut_lt k hk
  have hlen := spaced_length (n := 0) htiles.spaced (fun _ _ => Nat.zero_le _)
  have hspaced : Spaced e.area.back hs := by
    rw [h.back]
    exact htiles.spaced
  obtain ⟨e', hfill, hlinked', halters⟩ := hspaced.fillHole (2 ^ 16) (by omega) hsome hlinked
    (by rw [h.back]; omega) (htiles.fits hk) (by omega)
  refine ⟨e', hfill, fun bypass => ?_⟩
  have htiles' := htiles.fill hk
  have hgot : receive got k k = true := by simp [receive]
  have hdata := length_data hk
  have hse := start_lt_stop hk
  have hpos := start_pos hk hshort
  have hstop := place_eq (show 0 < k + 1 by omega) hk
  have hplace : d.stop k = d.place (d.cut (k + 1)) := rfl
  have hp : d.pattern = d.uncompressed - d.compressed := rfl
  have hend := cut_le (show k + 1 ≤ d.count by omega) (Nat.le_refl _)
  have hsize : d.size = d.cut d.count := rfl
  have hroundUp := le_roundUp d.size
  -- The data is written beside the holes that are left.
  have hcopy : Alters
      (fun x => ∃ i, x = some i ∧ d.start k + d.pattern ≤ i ∧ i < d.stop k + d.pattern) e'
      { e' with area := e'.area.write (d.start k + d.pattern) (d.data k) } := by
    constructor
    · exact fun _ => rfl
    · intro i hout
      apply Area.bytes_write_out
      by_contra hin
      exact hout ⟨i, rfl, by omega, by omega⟩
    all_goals first | rfl | skip
    intro hsafe
    have hfront := halters.front
    have hback := halters.back
    have := h.front
    have := h.back
    simp only [Area.write, hsafe, Bool.true_and, decide_eq_true_eq, hfront, hback]
    omega
  have hlinked'' := hlinked'.alters hcopy
    (fun x hx => by cases hx; rintro ⟨i, hi, -⟩; cases hi)
    (by
      rintro hole hmem x hx ⟨i, rfl, hlow, hhigh⟩
      have hout := block_outside htiles' hshort hk hgot (x := (i - d.pattern).toNat)
        ⟨by omega, by omega⟩ hmem
      rw [Int.toNat_of_nonneg (by omega), Int.sub_add_cancel] at hout
      exact hout (slot_block hx))
  have hrest := halters.rest
  constructor
  · rw [hrest]
    exact h.key
  · exact hcopy.back.trans (halters.back.trans h.back)
  · rw [show _ = e.area.front from hcopy.front.trans halters.front]
    exact h.front
  · exact hcopy.safe (halters.safe h.safe)
  · exact ⟨_, linked_congr hlinked'' rfl rfl, htiles'⟩
  · apply stored_copy _ hk
    intro m hm hgotm x hlow hhigh
    rw [halters.bytes]
    · exact h.stored m hm hgotm x hlow hhigh
    · rintro (hne | ⟨hole, hmem, hx⟩)
      · cases hne
      · exact block_outside htiles' hshort hm (by simp [receive, hgotm]) ⟨hlow, hhigh⟩ hmem hx
  · intro hzero
    have hsame : e'.pattern = e.pattern := by rw [hrest]
    by_cases hk0 : k = 0
    · exact hsame.trans (hpattern hk0)
    · apply hsame.trans
      apply h.pattern
      simpa [receive, Ne.symm hk0] using hzero

/-- A new entry holds nothing. -/
theorem holding_new (alloc : Alloc) (timeout : Nat) {k : Nat} {frame : Frame}
    (hfrag : d.IsFragment k frame) :
    Holding d (fun _ => false) (newEntry alloc timeout frame) := by
  have hsize := d.size_lt'
  have hpos := d.size_pos
  have hround := roundUp_lt (d := d)
  have hup := le_roundUp d.size
  unfold newEntry
  rw [size_eq hfrag]
  generalize he : Entry.mk _ _ _ _ _ _ _ _ _ = e
  have hlinked : Linked e .entry [] := by
    rw [← he]
    rfl
  have hread : e.readPrev .entry = 0xffff := hlinked
  have hwithin : (Prev.hole 0).Inside e.area := by
    apply Prev.Within.inside
    rw [← he]
    exact ⟨rfl, by dsimp only; omega⟩
  have hnums : 0 < 2 ^ 16 ∧ d.size - 1 < 2 ^ 16 ∧ e.readPrev .entry < 2 ^ 16 := by
    rw [hread]
    omega
  have hapart : ∀ x, Prev.entry.cell e.area x → ¬slot e.area 0 x := by
    intro x hx
    cases hx
    exact id
  have hentry : Prev.Inside e.area .entry := trivial
  obtain ⟨halters, -⟩ := createHole_spec e hwithin hentry hnums hapart
  have hlisted := linked_createHole hlinked hwithin hentry hnums hapart
    (fun _ hmem => by cases hmem)
  have hrest := halters.rest
  generalize createHole e 0 (d.size - 1) .entry = e' at *
  constructor
  · rw [hrest, ← he]
    have hkey := key_eq hfrag
    simp only [Frame.key, key, Key.mk.injEq] at hkey
    simp [Entry.key, key, hkey]
  · rw [halters.back, ← he]
  · rw [halters.front, ← he]
    dsimp only
    unfold Buffer.roundedSize
    omega
  · apply halters.safe
    rw [← he]
  · exact ⟨_, hlisted, tiles_all⟩
  · intro _ _ hgot
    cases hgot
  · intro hgot
    cases hgot

/-! ## The whole payload -/

/-- Every byte of the payload is in one of the fragments. -/
theorem exists_fragment {x : Nat} (h : x < d.payload.length) :
    ∃ k < d.count, d.start k ≤ x ∧ x < d.stop k := by
  have hlast : d.payload.length = d.place (d.cut d.count) := by
    have hplace := place_eq d.count_pos (Nat.le_refl d.count)
    have hcut := d.cut_last
    have hc : d.compressed = (iphcHeaderScan d.payload).1 := rfl
    have hu : d.uncompressed = (iphcHeaderScan d.payload).2 := rfl
    omega
  rw [hlast] at h
  have hsearch : ∀ m ≤ d.count, 0 < m → x < d.place (d.cut m) →
      ∃ k < d.count, d.start k ≤ x ∧ x < d.stop k := by
    intro m
    induction m with
    | zero =>
        intro _ hm
        cases hm
    | succ m ih =>
        intro hm _ hx
        by_cases hzero : m = 0
        · subst hzero
          exact ⟨0, hm, Nat.zero_le _, hx⟩
        · by_cases hin : x < d.place (d.cut m)
          · exact ih (by omega) (Nat.pos_of_ne_zero hzero) hin
          · refine ⟨m, hm, ?_, hx⟩
            unfold start
            rw [if_neg hzero]
            exact Nat.le_of_not_lt hin
  exact hsearch d.count (Nat.le_refl _) d.count_pos h

/-- **The payload lies in one piece** when all its fragments have come. -/
theorem slice_eq {got : Nat → Bool} {a : Area} (h : Stored d got a)
    (hall : ∀ k < d.count, got k = true) : a.slice d.pattern d.size = d.payload := by
  have hlen : ((d.size : Int) - d.pattern).toNat = d.payload.length := by
    have hcut := d.cut_last
    have hc : d.compressed = (iphcHeaderScan d.payload).1 := rfl
    have hu : d.uncompressed = (iphcHeaderScan d.payload).2 := rfl
    have hs : d.size = d.cut d.count := rfl
    unfold pattern
    omega
  unfold Area.slice
  apply List.ext_getElem
  · rw [List.length_map, List.length_range, hlen]
  · intro x hx hx'
    obtain ⟨k, hk, hlow, hhigh⟩ := exists_fragment hx'
    have hbyte := h k hk (hall k hk) x hlow hhigh
    rw [List.getElem_map, List.getElem_range, Int.add_comm, hbyte,
      List.getD_eq_getElem?_getD, List.getElem?_eq_getElem hx', Option.getD_some]

/-- Every fragment has come. -/
def Complete (d : Datagram) (got : Nat → Bool) : Prop := ∀ k < d.count, got k = true

instance (d : Datagram) (got : Nat → Bool) : Decidable (Complete d got) :=
  inferInstanceAs (Decidable (∀ k < d.count, got k = true))

/-- **A fragment more, and perhaps the whole datagram.** -/
theorem holding_addFragment {got : Nat → Bool} {e : Entry} (h : Holding d got e) {k : Nat}
    {frame : Frame} (hfrag : d.IsFragment k frame) (hshort : d.Short)
    (hmissing : ∃ m < d.count, got m = false) (r : Reassembler) :
    if Complete d (receive got k) then
      ∃ up, addFragment r e frame = some (r.drop d.key, some up) ∧ up.data = d.payload
    else
      ∃ e', addFragment r e frame = some ({ r with rx := setFirst d.key e' r.rx }, none) ∧
        Holding d (receive got k) e' := by
  obtain ⟨hfirst, hpattern, -⟩ := holding_noteFirst h hfrag hshort
  have hlast := lastOffset_eq hfrag hshort
  have hlt := d.cut_lt k hfrag.lt
  have hend := cut_le (show k + 1 ≤ d.count by have := hfrag.lt; omega) (Nat.le_refl _)
  obtain ⟨e', hfill, hholding⟩ := holding_fill hfirst hfrag.lt hshort hmissing hpattern
  have hsize : (noteFirst e frame).size = d.size := by
    have hkey := hfirst.key
    simp only [Entry.key, key, Key.mk.injEq] at hkey
    exact hkey.2.1
  have hin : ¬lastOffset frame ≥ (noteFirst e frame).size := by
    have hs : d.size = d.cut d.count := rfl
    rw [hlast, hsize]
    omega
  have hholding := hholding (e'.bypass || frame.bypass)
  have hcopy : copyData e' frame =
      { e' with
        area := e'.area.write (d.start k + d.pattern) (d.data k)
        bypass := e'.bypass || frame.bypass } := by
    unfold copyData
    rw [(copy_pos hfrag hshort).1, data_eq hfrag]
  rw [← hcopy] at hholding
  obtain ⟨hs, hlinked, htiles⟩ := hholding.holes
  have hoffset := offset_iff hlinked htiles
  unfold addFragment
  dsimp only
  rw [if_neg hin, first_eq hfrag, hlast, hfill]
  simp only [Option.bind_some, hholding.safe, Bool.not_true, Bool.false_eq_true, if_false]
  by_cases hall : Complete d (receive got k)
  · rw [if_pos hall, if_neg (not_not.mpr (hoffset.mpr hall))]
    refine ⟨_, by rw [hholding.key], ?_⟩
    have hsize' : (copyData e' frame).size = d.size := by
      have hkey := hholding.key
      simp only [Entry.key, key, Key.mk.injEq] at hkey
      exact hkey.2.1
    rw [hholding.pattern (hall 0 d.count_pos), hsize']
    exact slice_eq hholding.stored hall
  · rw [if_neg hall, if_pos (fun hnone => hall (hoffset.mp hnone))]
    exact ⟨_, by rw [hholding.key], hholding⟩

/-! ## Entries by their keys -/

/-- The entry of a datagram. -/
def entryOf (es : List Entry) (key : Key) : Option Entry := es.find? fun e => e.key = key

theorem entryOf_key {es : List Entry} {key : Key} {e : Entry} (h : entryOf es key = some e) :
    e.key = key := by
  simpa using List.find?_some h

theorem entryOf_setFirst {es : List Entry} {key : Key} {e : Entry} (he : e.key = key)
    (h : entryOf es key ≠ none) (other : Key) :
    entryOf (setFirst key e es) other = if other = key then some e else entryOf es other := by
  induction es with
  | nil => exact absurd rfl h
  | cons e' es ih =>
      unfold setFirst
      by_cases hkey : e'.key = key
      · rw [if_pos hkey]
        by_cases hother : other = key
        · simp [entryOf, he, hother]
        · have hne : ¬e.key = other := fun heq => hother (heq.symm.trans he)
          have hne' : ¬e'.key = other := fun heq => hother (heq.symm.trans hkey)
          simp [entryOf, hne, hne', hother]
      · rw [if_neg hkey]
        have hrest : entryOf es key ≠ none := by
          intro hnone
          apply h
          simpa [entryOf, hkey] using hnone
        have ih := ih hrest
        by_cases hhere : e'.key = other
        · have hother : ¬other = key := fun heq => hkey (hhere.trans heq)
          simp [entryOf, hhere, hother]
        · simpa [entryOf, hhere] using ih

theorem keys_setFirst {es : List Entry} {key : Key} {e : Entry} (he : e.key = key) :
    (setFirst key e es).map Entry.key = es.map Entry.key := by
  induction es with
  | nil => rfl
  | cons e' es ih =>
      unfold setFirst
      split
      · rename_i hkey
        simp [he, hkey]
      · simp [ih]

theorem entryOf_drop {es : List Entry} (hnodup : (es.map Entry.key).Nodup) (key other : Key) :
    entryOf (es.eraseP fun e => e.key = key) other =
      if other = key then none else entryOf es other := by
  induction es with
  | nil => simp [entryOf]
  | cons e es ih =>
      rw [List.map_cons, List.nodup_cons] at hnodup
      have ih := ih hnodup.2
      by_cases hkey : e.key = key
      · rw [List.eraseP_cons_of_pos (by simpa using hkey)]
        by_cases hother : other = key
        · rw [if_pos hother]
          unfold entryOf
          rw [List.find?_eq_none]
          intro e' hmem
          simp only [decide_eq_true_eq]
          intro heq
          apply hnodup.1
          rw [hkey, ← hother, ← heq]
          exact List.mem_map_of_mem hmem
        · rw [if_neg hother]
          have hne : ¬e.key = other := fun heq => hother (heq.symm.trans hkey)
          simp [entryOf, hne]
      · rw [List.eraseP_cons_of_neg (by simpa using hkey)]
        by_cases hhere : e.key = other
        · have hother : ¬other = key := fun heq => hkey (hhere.trans heq)
          simp [entryOf, hhere, hother]
        · simpa [entryOf, hhere] using ih

theorem nodup_drop {es : List Entry} (hnodup : (es.map Entry.key).Nodup) (key : Key) :
    ((es.eraseP fun e => e.key = key).map Entry.key).Nodup :=
  hnodup.sublist (List.eraseP_sublist.map _)

/-! ## Interleaved datagrams -/

variable {ι : Type} [DecidableEq ι] (ds : ι → Datagram)

/-- The entries hold what has come of each datagram. -/
structure Collected (got : ι → Nat → Bool) (r : Reassembler) : Prop where
  nodup : (r.rx.map Entry.key).Nodup
  none : ∀ i, entryOf r.rx (ds i).key = none → ∀ k, got i k = false
  some : ∀ i e, entryOf r.rx (ds i).key = some e →
    Holding (ds i) (got i) e ∧ ∃ m < (ds i).count, got i m = false

/-- What has come of a datagram since it was last handed up. -/
def received (i : ι) (k : Nat) (got : ι → Nat → Bool) : ι → Nat → Bool :=
  Function.update got i
    (if Complete (ds i) (receive (got i) k) then fun _ => false else receive (got i) k)

/-- What is handed up when a fragment comes. -/
def handedUp (i : ι) (k : Nat) (got : ι → Nat → Bool) : Option (List UInt8) :=
  if Complete (ds i) (receive (got i) k) then some (ds i).payload else none

variable {ds}

theorem collected_addFragment (hkeys : ∀ i j, (ds i).key = (ds j).key → i = j)
    {got : ι → Nat → Bool} {r : Reassembler} (h : Collected ds got r) {i : ι} {k : Nat}
    {frame : Frame} (hfrag : (ds i).IsFragment k frame) (hshort : (ds i).Short) {e : Entry}
    (he : entryOf r.rx (ds i).key = some e) :
    ∃ r' up, addFragment r e frame = some (r', up) ∧
      up.map Up.data = handedUp ds i k got ∧ Collected ds (received ds i k got) r' := by
  obtain ⟨hholding, hmissing⟩ := h.some i e he
  have hadd := holding_addFragment hholding hfrag hshort hmissing r
  unfold handedUp received
  by_cases hall : Complete (ds i) (receive (got i) k)
  · rw [if_pos hall] at hadd
    obtain ⟨up, hadd, hdata⟩ := hadd
    rw [if_pos hall, if_pos hall]
    refine ⟨_, _, hadd, congrArg some hdata, nodup_drop h.nodup _, ?_, ?_⟩
    · intro j hj m
      by_cases hij : j = i
      · rw [hij, Function.update_self]
      · rw [Function.update_of_ne hij]
        have hne : ¬(ds j).key = (ds i).key := fun heq => hij (hkeys j i heq)
        unfold Reassembler.drop at hj
        dsimp only at hj
        rw [entryOf_drop h.nodup, if_neg hne] at hj
        exact h.none j hj m
    · intro j e' hj
      unfold Reassembler.drop at hj
      dsimp only at hj
      rw [entryOf_drop h.nodup] at hj
      by_cases hij : j = i
      · rw [hij, if_pos rfl] at hj
        cases hj
      · have hne : ¬(ds j).key = (ds i).key := fun heq => hij (hkeys j i heq)
        rw [if_neg hne] at hj
        rw [Function.update_of_ne hij]
        exact h.some j e' hj
  · rw [if_neg hall] at hadd
    obtain ⟨e₁, hadd, hholding₁⟩ := hadd
    rw [if_neg hall, if_neg hall]
    have hset (other : Key) := entryOf_setFirst hholding₁.key (by rw [he]; simp) other
    refine ⟨_, _, hadd, rfl, ?_, ?_, ?_⟩
    · dsimp only
      rw [keys_setFirst hholding₁.key]
      exact h.nodup
    · intro j hj m
      dsimp only at hj
      rw [hset] at hj
      by_cases hij : j = i
      · rw [hij, if_pos rfl] at hj
        cases hj
      · have hne : ¬(ds j).key = (ds i).key := fun heq => hij (hkeys j i heq)
        rw [if_neg hne] at hj
        rw [Function.update_of_ne hij]
        exact h.none j hj m
    · intro j e' hj
      dsimp only at hj
      rw [hset] at hj
      by_cases hij : j = i
      · subst hij
        rw [if_pos rfl] at hj
        cases hj
        rw [Function.update_self]
        refine ⟨hholding₁, ?_⟩
        by_contra hnone
        apply hall
        intro m hm
        by_contra hgot
        exact hnone ⟨m, hm, (Bool.not_eq_true _).mp hgot⟩
      · have hne : ¬(ds j).key = (ds i).key := fun heq => hij (hkeys j i heq)
        rw [if_neg hne] at hj
        rw [Function.update_of_ne hij]
        exact h.some j e' hj

/-- A fragment finds its entry, or is given a new one. -/
theorem collected_fragment (hkeys : ∀ i j, (ds i).key = (ds j).key → i = j)
    {got : ι → Nat → Bool} {r : Reassembler} (h : Collected ds got r) {i : ι} {k : Nat}
    {frame : Frame} (hfrag : (ds i).IsFragment k frame) (hshort : (ds i).Short) {alloc : Alloc}
    (hgranted : entryOf r.rx frame.key = none → r.free ≠ 0 ∧ alloc.memory = true) :
    ∃ r' up, cipv6FragReassembly alloc r frame = some (r', up) ∧
      up.map Up.data = handedUp ds i k got ∧ Collected ds (received ds i k got) r' := by
  have hkey := key_eq hfrag
  have hpos := (ds i).size_pos
  rw [hkey] at hgranted
  unfold cipv6FragReassembly
  rw [if_neg (not_not.mpr (whole_of_isFragment hfrag)), if_neg (by rw [size_eq hfrag]; omega), hkey]
  cases he : entryOf r.rx (ds i).key with
  | some e =>
      have he' : r.rx.find? (fun e => e.key = (ds i).key) = some e := he
      rw [he']
      exact collected_addFragment hkeys h hfrag hshort he
  | none =>
      have he' : r.rx.find? (fun e => e.key = (ds i).key) = none := he
      obtain ⟨hfree, hmemory⟩ := hgranted he
      rw [he']
      dsimp only
      rw [if_neg (by simp [hfree, hmemory])]
      have hnew := holding_new alloc r.timeout hfrag
      generalize newEntry alloc r.timeout frame = e at *
      rw [hnew.safe]
      have hentry (other : Key) : entryOf (e :: r.rx) other =
          if other = (ds i).key then some e else entryOf r.rx other := by
        by_cases hother : other = (ds i).key
        · simp [entryOf, hnew.key, hother]
        · have hne : ¬(ds i).key = other := fun heq => hother heq.symm
          simp [entryOf, hnew.key, hother, hne]
      have hgot : got i = fun _ => false := funext fun m => h.none i he m
      have hcollected : Collected ds got { r with rx := e :: r.rx, free := r.free - 1 } := by
        constructor
        · dsimp only
          rw [List.map_cons, List.nodup_cons]
          refine ⟨?_, h.nodup⟩
          intro hmem
          obtain ⟨e', hmem, heq⟩ := List.mem_map.mp hmem
          have hnot := List.find?_eq_none.mp he e' hmem
          simp only [decide_eq_true_eq] at hnot
          exact hnot (heq.trans hnew.key)
        · intro j hj m
          dsimp only at hj
          rw [hentry] at hj
          split at hj
          · cases hj
          · exact h.none j hj m
        · intro j e' hj
          dsimp only at hj
          rw [hentry] at hj
          split at hj
          · rename_i heq
            cases hj
            rw [hkeys j i heq, hgot]
            exact ⟨hnew, 0, (ds i).count_pos, rfl⟩
          · exact h.some j e' hj
      apply collected_addFragment hkeys hcollected hfrag hshort (e := e)
      dsimp only
      rw [hentry, if_pos rfl]

omit [DecidableEq ι] in
/-- Time passes, and no entry is too old. -/
theorem collected_seconds {got : ι → Nat → Bool} {r : Reassembler} (h : Collected ds got r)
    {n : Nat} (hyoung : ∀ e ∈ r.rx, n < e.ttl) : Collected ds got (cipv6FragTimer r n) := by
  have hall : r.rx.filter (fun e => e.ttl > n) = r.rx := by
    rw [List.filter_eq_self]
    intro e hmem
    simpa using hyoung e hmem
  have hrx : (cipv6FragTimer r n).rx = r.rx.map fun e => { e with ttl := e.ttl - n } := by
    unfold cipv6FragTimer
    dsimp only
    rw [hall]
  have hentry (key : Key) : entryOf (cipv6FragTimer r n).rx key =
      (entryOf r.rx key).map fun e => { e with ttl := e.ttl - n } := by
    unfold entryOf
    rw [hrx, List.find?_map]
    rfl
  constructor
  · rw [hrx, List.map_map]
    exact h.nodup
  · intro i hi
    rw [hentry, Option.map_eq_none_iff] at hi
    exact h.none i hi
  · intro i e hi
    rw [hentry, Option.map_eq_some_iff] at hi
    obtain ⟨e', he', rfl⟩ := hi
    obtain ⟨hholding, hmissing⟩ := h.some i e' he'
    refine ⟨?_, hmissing⟩
    obtain ⟨hs, hlinked, htiles⟩ := hholding.holes
    exact
      { key := hholding.key
        back := hholding.back
        front := hholding.front
        safe := hholding.safe
        holes := ⟨hs, linked_congr hlinked rfl rfl, htiles⟩
        stored := hholding.stored
        pattern := hholding.pattern }

/-! ## Runs -/

/-- What arrives: a fragment of one of the datagrams, or time. -/
inductive Arrival (ι : Type)
  | fragment (i : ι) (k : Nat) (alloc : Alloc) (frame : Frame)
  | seconds (n : Nat)

def Arrival.event : Arrival ι → Event
  | .fragment _ _ alloc frame => .fragment alloc frame
  | .seconds n => .seconds n

variable (ds) in
/-- The frame brings the fragment. -/
def Arrival.Of : Arrival ι → Prop
  | .fragment i k _ frame => (ds i).IsFragment k frame
  | .seconds _ => True

/-- An entry can be allocated where there is none, and none is too old. -/
def Arrival.Granted (r : Reassembler) : Arrival ι → Prop
  | .fragment _ _ alloc frame =>
      entryOf r.rx frame.key = none → r.free ≠ 0 ∧ alloc.memory = true
  | .seconds n => ∀ e ∈ r.rx, n < e.ttl

/-- The interface after an arrival. -/
def advance (r : Reassembler) (a : Arrival ι) : Option Reassembler :=
  (step r a.event).map Prod.fst

/-- What is handed up at each arrival. -/
def deliver (r : Reassembler) : List (Arrival ι) → Option (List (Option (List UInt8)))
  | [] => some []
  | a :: as =>
      (step r a.event).bind fun s =>
        (deliver s.1 as).map fun ups => s.2.map Up.data :: ups

variable (ds) in
/-- A payload is due when a fragment comes and none is missing, counting from the last time
it was handed up. -/
def due (got : ι → Nat → Bool) : List (Arrival ι) → List (Option (List UInt8))
  | [] => []
  | .fragment i k _ _ :: as => handedUp ds i k got :: due (received ds i k got) as
  | .seconds _ :: as => none :: due got as

theorem deliver_eq (hkeys : ∀ i j, (ds i).key = (ds j).key → i = j)
    (hshort : ∀ i, (ds i).Short) {got : ι → Nat → Bool} {as : List (Arrival ι)}
    {r : Reassembler} (h : Collected ds got r) (hof : ∀ a ∈ as, a.Of ds)
    (hgranted : Runs.Meets advance Arrival.Granted r as) :
    deliver r as = some (due ds got as) := by
  induction as generalizing got r with
  | nil => rfl
  | cons a as ih =>
      obtain ⟨ha, hrest⟩ := hgranted
      have hof' := fun b hmem => hof b (List.mem_cons_of_mem _ hmem)
      cases a with
      | fragment i k alloc frame =>
          obtain ⟨r', up, hstep, hup, hcollected⟩ :=
            collected_fragment hkeys h (hof _ List.mem_cons_self) (hshort i) ha
          have hstep : step r (Arrival.event (.fragment i k alloc frame)) = some (r', up) := hstep
          have hnext := ih hcollected hof' (hrest r' (by rw [advance, hstep]; rfl))
          simp only [deliver, hstep, Option.bind_some, hnext, Option.map_some, hup]
          rfl
      | seconds n =>
          have hcollected := collected_seconds h ha
          have hstep : step r (Arrival.event (.seconds n : Arrival ι)) =
              some (cipv6FragTimer r n, none) := rfl
          have hnext := ih hcollected hof' (hrest _ (by rw [advance, hstep]; rfl))
          simp only [deliver, hstep, Option.bind_some, hnext, Option.map_some]
          rfl

instance (r : Reassembler) : (a : Arrival ι) → Decidable (a.Granted r)
  | .fragment _ _ _ _ => inferInstanceAs (Decidable (_ → _))
  | .seconds _ => inferInstanceAs (Decidable (∀ e ∈ r.rx, _))

/-- A compressed UDP datagram of 33 bytes, 72 without compression, in three fragments. -/
def compressedDatagram : Datagram where
  tag := 1
  src := (2, [1])
  dst := (2, [2])
  payload := [0x7E, 0x33, 0xF0, 0, 1, 0, 2, 0xAB, 0xCD] ++ (List.range 24).map UInt8.ofNat
  count := 3
  cut i := [0, 56, 64, 72].getD i 72
  tag_lt := by decide
  known := by decide
  count_pos := by decide
  cut_zero := rfl
  cut_lt := by decide
  cut_aligned := by decide
  cut_last := by decide
  headers := by decide
  size_lt := by decide

/-- An IPv6 datagram of 44 bytes behind its dispatch byte, in two fragments. -/
def rawDatagram : Datagram where
  tag := 2
  src := (2, [1])
  dst := (2, [2])
  payload := 0x41 :: (List.range 44).map UInt8.ofNat
  count := 2
  cut i := [0, 24, 44].getD i 44
  tag_lt := by decide
  known := by decide
  count_pos := by decide
  cut_zero := rfl
  cut_lt := by decide
  cut_aligned := by decide
  cut_last := by decide
  headers := by decide
  size_lt := by decide

/-- The two of them. -/
def datagrams : Bool → Datagram
  | false => compressedDatagram
  | true => rawDatagram

/-- A fragment as it arrives, with ample memory. -/
def arrives (i : Bool) (k : Nat) : Arrival Bool :=
  .fragment i k ⟨true, false, fun _ => 0xFF⟩
    ⟨⟨2, [0xCA, 0xFE], [1]⟩, ⟨2, [0xCA, 0xFE], [2]⟩, false, (datagrams i).fragment k⟩

theorem arrives_of (i : Bool) {k : Nat} (h : k < (datagrams i).count) :
    (arrives i k).Of datagrams :=
  ⟨h, rfl, by cases i <;> rfl, by cases i <;> rfl⟩

end Lowpan
