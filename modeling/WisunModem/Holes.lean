import WisunModem.Reassembly

/-!
# The list in the holes

`Linked e prev hs` reads the list of holes `hs` out of the memory of an entry, from the
place `prev` where its beginning is kept.  A hole is described in the six bytes of its
`slot`, and holes are `Apart` if no slot reaches into the next hole.

* `linked_createHole`, `linked_splitHole` — what the functions do to the list;
* `linked_fillHole` — the loop finds the hole a fragment lies in, and splits it;
* `Spaced.fillHole` — the same where all offsets are multiples of eight.
-/

namespace Lowpan

/-! ## Memory -/

namespace Area

theorem bytes_write_out (a : Area) {pos i : Int} {data : List UInt8}
    (h : i < pos ∨ pos + data.length ≤ i) : (a.write pos data).bytes i = a.bytes i := by
  apply if_neg
  omega

theorem bytes_write16_out (a : Area) {pos i : Int} {value : Nat} (h : i < pos ∨ pos + 2 ≤ i) :
    (a.write16 pos value).bytes i = a.bytes i :=
  a.bytes_write_out h

theorem read16_write16 (a : Area) (pos : Int) {value : Nat} (h : value < 2 ^ 16) :
    (a.write16 pos value).read16 pos = value := by
  have hlow : (a.write16 pos value).bytes pos = UInt8.ofNat value := by
    unfold write16 write
    dsimp only
    rw [if_pos (by dsimp only [List.length_cons, List.length_nil]; omega), Int.sub_self]
    rfl
  have hhigh : (a.write16 pos value).bytes (pos + 1) = UInt8.ofNat (value / 2 ^ 8) := by
    unfold write16 write
    dsimp only
    rw [if_pos (by dsimp only [List.length_cons, List.length_nil]; omega),
      show (pos + 1 - pos).toNat = 1 by omega]
    rfl
  rw [read16, hlow, hhigh]
  simp only [UInt8.toNat_ofNat']
  omega

theorem read16_congr {a a' : Area} {pos : Int} (h : a'.bytes pos = a.bytes pos)
    (h' : a'.bytes (pos + 1) = a.bytes (pos + 1)) : a'.read16 pos = a.read16 pos := by
  rw [read16, read16, h, h']

theorem holePointer_bounds (a : Area) (offset : Nat) :
    (offset : Int) ≤ a.holePointer offset ∧ a.holePointer offset + 7 ≤ offset + 8 := by
  have := Bool.toNat_le (decide (offset % 2 = 1) != a.odd)
  unfold holePointer
  omega

end Area

/-- A place in an entry: its `offset`, or a byte of its buffer. -/
abbrev Spot := Option Int

/-- Only these places have changed. -/
structure Alters (P : Spot → Prop) (e e' : Entry) : Prop where
  offset : ¬P none → e'.offset = e.offset
  bytes : ∀ i, ¬P (some i) → e'.area.bytes i = e.area.bytes i
  odd : e'.area.odd = e.area.odd
  front : e'.area.front = e.area.front
  back : e'.area.back = e.area.back
  safe : e.area.safe = true → e'.area.safe = true
  rest : e' = { e with offset := e'.offset, area := e'.area }

theorem Alters.refl (P : Spot → Prop) (e : Entry) : Alters P e e := by
  constructor
  all_goals first | exact fun _ => rfl | exact fun _ _ => rfl | rfl | exact id

theorem Alters.trans {P Q : Spot → Prop} {e e' e'' : Entry} (h : Alters P e e')
    (h' : Alters Q e' e'') : Alters (fun x => P x ∨ Q x) e e'' where
  offset hn := (h'.offset fun hq => hn (.inr hq)).trans (h.offset fun hp => hn (.inl hp))
  bytes i hn := (h'.bytes i fun hq => hn (.inr hq)).trans (h.bytes i fun hp => hn (.inl hp))
  odd := h'.odd.trans h.odd
  front := h'.front.trans h.front
  back := h'.back.trans h.back
  safe hs := h'.safe (h.safe hs)
  rest := by
    have h₁ := h.rest
    have h₂ := h'.rest
    rw [h₁] at h₂
    exact h₂

theorem Alters.mono {P Q : Spot → Prop} {e e' : Entry} (h : Alters P e e')
    (himp : ∀ x, P x → Q x) : Alters Q e e' where
  offset hn := h.offset fun hp => hn (himp _ hp)
  bytes i hn := h.bytes i fun hp => hn (himp _ hp)
  odd := h.odd
  front := h.front
  back := h.back
  safe := h.safe
  rest := h.rest

theorem Alters.holePointer {P : Spot → Prop} {e e' : Entry} (h : Alters P e e') (offset : Nat) :
    e'.area.holePointer offset = e.area.holePointer offset := by
  rw [Area.holePointer, Area.holePointer, h.odd]

theorem Alters.read16 {P : Spot → Prop} {e e' : Entry} (h : Alters P e e') {pos : Int}
    (hn : ¬P (some pos)) (hn' : ¬P (some (pos + 1))) :
    e'.area.read16 pos = e.area.read16 pos :=
  Area.read16_congr (h.bytes _ hn) (h.bytes _ hn')

/-- The first bytes of a hole, which describe it. -/
def block (offset : Nat) : Spot → Prop
  | none => False
  | some i => (offset : Int) ≤ i ∧ i < offset + 8

/-- The six bytes in which a hole is described. -/
def slot (a : Area) (offset : Nat) : Spot → Prop
  | none => False
  | some i => a.holePointer offset ≤ i ∧ i < a.holePointer offset + 6

/-- Where the offset of a hole is kept. -/
def Prev.cell (a : Area) : Prev → Spot → Prop
  | .entry, x => x = none
  | .hole _, none => False
  | .hole offset, some i => a.holePointer offset + 4 ≤ i ∧ i < a.holePointer offset + 6

/-- A `Prev` inside the buffer. -/
def Prev.Within (back : Nat) : Prev → Prop
  | .entry => True
  | .hole offset => offset % 8 = 0 ∧ offset + 8 ≤ back

/-- The slot of a `Prev` lies inside the buffer. -/
def Prev.Inside (a : Area) : Prev → Prop
  | .entry => True
  | .hole offset => a.holePointer offset + 6 ≤ a.back

theorem Prev.Within.inside {a : Area} {prev : Prev} (h : prev.Within a.back) : prev.Inside a := by
  cases prev with
  | entry => trivial
  | hole offset =>
      have hpos := a.holePointer_bounds offset
      have hback := h.2
      change _ ≤ _
      omega

theorem slot_congr {a a' : Area} (h : a'.odd = a.odd) (offset : Nat) :
    slot a' offset = slot a offset := by
  funext x
  cases x with
  | none => rfl
  | some i => simp only [slot, Area.holePointer, h]

theorem slot_block {a : Area} {offset : Nat} {x : Spot} (hx : slot a offset x) :
    block offset x := by
  have hpos := a.holePointer_bounds offset
  cases x with
  | none => exact hx
  | some i => exact ⟨by have := hx.1; omega, by have := hx.2; omega⟩

theorem Prev.cell_congr {a a' : Area} (h : a'.odd = a.odd) (prev : Prev) :
    prev.cell a' = prev.cell a := by
  funext x
  cases prev with
  | entry => rfl
  | hole offset =>
      cases x with
      | none => rfl
      | some i => simp only [Prev.cell, Area.holePointer, h]

/-- A hole keeps the next one in its slot. -/
theorem Prev.cell_slot {a : Area} {offset : Nat} {x : Spot}
    (hx : (Prev.hole offset).cell a x) : slot a offset x := by
  cases x with
  | none => exact hx
  | some i => exact ⟨by have := hx.1; omega, hx.2⟩

theorem Alters.readPrev {P : Spot → Prop} {e e' : Entry} (h : Alters P e e') {prev : Prev}
    (hn : ∀ x, prev.cell e.area x → ¬P x) : e'.readPrev prev = e.readPrev prev := by
  cases prev with
  | entry => exact h.offset (hn none rfl)
  | hole offset =>
      have hread : e'.area.read16 (e.area.holePointer offset + 4) =
          e.area.read16 (e.area.holePointer offset + 4) := by
        apply h.read16
        · exact hn _ ⟨by omega, by omega⟩
        · exact hn _ ⟨by omega, by omega⟩
      simp only [Entry.readPrev, h.holePointer]
      exact hread

theorem alters_writePrev (e : Entry) {prev : Prev} (hwithin : prev.Inside e.area)
    (value : Nat) : Alters (prev.cell e.area) e (e.writePrev prev value) := by
  cases prev with
  | entry =>
      constructor
      · exact fun hn => absurd rfl hn
      all_goals first | exact fun _ _ => rfl | rfl | exact id
  | hole offset =>
      have hpos := e.area.holePointer_bounds offset
      have hback : e.area.holePointer offset + 6 ≤ e.area.back := hwithin
      constructor
      · exact fun _ => rfl
      · intro i hn
        apply Area.bytes_write16_out
        by_contra hin
        exact hn ⟨by omega, by omega⟩
      all_goals first | rfl | skip
      intro hsafe
      simp only [Entry.writePrev, Area.write16, Area.write, hsafe, Bool.true_and,
        decide_eq_true_eq, List.length_cons, List.length_nil]
      omega

theorem readPrev_writePrev (e : Entry) (prev : Prev) {value : Nat} (h : value < 2 ^ 16) :
    (e.writePrev prev value).readPrev prev = value := by
  cases prev with
  | entry => rfl
  | hole offset => exact Area.read16_write16 _ _ h

/-! ## The list -/

/-- The holes `hs` are listed in memory, from the place `prev` on. -/
def Linked (e : Entry) : Prev → List (Nat × Nat) → Prop
  | prev, [] => e.readPrev prev = 0xffff
  | prev, (first, last) :: hs =>
      e.readPrev prev = first ∧ e.area.read16 (e.area.holePointer first) = first ∧
        e.area.read16 (e.area.holePointer first + 2) = last ∧ Linked e (.hole first) hs

/-- Holes in order, at multiples of eight. -/
def Spaced (back : Nat) : List (Nat × Nat) → Prop
  | [] => True
  | (first, last) :: hs =>
      first % 8 = 0 ∧ first ≤ last ∧ last < back ∧ (∀ h ∈ hs, last < h.1) ∧ Spaced back hs

theorem Spaced.aligned {back : Nat} {hs : List (Nat × Nat)} (h : Spaced back hs) :
    ∀ hole ∈ hs, hole.1 % 8 = 0 := by
  induction hs with
  | nil => exact fun _ hmem => by cases hmem
  | cons hole hs ih =>
      intro other hmem
      rcases List.mem_cons.mp hmem with rfl | hmem
      · exact h.1
      · exact ih h.2.2.2.2 other hmem

/-- Holes in order, none of whose slots reaches into the next hole or out of the
buffer. -/
def Apart (a : Area) : List (Nat × Nat) → Prop
  | [] => True
  | (first, last) :: hs =>
      first ≤ last ∧ last < a.back ∧ a.holePointer first + 6 ≤ a.back ∧
        (∀ h ∈ hs, last < h.1 ∧ a.holePointer first + 6 ≤ h.1) ∧ Apart a hs

theorem Apart.congr {a a' : Area} (hodd : a'.odd = a.odd) (hback : a'.back = a.back)
    {hs : List (Nat × Nat)} (h : Apart a hs) : Apart a' hs := by
  induction hs with
  | nil => trivial
  | cons hole hs ih =>
      obtain ⟨hle, hlast, hslot, hrest, happ⟩ := h
      refine ⟨hle, by rw [hback]; exact hlast, ?_, ?_, ih happ⟩
      · rw [Area.holePointer, hodd, hback]
        exact hslot
      · intro h hmem
        rw [Area.holePointer, hodd]
        exact hrest h hmem

/-- The list is the same where its place and its slots are. -/
theorem Linked.alters {P : Spot → Prop} {e e' : Entry} (h : Alters P e e') {prev : Prev}
    {hs : List (Nat × Nat)} (hlinked : Linked e prev hs)
    (hprev : ∀ x, prev.cell e.area x → ¬P x)
    (hblocks : ∀ hole ∈ hs, ∀ x, slot e.area hole.1 x → ¬P x) : Linked e' prev hs := by
  induction hs generalizing prev with
  | nil => exact (h.readPrev hprev).trans hlinked
  | cons hole hs ih =>
      obtain ⟨hoff, hfirst, hlast, hrest⟩ := hlinked
      have hblock := hblocks hole List.mem_cons_self
      have hread (i : Nat) (hi : i ≤ 4) :
          e'.area.read16 (e.area.holePointer hole.1 + i) =
            e.area.read16 (e.area.holePointer hole.1 + i) := by
        apply h.read16
        · exact hblock _ ⟨by omega, by omega⟩
        · exact hblock _ ⟨by omega, by omega⟩
      refine ⟨(h.readPrev hprev).trans hoff, ?_, ?_, ?_⟩
      · rw [h.holePointer]
        have := hread 0 (by omega)
        simp only [Int.natCast_zero, Int.add_zero] at this
        exact this.trans hfirst
      · rw [h.holePointer]
        exact (hread 2 (by omega)).trans hlast
      · apply ih hrest
        · intro x hx
          exact hblock x (Prev.cell_slot hx)
        · exact fun other hmem => hblocks other (List.mem_cons_of_mem _ hmem)

/-- So it is from another place on which keeps the same offset. -/
theorem Linked.move {P : Spot → Prop} {e e' : Entry} (h : Alters P e e') {prev prev' : Prev}
    {hs : List (Nat × Nat)} (hlinked : Linked e prev hs)
    (hprev : e'.readPrev prev' = e.readPrev prev)
    (hblocks : ∀ hole ∈ hs, ∀ x, slot e.area hole.1 x → ¬P x) : Linked e' prev' hs := by
  cases hs with
  | nil => exact hprev.trans hlinked
  | cons hole hs =>
      obtain ⟨hoff, hfirst, hlast, hrest⟩ := hlinked
      have hlinked : Linked e (.hole hole.1) hs := hrest
      have hblock := hblocks hole List.mem_cons_self
      refine ⟨hprev.trans hoff, ?_, ?_, ?_⟩
      · rw [h.holePointer, h.read16]
        · exact hfirst
        · exact hblock _ ⟨by omega, by omega⟩
        · exact hblock _ ⟨by omega, by omega⟩
      · rw [h.holePointer, h.read16]
        · exact hlast
        · exact hblock _ ⟨by omega, by omega⟩
        · exact hblock _ ⟨by omega, by omega⟩
      · apply hlinked.alters h
        · exact fun x hx => hblock x (Prev.cell_slot hx)
        · exact fun other hmem => hblocks other (List.mem_cons_of_mem _ hmem)

/-! ## Creating and splitting holes -/

/-- A hole is described in its slot, and kept at `prev`. -/
theorem createHole_spec (e : Entry) {first last : Nat} {prev : Prev}
    (hfirst : (Prev.hole first).Inside e.area) (hwithin : prev.Inside e.area)
    (hlt : first < 2 ^ 16 ∧ last < 2 ^ 16 ∧ e.readPrev prev < 2 ^ 16)
    (hapart : ∀ x, prev.cell e.area x → ¬slot e.area first x) :
    Alters (fun x => slot e.area first x ∨ prev.cell e.area x) e (createHole e first last prev) ∧
      (createHole e first last prev).readPrev prev = first ∧
      (createHole e first last prev).area.read16 (e.area.holePointer first) = first ∧
      (createHole e first last prev).area.read16 (e.area.holePointer first + 2) = last ∧
      (createHole e first last prev).readPrev (.hole first) = e.readPrev prev := by
  have hpos := e.area.holePointer_bounds first
  have hback : e.area.holePointer first + 6 ≤ e.area.back := hfirst
  -- The description is written first.
  let e₁ : Entry :=
    { e with
      area := (e.area.write16 (e.area.holePointer first) first).write16
        (e.area.holePointer first + 2) last }
  have h₁ : Alters (slot e.area first) e e₁ := by
    constructor
    · exact fun _ => rfl
    · intro i hn
      have hout : i < e.area.holePointer first ∨ e.area.holePointer first + 6 ≤ i := by
        by_contra hin
        exact hn ⟨by omega, by omega⟩
      rw [Area.bytes_write16_out _ (by omega), Area.bytes_write16_out _ (by omega)]
    all_goals first | rfl | skip
    intro hsafe
    simp only [e₁, Area.write16, Area.write, hsafe, Bool.true_and, Bool.and_eq_true,
      decide_eq_true_eq, List.length_cons, List.length_nil]
    omega
  have hfirst₁ : e₁.area.read16 (e.area.holePointer first) = first := by
    have hkept : e₁.area.read16 (e.area.holePointer first) =
        (e.area.write16 (e.area.holePointer first) first).read16 (e.area.holePointer first) := by
      apply Area.read16_congr <;> exact Area.bytes_write16_out _ (by omega)
    rw [hkept]
    exact Area.read16_write16 _ _ hlt.1
  have hlast₁ : e₁.area.read16 (e.area.holePointer first + 2) = last :=
    Area.read16_write16 _ _ hlt.2.1
  have hprev₁ : e₁.readPrev prev = e.readPrev prev := h₁.readPrev hapart
  -- Then the offset of the next hole.
  let e₂ : Entry := e₁.writePrev (.hole first) (e₁.readPrev prev)
  have hfirst₁' : (Prev.hole first).Inside e₁.area := hfirst
  have h₂ : Alters ((Prev.hole first).cell e₁.area) e₁ e₂ := alters_writePrev e₁ hfirst₁' _
  have hnext₂ : e₂.readPrev (.hole first) = e.readPrev prev := by
    rw [← hprev₁]
    exact readPrev_writePrev e₁ (.hole first) (by rw [hprev₁]; exact hlt.2.2)
  -- At last the place before it.
  let e₃ : Entry := e₂.writePrev prev first
  have hback₂ : prev.Inside e₂.area := by
    cases prev with
    | entry => trivial
    | hole offset =>
        change e₂.area.holePointer offset + 6 ≤ e₂.area.back
        rw [(h₁.trans h₂).holePointer, (h₁.trans h₂).back]
        exact hwithin
  have h₃ : Alters (prev.cell e₂.area) e₂ e₃ := alters_writePrev e₂ hback₂ first
  have hcell₁ : (Prev.hole first).cell e₁.area = (Prev.hole first).cell e.area :=
    Prev.cell_congr h₁.odd _
  have hcell₂ : prev.cell e₂.area = prev.cell e.area :=
    Prev.cell_congr (h₂.odd.trans h₁.odd) _
  rw [hcell₁] at h₂
  rw [hcell₂] at h₃
  have hstays (i : Nat) (hi : i ≤ 2) : e₃.area.read16 (e.area.holePointer first + i) =
      e₁.area.read16 (e.area.holePointer first + i) := by
    have hout (j : Int) (hj : e.area.holePointer first ≤ j ∧ j < e.area.holePointer first + 4) :
        ¬(Prev.hole first).cell e.area (some j) ∧ ¬prev.cell e.area (some j) := by
      constructor
      · intro hin
        have := hin.1
        omega
      · intro hin
        exact hapart _ hin ⟨by omega, by omega⟩
    have hone := hout (e.area.holePointer first + i) (by omega)
    have htwo := hout (e.area.holePointer first + i + 1) (by omega)
    rw [h₃.read16 hone.2 htwo.2, h₂.read16 hone.1 htwo.1]
  have hresult : createHole e first last prev = e₃ := rfl
  rw [hresult]
  refine ⟨?_, readPrev_writePrev e₂ prev hlt.1, ?_, ?_, ?_⟩
  · apply ((h₁.trans h₂).trans h₃).mono
    rintro x ((hx | hx) | hx)
    · exact .inl hx
    · exact .inl (Prev.cell_slot hx)
    · exact .inr hx
  · have := hstays 0 (by omega)
    simp only [Int.natCast_zero, Int.add_zero] at this
    exact this.trans hfirst₁
  · exact (hstays 2 (by omega)).trans hlast₁
  · rw [← hnext₂]
    apply h₃.readPrev
    intro x hx
    rw [Prev.cell_congr (h₂.odd.trans h₁.odd)] at hx
    intro hin
    exact hapart x hin (Prev.cell_slot hx)

theorem linked_createHole {e : Entry} {first last : Nat} {prev : Prev} {hs : List (Nat × Nat)}
    (hlinked : Linked e prev hs) (hfirst : (Prev.hole first).Inside e.area)
    (hwithin : prev.Inside e.area)
    (hlt : first < 2 ^ 16 ∧ last < 2 ^ 16 ∧ e.readPrev prev < 2 ^ 16)
    (hapart : ∀ x, prev.cell e.area x → ¬slot e.area first x)
    (hblocks : ∀ hole ∈ hs, ∀ x, slot e.area hole.1 x →
      ¬slot e.area first x ∧ ¬prev.cell e.area x) :
    Linked (createHole e first last prev) prev ((first, last) :: hs) := by
  obtain ⟨halters, hprev, hread, hread', hnext⟩ :=
    createHole_spec e hfirst hwithin hlt hapart
  refine ⟨hprev, ?_, ?_, ?_⟩
  · rw [halters.holePointer]
    exact hread
  · rw [halters.holePointer]
    exact hread'
  · apply hlinked.move halters hnext
    rintro hole hmem x hx (hin | hin)
    · exact (hblocks hole hmem x hx).1 hin
    · exact (hblocks hole hmem x hx).2 hin

theorem Area.read16_lt (a : Area) (pos : Int) : a.read16 pos < 2 ^ 16 := by
  have h := (a.bytes pos).toNat_lt
  have h' := (a.bytes (pos + 1)).toNat_lt
  unfold read16
  omega

theorem linked_deleteHole {e : Entry} {first last : Nat} {prev : Prev} {hs : List (Nat × Nat)}
    (hlinked : Linked e prev ((first, last) :: hs)) (hwithin : prev.Inside e.area)
    (hblocks : ∀ hole ∈ hs, ∀ x, slot e.area hole.1 x → ¬prev.cell e.area x) :
    Alters (prev.cell e.area) e (deleteHole e first prev) ∧
      Linked (deleteHole e first prev) prev hs ∧
      (deleteHole e first prev).readPrev prev < 2 ^ 16 := by
  have hlt : e.readPrev (.hole first) < 2 ^ 16 := e.area.read16_lt _
  have halters := alters_writePrev e hwithin (e.readPrev (.hole first))
  have hread := readPrev_writePrev e prev hlt
  refine ⟨halters, ?_, ?_⟩
  · exact Linked.move halters hlinked.2.2.2 hread hblocks
  · unfold deleteHole
    rw [hread]
    exact hlt

/-- The place lies before the offset. -/
def Prev.Before (a : Area) (offset : Nat) : Prev → Prop
  | .entry => True
  | .hole other => a.holePointer other + 6 ≤ offset

theorem Prev.Before.mono {a : Area} {offset offset' : Nat} {prev : Prev}
    (h : prev.Before a offset) (hle : offset ≤ offset') : prev.Before a offset' := by
  cases prev with
  | entry => trivial
  | hole other =>
      have h : a.holePointer other + 6 ≤ offset := h
      change _ ≤ _
      omega

theorem Prev.Before.apart {a : Area} {offset : Nat} {prev : Prev} (h : prev.Before a offset)
    {other : Nat} (hle : offset ≤ other) {x : Spot} (hx : prev.cell a x) : ¬slot a other x := by
  have hpos := a.holePointer_bounds other
  cases prev with
  | entry =>
      cases hx
      exact id
  | hole offset' =>
      have hslot := Prev.cell_slot hx
      have hbefore : a.holePointer offset' + 6 ≤ offset := h
      cases x with
      | none => exact id
      | some i =>
          intro hin
          have := hslot.2
          have := hin.1
          omega

theorem slot_apart {a : Area} {offset other : Nat} (h : a.holePointer offset + 6 ≤ other)
    {x : Spot} (hx : slot a offset x) : ¬slot a other x := by
  have hpos := a.holePointer_bounds other
  cases x with
  | none => exact id
  | some i =>
      intro hin
      have := hx.2
      have := hin.1
      omega

/-- The list behind a hole is another one. -/
theorem Linked.cons {P : Spot → Prop} {e e' : Entry} (halters : Alters P e e') {prev : Prev}
    {f l : Nat} {hs hs' : List (Nat × Nat)} (hlinked : Linked e prev ((f, l) :: hs))
    (hrest : Linked e' (.hole f) hs') (hprev : ∀ x, prev.cell e.area x → ¬P x)
    (hfour : ∀ i, e.area.holePointer f ≤ i → i < e.area.holePointer f + 4 → ¬P (some i)) :
    Linked e' prev ((f, l) :: hs') := by
  obtain ⟨hoff, hfirst, hlast, -⟩ := hlinked
  refine ⟨(halters.readPrev hprev).trans hoff, ?_, ?_, hrest⟩
  · rw [halters.holePointer, halters.read16 (hfour _ (by omega) (by omega))
      (hfour _ (by omega) (by omega))]
    exact hfirst
  · rw [halters.holePointer, halters.read16 (hfour _ (by omega) (by omega))
      (hfour _ (by omega) (by omega))]
    exact hlast

/-- What a hole keeps of the next one lies behind its own offsets. -/
theorem cell_four {a : Area} {f other : Nat} (h : a.holePointer f + 6 ≤ other) {i : Int}
    (hlow : a.holePointer f ≤ i) (hhigh : i < a.holePointer f + 4) :
    ¬(slot a other (some i) ∨ (Prev.hole f).cell a (some i)) := by
  have hpos := a.holePointer_bounds other
  rintro (hin | hin)
  · have := hin.1
    omega
  · have := hin.1
    omega

/-- Places are inside the buffer, and before an offset, as they were. -/
theorem Alters.inside {P : Spot → Prop} {e e' : Entry} (h : Alters P e e') (prev : Prev)
    (hin : prev.Inside e.area) : prev.Inside e'.area := by
  cases prev with
  | entry => trivial
  | hole offset =>
      change e'.area.holePointer offset + 6 ≤ e'.area.back
      rw [h.holePointer, h.back]
      exact hin

theorem Alters.before {P : Spot → Prop} {e e' : Entry} (h : Alters P e e') (prev : Prev)
    {offset : Nat} (hin : prev.Before e.area offset) : prev.Before e'.area offset := by
  cases prev with
  | entry => trivial
  | hole other =>
      change e'.area.holePointer other + 6 ≤ offset
      rw [h.holePointer]
      exact hin

/-- What is left of a hole. -/
def leftOver (first last holeFirst holeLast : Nat) : List (Nat × Nat) :=
  (if first > holeFirst then [(holeFirst, first - 1)] else []) ++
    if last < holeLast then [(last + 1, holeLast)] else []

/-- **A hole is split** where a fragment lies in it, if there is room for what is left. -/
theorem linked_splitHole {e : Entry} {prev : Prev} {f l first last : Nat}
    {hs : List (Nat × Nat)} (hlinked : Linked e prev ((f, l) :: hs))
    (hap : Apart e.area ((f, l) :: hs)) (hap' : Apart e.area (leftOver first last f l ++ hs))
    (hwithin : prev.Inside e.area) (hback : e.area.back < 2 ^ 16) (hbefore : prev.Before e.area f)
    (hin : f ≤ first ∧ first ≤ last + 1 ∧ last ≤ l) :
    Linked (splitHole e first last f f l prev) prev (leftOver first last f l ++ hs) ∧
      Alters (fun x => prev.cell e.area x ∨ ∃ h ∈ leftOver first last f l, slot e.area h.1 x) e
        (splitHole e first last f f l prev) := by
  obtain ⟨hfl, hl, hroom, hrest, _⟩ := hap
  have hpos := e.area.holePointer_bounds f
  have hfar (hole : Nat × Nat) (hmem : hole ∈ hs) :
      e.area.holePointer f + 6 ≤ hole.1 ∧ l < hole.1 :=
    ⟨(hrest hole hmem).2, (hrest hole hmem).1⟩
  obtain ⟨halters₁, hlinked₁, hlt₁⟩ := linked_deleteHole hlinked hwithin
    (fun hole hmem x hx hcell => hbefore.apart (by have := hfar hole hmem; omega) hcell hx)
  have hcell₁ : prev.cell (deleteHole e f prev).area = prev.cell e.area :=
    Prev.cell_congr halters₁.odd _
  have hwithin₁ : prev.Inside (deleteHole e f prev).area := halters₁.inside prev hwithin
  have hbefore₁ : prev.Before (deleteHole e f prev).area f := halters₁.before prev hbefore
  unfold splitHole
  unfold leftOver at hap' ⊢
  dsimp only
  generalize deleteHole e f prev = e₁ at *
  -- The hole behind the fragment, kept at `p`.
  have hbehind (e₂ : Entry) (p : Prev) (hodd : e₂.area.odd = e.area.odd)
      (hb : e₂.area.back = e.area.back) (hlinked₂ : Linked e₂ p hs) (hp : p.Inside e₂.area)
      (hpb : p.Before e₂.area (last + 1)) (hlt : e₂.readPrev p < 2 ^ 16) (hmore : last < l)
      (hroom : Apart e₂.area ((last + 1, l) :: hs)) :
      Linked (createHole e₂ (last + 1) l p) p ((last + 1, l) :: hs) ∧
        Alters (fun x => slot e.area (last + 1) x ∨ p.cell e.area x) e₂
          (createHole e₂ (last + 1) l p) := by
    obtain ⟨_, _, hfit, hrest', _⟩ := hroom
    have hnums : last + 1 < 2 ^ 16 ∧ l < 2 ^ 16 ∧ e₂.readPrev p < 2 ^ 16 := by
      exact ⟨by omega, by omega, hlt⟩
    have hspec := (createHole_spec e₂ hfit hp hnums (fun x hx => hpb.apart (Nat.le_refl _) hx)).1
    rw [slot_congr hodd, Prev.cell_congr hodd] at hspec
    refine ⟨linked_createHole hlinked₂ hfit hp hnums
      (fun x hx => hpb.apart (Nat.le_refl _) hx) ?_, hspec⟩
    intro hole hmem x hx
    have hnext := hrest' hole hmem
    refine ⟨fun hin => slot_apart hnext.2 hin hx, fun hin => ?_⟩
    exact hpb.apart (show last + 1 ≤ hole.1 by omega) hin hx
  by_cases hfront : first > f
  · simp only [if_pos hfront] at hap' ⊢
    have hfit : (Prev.hole f).Inside e₁.area :=
      halters₁.inside (.hole f) hroom
    have hnums : f < 2 ^ 16 ∧ first - 1 < 2 ^ 16 ∧ e₁.readPrev prev < 2 ^ 16 :=
      ⟨by omega, by omega, hlt₁⟩
    have hlinked₂ : Linked (createHole e₁ f (first - 1) prev) prev ((f, first - 1) :: hs) :=
      linked_createHole hlinked₁ hfit hwithin₁ hnums
      (fun x hx => hbefore₁.apart (Nat.le_refl f) hx) (by
        intro hole hmem x hx
        have := hfar hole hmem
        refine ⟨fun hin => slot_apart (a := e₁.area) ?_ hin hx,
          fun hin => hbefore₁.apart (show f ≤ hole.1 by omega) hin hx⟩
        rw [halters₁.holePointer]
        exact this.1)
    obtain ⟨halters₂, -, -, -, hnext₂⟩ := @createHole_spec e₁ f (first - 1) prev hfit
      hwithin₁ hnums (fun x hx => hbefore₁.apart (Nat.le_refl f) hx)
    rw [slot_congr halters₁.odd, hcell₁] at halters₂
    have hcell₂ : prev.cell (createHole e₁ f (first - 1) prev).area = prev.cell e.area :=
      Prev.cell_congr (halters₂.odd.trans halters₁.odd) _
    generalize createHole e₁ f (first - 1) prev = e₂ at *
    have h₁₂ := halters₁.trans halters₂
    by_cases hmore : last < l
    · simp only [if_pos hmore] at hap' ⊢
      have hslots : e.area.holePointer f + 6 ≤ last + 1 := by
        have := (hap'.2.2.2.1 (last + 1, l) (by simp)).2
        dsimp only at this
        omega
      obtain ⟨hlinked₃, halters₃⟩ := hbehind e₂ (.hole f) h₁₂.odd h₁₂.back hlinked₂.2.2.2
        (h₁₂.inside (.hole f) hroom)
        (h₁₂.before (.hole f) (show _ ≤ _ by omega)) (by rw [hnext₂]; exact hlt₁)
        hmore (hap'.2.2.2.2.congr h₁₂.odd h₁₂.back)
      constructor
      · apply Linked.cons halters₃ hlinked₂ hlinked₃
        · rintro x hx (hin | hin)
          · rw [hcell₂] at hx
            exact (hbefore.mono (by omega)).apart (Nat.le_refl _) hx hin
          · rw [hcell₂] at hx
            exact hbefore.apart (Nat.le_refl f) hx (Prev.cell_slot hin)
        · intro i hlow hhigh
          rw [h₁₂.holePointer] at hlow hhigh
          exact cell_four (by omega) hlow hhigh
      · apply (h₁₂.trans halters₃).mono
        rintro x ((hx | hx | hx) | hx | hx)
        · exact .inl hx
        · exact .inr ⟨(f, first - 1), by simp, hx⟩
        · exact .inl hx
        · exact .inr ⟨(last + 1, l), by simp, hx⟩
        · exact .inr ⟨(f, first - 1), by simp, Prev.cell_slot hx⟩
    · simp only [if_neg hmore, List.append_nil]
      refine ⟨hlinked₂, h₁₂.mono ?_⟩
      rintro x (hx | hx | hx)
      · exact .inl hx
      · exact .inr ⟨(f, first - 1), by simp, hx⟩
      · exact .inl hx
  · simp only [if_neg hfront, List.nil_append] at hap' ⊢
    by_cases hmore : last < l
    · simp only [if_pos hmore] at hap' ⊢
      obtain ⟨hlinked₃, halters₃⟩ := hbehind e₁ prev halters₁.odd halters₁.back hlinked₁ hwithin₁
        (hbefore₁.mono (by omega)) hlt₁ hmore (hap'.congr halters₁.odd halters₁.back)
      refine ⟨hlinked₃, (halters₁.trans halters₃).mono ?_⟩
      rintro x (hx | hx | hx)
      · exact .inl hx
      · exact .inr ⟨(last + 1, l), by simp, hx⟩
      · exact .inl hx
    · simp only [if_neg hmore]
      exact ⟨hlinked₁, halters₁.mono fun x hx => .inl hx⟩

/-! ## The loop -/

/-- The fragment lies in no hole, or in one of them. -/
def Fits (first last : Nat) (hole : Nat × Nat) : Prop :=
  first > hole.2 ∨ last < hole.1 ∨
    hole.1 ≤ first ∧ last ≤ hole.2 ∧ (last < hole.2 → (last + 1) % 8 = 0)

/-- The holes behind a fragment. -/
def fillRanges (first last : Nat) : List (Nat × Nat) → List (Nat × Nat)
  | [] => []
  | (f, l) :: hs =>
      if first > l ∨ last < f then (f, l) :: fillRanges first last hs
      else leftOver first last f l ++ hs

theorem mem_leftOver {first last f l : Nat} {h : Nat × Nat} :
    h ∈ leftOver first last f l ↔
      f < first ∧ h = (f, first - 1) ∨ last < l ∧ h = (last + 1, l) := by
  unfold leftOver
  by_cases hfront : first > f <;> by_cases hmore : last < l <;> simp [hfront, hmore]

/-- What is left lies in the holes there were. -/
theorem mem_fillRanges {first last : Nat} {hs : List (Nat × Nat)}
    (hfits : ∀ hole ∈ hs, Fits first last hole) {h : Nat × Nat}
    (hmem : h ∈ fillRanges first last hs) : ∃ hole ∈ hs, hole.1 ≤ h.1 ∧ h.2 ≤ hole.2 := by
  induction hs with
  | nil => cases hmem
  | cons hole hs ih =>
      have hfit := hfits hole List.mem_cons_self
      unfold fillRanges at hmem
      split at hmem
      · rcases List.mem_cons.mp hmem with rfl | hmem
        · exact ⟨_, List.mem_cons_self, Nat.le_refl _, Nat.le_refl _⟩
        · obtain ⟨hole', hmem', hin⟩ :=
            ih (fun hole hmem => hfits hole (List.mem_cons_of_mem _ hmem)) hmem
          exact ⟨hole', List.mem_cons_of_mem _ hmem', hin⟩
      · rename_i hhit
        rcases List.mem_append.mp hmem with hmem | hmem
        · refine ⟨hole, List.mem_cons_self, ?_⟩
          have hin : hole.1 ≤ first ∧ last ≤ hole.2 := by
            rcases hfit with h | h | h
            · exact absurd (.inl h) hhit
            · exact absurd (.inr h) hhit
            · exact ⟨h.1, h.2.1⟩
          rcases mem_leftOver.mp hmem with ⟨hlt, rfl⟩ | ⟨hlt, rfl⟩
          · exact ⟨Nat.le_refl _, by dsimp only; omega⟩
          · exact ⟨by dsimp only; omega, Nat.le_refl _⟩
        · exact ⟨h, List.mem_cons_of_mem _ hmem, Nat.le_refl _, Nat.le_refl _⟩

theorem spaced_fillRanges {back first last : Nat} {hs : List (Nat × Nat)}
    (hspaced : Spaced back hs) (hfits : ∀ hole ∈ hs, Fits first last hole) (hle : first ≤ last) :
    Spaced back (fillRanges first last hs) := by
  induction hs with
  | nil => trivial
  | cons hole hs ih =>
      obtain ⟨f, l⟩ := hole
      obtain ⟨hf, hfl, hl, hrest, hspaced'⟩ := hspaced
      have hfit := hfits (f, l) List.mem_cons_self
      have hfits' := fun hole hmem => hfits hole (List.mem_cons_of_mem _ hmem)
      unfold fillRanges
      split
      · refine ⟨hf, hfl, hl, ?_, ih hspaced' hfits'⟩
        intro h hmem
        obtain ⟨hole, hmem', hin⟩ := mem_fillRanges hfits' hmem
        have := hrest hole hmem'
        omega
      · rename_i hhit
        have hin : f ≤ first ∧ last ≤ l ∧ (last < l → (last + 1) % 8 = 0) := by
          rcases hfit with h | h | h
          · exact absurd (.inl h) hhit
          · exact absurd (.inr h) hhit
          · exact h
        have hbehind : Spaced back ((if last < l then [(last + 1, l)] else []) ++ hs) := by
          split
          · rename_i hmore
            exact ⟨hin.2.2 hmore, hmore, hl, hrest, hspaced'⟩
          · exact hspaced'
        unfold leftOver
        rw [List.append_assoc]
        split
        · refine ⟨hf, by omega, by omega, ?_, hbehind⟩
          intro h hmem
          have hmem : h ∈ (if last < l then [(last + 1, l)] else []) ++ hs := hmem
          rcases List.mem_append.mp hmem with hmem | hmem
          · split at hmem
            · rw [List.mem_singleton.mp hmem]
              dsimp only
              omega
            · cases hmem
          · have := hrest h hmem
            omega
        · exact hbehind

/-- A fragment lies beside the hole or in it. -/
def Beside (first last : Nat) (hole : Nat × Nat) : Prop :=
  first > hole.2 ∨ last < hole.1 ∨ hole.1 ≤ first ∧ last ≤ hole.2

theorem Fits.beside {first last : Nat} {hole : Nat × Nat} (h : Fits first last hole) :
    Beside first last hole := by
  rcases h with h | h | h
  · exact .inl h
  · exact .inr (.inl h)
  · exact .inr (.inr ⟨h.1, h.2.1⟩)

/-- A hole in the list has an offset which is not the end of it. -/
theorem Linked.next_ne {e : Entry} {prev : Prev} {hs : List (Nat × Nat)}
    (hlinked : Linked e prev hs) (hap : Apart e.area hs) (hback : e.area.back < 2 ^ 16)
    (hsome : hs ≠ []) : e.readPrev prev ≠ 0xffff := by
  cases hs with
  | nil => exact absurd rfl hsome
  | cons hole hs =>
      have hoff := hlinked.1
      have hpos := e.area.holePointer_bounds hole.1
      have hslot := hap.2.2.1
      omega

/-- **The loop finds the hole in which a fragment lies, and splits it.** -/
theorem linked_fillHole {e : Entry} {prev : Prev} {first last : Nat} {hs : List (Nat × Nat)}
    (fuel : Nat) (hfuel : hs.length ≤ fuel) (hsome : hs ≠ []) (hlinked : Linked e prev hs)
    (hap : Apart e.area hs) (hap' : Apart e.area (fillRanges first last hs))
    (hwithin : prev.Inside e.area) (hback : e.area.back < 2 ^ 16)
    (hbefore : ∀ hole ∈ hs, prev.Before e.area hole.1)
    (hbeside : ∀ hole ∈ hs, Beside first last hole) (hle : first ≤ last + 1) :
    ∃ e', fillHole fuel e first last (e.readPrev prev) prev = some e' ∧
      Linked e' prev (fillRanges first last hs) ∧
      Alters (fun x => prev.cell e.area x ∨ ∃ h ∈ fillRanges first last hs, slot e.area h.1 x)
        e e' := by
  induction hs generalizing prev fuel with
  | nil => exact absurd rfl hsome
  | cons hole hs ih =>
      obtain ⟨f, l⟩ := hole
      obtain ⟨fuel, rfl⟩ : ∃ m, fuel = m + 1 := ⟨fuel - 1, by simp at hfuel; omega⟩
      obtain ⟨hoff, hread, hread', hrest⟩ := hlinked
      have hlinked : Linked e prev ((f, l) :: hs) := ⟨hoff, hread, hread', hrest⟩
      have hb := hbefore (f, l) List.mem_cons_self
      unfold fillHole
      unfold fillRanges at hap' ⊢
      dsimp only
      rw [hoff, hread, hread']
      by_cases hskip : first > l ∨ last < f
      · simp only [if_pos hskip] at hap' ⊢
        by_cases hend : e.readPrev (.hole f) = 0xffff
        · rw [if_pos hend]
          have hnil : hs = [] := by
            by_contra hmore
            exact hrest.next_ne hap.2.2.2.2 hback hmore hend
          subst hnil
          exact ⟨e, rfl, hlinked, .refl _ e⟩
        · rw [if_neg hend]
          have hmore : hs ≠ [] := by
            rintro rfl
            exact hend hrest
          obtain ⟨e', hfill, hlinked', halters⟩ := ih fuel
            (by simpa using hfuel) hmore hrest hap.2.2.2.2 hap'.2.2.2.2 hap.2.2.1
            (fun hole hmem => (hap.2.2.2.1 hole hmem).2)
            (fun hole hmem => hbeside hole (List.mem_cons_of_mem _ hmem))
          have hnew (h : Nat × Nat) (hmem : h ∈ fillRanges first last hs) :
              e.area.holePointer f + 6 ≤ h.1 := (hap'.2.2.2.1 h hmem).2
          have hpos := e.area.holePointer_bounds f
          refine ⟨e', hfill, hlinked.cons halters hlinked' ?_ ?_, halters.mono ?_⟩
          · rintro x hx (hin | ⟨h, hmem, hin⟩)
            · exact hb.apart (Nat.le_refl f) hx (Prev.cell_slot hin)
            · exact hb.apart (show f ≤ h.1 by have := hnew h hmem; omega) hx hin
          · rintro i hlow hhigh (hin | ⟨h, hmem, hin⟩)
            · have := hin.1
              omega
            · exact cell_four (hnew h hmem) hlow hhigh (.inl hin)
          · rintro x (hx | ⟨h, hmem, hx⟩)
            · exact .inr ⟨(f, l), List.mem_cons_self, Prev.cell_slot hx⟩
            · exact .inr ⟨h, List.mem_cons_of_mem _ hmem, hx⟩
      · simp only [if_neg hskip] at hap' ⊢
        obtain ⟨hlow, hhigh⟩ := not_or.mp hskip
        have hin : f ≤ first ∧ last ≤ l := by
          rcases hbeside (f, l) List.mem_cons_self with h | h | h
          · exact absurd h hlow
          · exact absurd h hhigh
          · exact h
        have hinside : ¬(first < f ∨ last > l) := by omega
        rw [if_neg hinside]
        obtain ⟨hsplit, halters⟩ := linked_splitHole hlinked hap hap' hwithin hback hb
          ⟨hin.1, hle, hin.2⟩
        refine ⟨_, rfl, hsplit, halters.mono ?_⟩
        rintro x (hx | ⟨h, hmem, hx⟩)
        · exact .inl hx
        · exact .inr ⟨h, List.mem_append_left _ hmem, hx⟩

/-! ## Offsets which are multiples of eight -/

/-- Holes at multiples of eight are apart. -/
theorem Spaced.apart {a : Area} {hs : List (Nat × Nat)} (h : Spaced a.back hs)
    (hback : a.back % 8 = 0) : Apart a hs := by
  induction hs with
  | nil => trivial
  | cons hole hs ih =>
      obtain ⟨f, l⟩ := hole
      obtain ⟨hf, hfl, hl, hrest, hspaced⟩ := h
      have hpos := a.holePointer_bounds f
      refine ⟨hfl, hl, by omega, ?_, ih hspaced⟩
      intro hole hmem
      have := hrest hole hmem
      have := hspaced.aligned hole hmem
      exact ⟨by omega, by omega⟩

/-- The loop, where fragments begin and end at multiples of eight. -/
theorem Spaced.fillHole {e : Entry} {first last : Nat} {hs : List (Nat × Nat)} (fuel : Nat)
    (hfuel : hs.length ≤ fuel) (hsome : hs ≠ []) (hlinked : Linked e .entry hs)
    (hspaced : Spaced e.area.back hs) (hback : e.area.back % 8 = 0 ∧ e.area.back < 2 ^ 16)
    (hfits : ∀ hole ∈ hs, Fits first last hole) (hle : first ≤ last) :
    ∃ e', Lowpan.fillHole fuel e first last e.offset .entry = some e' ∧
      Linked e' .entry (fillRanges first last hs) ∧
      Alters (fun x => x = none ∨ ∃ h ∈ fillRanges first last hs, block h.1 x) e e' := by
  obtain ⟨e', hfill, hlinked', halters⟩ := linked_fillHole fuel hfuel hsome hlinked
    (hspaced.apart hback.1) ((spaced_fillRanges hspaced hfits hle).apart hback.1) trivial hback.2
    (fun _ _ => trivial) (fun hole hmem => (hfits hole hmem).beside) (by omega)
  refine ⟨e', hfill, hlinked', halters.mono ?_⟩
  rintro x (hx | ⟨h, hmem, hx⟩)
  · exact .inl hx
  · exact .inr ⟨h, hmem, slot_block hx⟩

end Lowpan
