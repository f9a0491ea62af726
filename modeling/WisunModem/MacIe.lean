import Mathlib.Data.Nat.Bitwise
import WisunModem.Tlv

/-!
# Information elements of a MAC frame

Header elements, payload elements and the elements nested in a Wi-SUN payload element differ in
how a header of sixteen bits is divided between the length and the id.  The four searches are the
walk of `Tlv` with the masks of `mac_ie_lib.c`; a found element is what the function stores in
`content_ptr` (here an offset into the area) and `length`, which is also what it returns.

* `discover_exact_iff` — which areas are searched without a mistake: all of them by
  `mac_ie_nested_discover`, which looks at the remaining length, and by the other three those
  that hold the wanted element or end with the last element.
-/

namespace MacIe

open Tlv

def MAC_IE_HEADER_LENGTH_MASK : Nat := 0x007f
def MAC_IE_HEADER_ID_MASK : Nat := 0x7f80
def MAC_IE_PAYLOAD_LENGTH_MASK : Nat := 0x07ff
def MAC_IE_PAYLOAD_ID_MASK : Nat := 0x7800
def MAC_IE_TYPE_PAYLOAD_MASK : Nat := 0x8000

def MAC_NESTED_LONG_IE_PAYLOAD_LENGTH_MASK : Nat := 0x07ff
def MAC_NESTED_LONG_IE_PAYLOAD_ID_MASK : Nat := 0x7800
def MAC_NESTED_SHORT_IE_PAYLOAD_LENGTH_MASK : Nat := 0x00ff
def MAC_NESTED_SHORT_IE_PAYLOAD_ID_MASK : Nat := 0x7f00
def MAC_NESTED_IE_TYPE_LONG_MASK : Nat := 0x8000

/-! ## Fields of a header -/

/-- What a parse function makes of a header. -/
structure Parsed where
  length : Nat
  id : Nat
  /-- Only nested elements have two forms. -/
  type_long : Bool
deriving DecidableEq, Repr

def mac_ie_header_parse (ie_dummy : Nat) : Parsed where
  length := ie_dummy &&& MAC_IE_HEADER_LENGTH_MASK
  id := (ie_dummy &&& MAC_IE_HEADER_ID_MASK) >>> 7
  type_long := false

def mac_ie_payload_parse (ie_dummy : Nat) : Parsed where
  length := ie_dummy &&& MAC_IE_PAYLOAD_LENGTH_MASK
  id := (ie_dummy &&& MAC_IE_PAYLOAD_ID_MASK) >>> 11
  type_long := false

def mac_ie_nested_id_parse (ie_dummy : Nat) : Parsed :=
  if ie_dummy &&& MAC_NESTED_IE_TYPE_LONG_MASK ≠ 0 then
    { length := ie_dummy &&& MAC_NESTED_LONG_IE_PAYLOAD_LENGTH_MASK
      id := (ie_dummy &&& MAC_NESTED_LONG_IE_PAYLOAD_ID_MASK) >>> 11
      type_long := true }
  else
    { length := ie_dummy &&& MAC_NESTED_SHORT_IE_PAYLOAD_LENGTH_MASK
      id := (ie_dummy &&& MAC_NESTED_SHORT_IE_PAYLOAD_ID_MASK) >>> 8
      type_long := false }

def mac_ie_header_base_write (type length : Nat) : Nat :=
  (length &&& MAC_IE_HEADER_LENGTH_MASK) ||| ((type <<< 7) &&& MAC_IE_HEADER_ID_MASK)

def mac_ie_payload_base_write (type length : Nat) : Nat :=
  MAC_IE_TYPE_PAYLOAD_MASK ||| (length &&& MAC_IE_PAYLOAD_LENGTH_MASK) |||
    ((type <<< 11) &&& MAC_IE_PAYLOAD_ID_MASK)

def mac_ie_nested_ie_long_base_write (sub_id length : Nat) : Nat :=
  MAC_NESTED_IE_TYPE_LONG_MASK ||| (length &&& MAC_NESTED_LONG_IE_PAYLOAD_LENGTH_MASK) |||
    ((sub_id <<< 11) &&& MAC_NESTED_LONG_IE_PAYLOAD_ID_MASK)

def mac_ie_nested_ie_short_base_write (sub_id length : Nat) : Nat :=
  (length &&& MAC_NESTED_SHORT_IE_PAYLOAD_LENGTH_MASK) |||
    ((sub_id <<< 8) &&& MAC_NESTED_SHORT_IE_PAYLOAD_ID_MASK)

theorem and_low (h i : Nat) : h &&& (2 ^ i - 1) = h % 2 ^ i := Nat.and_two_pow_sub_one_eq_mod ..

theorem and_high (h i j : Nat) : (h &&& ((2 ^ j - 1) <<< i)) >>> i = h / 2 ^ i % 2 ^ j := by
  rw [Nat.shiftRight_and_distrib, Nat.shiftLeft_shiftRight, and_low, Nat.shiftRight_eq_div_pow]

/-- An id and a length in their places. -/
theorem packed {i j id length : Nat} (hid : id < 2 ^ j) (hlength : length < 2 ^ i) :
    (length &&& (2 ^ i - 1)) ||| ((id <<< i) &&& ((2 ^ j - 1) <<< i)) =
      2 ^ i * id + length := by
  rw [← Nat.shiftLeft_and_distrib, and_low, and_low, Nat.mod_eq_of_lt hid,
    Nat.mod_eq_of_lt hlength, Nat.two_pow_add_eq_or_of_lt hlength, Nat.shiftLeft_eq,
    Nat.mul_comm id, Nat.or_comm]

theorem mac_ie_header_parse_eq (h : Nat) :
    mac_ie_header_parse h = ⟨h % 2 ^ 7, h / 2 ^ 7 % 2 ^ 8, false⟩ := by
  have hlow := and_low h 7
  have hhigh := and_high h 7 8
  exact congrArg₂ (fun length id => Parsed.mk length id false) hlow hhigh

theorem mac_ie_payload_parse_eq (h : Nat) :
    mac_ie_payload_parse h = ⟨h % 2 ^ 11, h / 2 ^ 11 % 2 ^ 4, false⟩ := by
  have hlow := and_low h 11
  have hhigh := and_high h 11 4
  exact congrArg₂ (fun length id => Parsed.mk length id false) hlow hhigh

theorem type_long_iff (h : Nat) :
    h &&& MAC_NESTED_IE_TYPE_LONG_MASK ≠ 0 ↔ h / 2 ^ 15 % 2 = 1 := by
  have hbit : h &&& 2 ^ 15 = (h.testBit 15).toNat * 2 ^ 15 := Nat.and_two_pow ..
  have htest : h.testBit 15 = decide (h / 2 ^ 15 % 2 = 1) := Nat.testBit_eq_decide_div_mod_eq
  change h &&& 2 ^ 15 ≠ 0 ↔ _
  rw [hbit, htest]
  by_cases hlong : h / 2 ^ 15 % 2 = 1 <;> simp

theorem mac_ie_nested_id_parse_eq (h : Nat) :
    mac_ie_nested_id_parse h =
      if h / 2 ^ 15 % 2 = 1 then ⟨h % 2 ^ 11, h / 2 ^ 11 % 2 ^ 4, true⟩
      else ⟨h % 2 ^ 8, h / 2 ^ 8 % 2 ^ 7, false⟩ := by
  have hlong := and_high h 11 4
  have hshort := and_high h 8 7
  have hlow := and_low h 11
  have hbyte := and_low h 8
  unfold mac_ie_nested_id_parse
  simp only [type_long_iff]
  split
  · exact congrArg₂ (fun length id => Parsed.mk length id true) hlow hlong
  · exact congrArg₂ (fun length id => Parsed.mk length id false) hbyte hshort

/-! ## Elements as they are written -/

theorem mac_ie_header_base_write_eq {type length : Nat} (htype : type < 2 ^ 8)
    (hlength : length < 2 ^ 7) :
    mac_ie_header_base_write type length = 2 ^ 7 * type + length :=
  packed htype hlength

theorem mac_ie_payload_base_write_eq {type length : Nat} (htype : type < 2 ^ 4)
    (hlength : length < 2 ^ 11) :
    mac_ie_payload_base_write type length = 2 ^ 15 + (2 ^ 11 * type + length) := by
  have hpacked := packed htype hlength
  have hlt : 2 ^ 11 * type + length < 2 ^ 15 := by omega
  have htop := Nat.two_pow_add_eq_or_of_lt hlt 1
  unfold mac_ie_payload_base_write
  rw [Nat.or_assoc]
  exact (congrArg (MAC_IE_TYPE_PAYLOAD_MASK ||| ·) hpacked).trans htop.symm

theorem mac_ie_nested_ie_long_base_write_eq {sub_id length : Nat} (hid : sub_id < 2 ^ 4)
    (hlength : length < 2 ^ 11) :
    mac_ie_nested_ie_long_base_write sub_id length = 2 ^ 15 + (2 ^ 11 * sub_id + length) :=
  mac_ie_payload_base_write_eq hid hlength

theorem mac_ie_nested_ie_short_base_write_eq {sub_id length : Nat} (hid : sub_id < 2 ^ 7)
    (hlength : length < 2 ^ 8) :
    mac_ie_nested_ie_short_base_write sub_id length = 2 ^ 8 * sub_id + length :=
  packed hid hlength

/-! ## Searches -/

/-- A walk that asks for the id and the form of an element, and looks at the remaining length if
`checked`. -/
def byId (parse : Nat → Parsed) (checked : Bool) (hlen : ∀ h, (parse h).length < 2 ^ 11)
    (id : Nat) (type_long : Bool) : Walker where
  least := 2
  checked := checked
  len h := (parse h).length
  test h _ := some (decide (id = (parse h).id ∧ type_long = (parse h).type_long))
  skip := 0
  two_le_least := by decide
  least_le := by decide
  len_lt := hlen
  test_take _ _ _ := rfl
  test_reads _ _ _ := rfl
  skip_le _ _ _ := Nat.zero_le _
  least_le_len _ _ _ := Nat.le_add_left _ _

theorem header_length_lt (h : Nat) : (mac_ie_header_parse h).length < 2 ^ 11 := by
  rw [mac_ie_header_parse_eq]
  change h % 2 ^ 7 < 2 ^ 11
  omega

theorem payload_length_lt (h : Nat) : (mac_ie_payload_parse h).length < 2 ^ 11 := by
  rw [mac_ie_payload_parse_eq]
  change h % 2 ^ 11 < 2 ^ 11
  omega

theorem nested_length_lt (h : Nat) : (mac_ie_nested_id_parse h).length < 2 ^ 11 := by
  rw [mac_ie_nested_id_parse_eq]
  split
  · change h % 2 ^ 11 < 2 ^ 11
    omega
  · change h % 2 ^ 8 < 2 ^ 11
    omega

def headerWalker (id : Nat) : Walker := byId mac_ie_header_parse false header_length_lt id false

def payloadWalker (id : Nat) : Walker :=
  byId mac_ie_payload_parse false payload_length_lt id false

def nestedWalker (id : Nat) (type_long : Bool) : Walker :=
  byId mac_ie_nested_id_parse true nested_length_lt id type_long

/-- The walk for an element whose content starts with `sub_id`. -/
def subIdWalker (id : Nat) (sub_id : UInt8) : Walker where
  least := 3
  checked := false
  len h := (mac_ie_header_parse h).length
  test h tail :=
    if (mac_ie_header_parse h).length ≠ 0 ∧ id = (mac_ie_header_parse h).id then
      tail.head?.map (· == sub_id)
    else some false
  skip := 1
  two_le_least := by decide
  least_le := by decide
  len_lt := header_length_lt
  test_take h tail hfits := by
    by_cases hmatch : (mac_ie_header_parse h).length ≠ 0 ∧ id = (mac_ie_header_parse h).id
    · rw [if_pos hmatch, if_pos hmatch, List.head?_take, if_neg hmatch.1]
    · rw [if_neg hmatch, if_neg hmatch]
  test_reads h tail hleast := by
    have hcons : tail ≠ [] := by
      rintro rfl
      simp at hleast
    split
    · simpa using hcons
    · rfl
  skip_le h tail htest := by
    split at htest
    · next hmatch => exact Nat.one_le_iff_ne_zero.mpr hmatch.1
    · cases htest
  least_le_len h tail htest := by
    split at htest
    · next hmatch =>
        have hpos := Nat.one_le_iff_ne_zero.mpr hmatch.1
        omega
    · cases htest

/-- What the functions are given: a length of sixteen bits and as many bytes. -/
abbrev Area := { bs : List UInt8 // bs.length < 2 ^ 16 }

def mac_ie_payload_discover (area : Area) (id : Nat) : Outcome :=
  search (payloadWalker id) area.1

def mac_ie_nested_discover (area : Area) (id : Nat) (type_long : Bool) : Outcome :=
  search (nestedWalker id type_long) area.1

def mac_ie_header_discover (area : Area) (id : Nat) : Outcome := search (headerWalker id) area.1

def mac_ie_header_sub_id_discover (area : Area) (id : Nat) (sub_id : UInt8) : Outcome :=
  search (subIdWalker id sub_id) area.1

/-! ## Written elements -/

/-- An element that can be written: an id of `j` bits and a length of `i` bits. -/
structure Ie (j i : Nat) where
  id : Nat
  content : List UInt8
  id_lt : id < 2 ^ j
  length_lt : content.length < 2 ^ i

namespace Ie

/-- `mac_ie_header_base_write` and the content. -/
def header (e : Ie 8 7) : Element := (mac_ie_header_base_write e.id e.content.length, e.content)

/-- `mac_ie_payload_base_write` and the content. -/
def payload (e : Ie 4 11) : Element :=
  (mac_ie_payload_base_write e.id e.content.length, e.content)

/-- `mac_ie_nested_ie_long_base_write` and the content. -/
def nestedLong (e : Ie 4 11) : Element :=
  (mac_ie_nested_ie_long_base_write e.id e.content.length, e.content)

/-- `mac_ie_nested_ie_short_base_write` and the content. -/
def nestedShort (e : Ie 7 8) : Element :=
  (mac_ie_nested_ie_short_base_write e.id e.content.length, e.content)

theorem parse_header (e : Ie 8 7) :
    mac_ie_header_parse e.header.1 = ⟨e.content.length, e.id, false⟩ := by
  have hid := e.id_lt
  have hlength := e.length_lt
  rw [header, mac_ie_header_base_write_eq hid hlength, mac_ie_header_parse_eq,
    Parsed.mk.injEq]
  exact ⟨by omega, by omega, rfl⟩

theorem parse_payload (e : Ie 4 11) :
    mac_ie_payload_parse e.payload.1 = ⟨e.content.length, e.id, false⟩ := by
  have hid := e.id_lt
  have hlength := e.length_lt
  rw [payload, mac_ie_payload_base_write_eq hid hlength, mac_ie_payload_parse_eq,
    Parsed.mk.injEq]
  exact ⟨by omega, by omega, rfl⟩

theorem parse_nestedLong (e : Ie 4 11) :
    mac_ie_nested_id_parse e.nestedLong.1 = ⟨e.content.length, e.id, true⟩ := by
  have hid := e.id_lt
  have hlength := e.length_lt
  rw [nestedLong, mac_ie_nested_ie_long_base_write_eq hid hlength, mac_ie_nested_id_parse_eq,
    if_pos (by omega), Parsed.mk.injEq]
  exact ⟨by omega, by omega, rfl⟩

theorem parse_nestedShort (e : Ie 7 8) :
    mac_ie_nested_id_parse e.nestedShort.1 = ⟨e.content.length, e.id, false⟩ := by
  have hid := e.id_lt
  have hlength := e.length_lt
  rw [nestedShort, mac_ie_nested_ie_short_base_write_eq hid hlength, mac_ie_nested_id_parse_eq,
    if_neg (by omega), Parsed.mk.injEq]
  exact ⟨by omega, by omega, rfl⟩

theorem header_lt (e : Ie 8 7) : e.header.1 < 2 ^ 16 := by
  have hid := e.id_lt
  have hlength := e.length_lt
  rw [header, mac_ie_header_base_write_eq hid hlength]
  omega

theorem payload_lt (e : Ie 4 11) : e.payload.1 < 2 ^ 16 := by
  have hid := e.id_lt
  have hlength := e.length_lt
  rw [payload, mac_ie_payload_base_write_eq hid hlength]
  omega

theorem nestedLong_lt (e : Ie 4 11) : e.nestedLong.1 < 2 ^ 16 := e.payload_lt

theorem nestedShort_lt (e : Ie 7 8) : e.nestedShort.1 < 2 ^ 16 := by
  have hid := e.id_lt
  have hlength := e.length_lt
  rw [nestedShort, mac_ie_nested_ie_short_base_write_eq hid hlength]
  omega

end Ie

/-- A nested element is written in the long or in the short form. -/
inductive NestedIe where
  | long (e : Ie 4 11)
  | short (e : Ie 7 8)

namespace NestedIe

def type_long : NestedIe → Bool
  | long _ => true
  | short _ => false

def id : NestedIe → Nat
  | long e => e.id
  | short e => e.id

def content : NestedIe → List UInt8
  | long e => e.content
  | short e => e.content

def element : NestedIe → Element
  | long e => e.nestedLong
  | short e => e.nestedShort

theorem element_snd (e : NestedIe) : e.element.2 = e.content := by cases e <;> rfl

theorem parse_element (e : NestedIe) :
    mac_ie_nested_id_parse e.element.1 = ⟨e.content.length, e.id, e.type_long⟩ := by
  cases e with
  | long e => exact e.parse_nestedLong
  | short e => exact e.parse_nestedShort

theorem element_lt (e : NestedIe) : e.element.1 < 2 ^ 16 := by
  cases e with
  | long e => exact e.nestedLong_lt
  | short e => exact e.nestedShort_lt

end NestedIe

/-- What a search reports about a list of elements of one kind, each written as `element`. -/
theorem search_map {α : Type} (w : Walker) (element : α → Element) (wanted : α → Bool)
    {area : Area} (es : List α) (hwritable : ∀ a, Writable w.len (element a))
    (hwanted : ∀ a, Wanted w (element a) ↔ wanted a = true)
    (harea : area.1 = write (es.map element)) :
    Reported w.skip area.1 (search w area.1) ((es.find? wanted).map fun a => (element a).2) := by
  have hall : ∀ e ∈ es.map element, Writable w.len e := by
    intro e hmem
    obtain ⟨a, _, rfl⟩ := List.mem_map.mp hmem
    exact hwritable a
  have hfound := search_write hall (harea ▸ area.2)
  have hsame : ((fun e => decide (Wanted w e)) ∘ element) = wanted := by
    funext a
    rw [Function.comp_apply, Bool.eq_iff_iff, decide_eq_true_iff]
    exact hwanted a
  rw [← harea, List.find?_map, hsame, Option.map_map] at hfound
  exact hfound

/-! ## What the searches do -/

/-- The search reads inside the area only, and its result is the first element with the wanted
id (and form or sub-id) that lies in the area, or the news that there is none. -/
def InFrame (w : Walker) (area : Area) (o : Outcome) : Prop :=
  Exact w 0 (split w.len area.1).1 o

/-- A wanted element lies in the area, or what is left behind its elements is too short for the
loop to look at. -/
def Whole (w : Walker) (area : Area) : Prop :=
  (∃ e ∈ (split w.len area.1).1, Wanted w e) ∨ (split w.len area.1).2.length < w.least

theorem inFrame_iff {w : Walker} (area : Area) (hchecked : w.checked = false) :
    InFrame w area (search w area.1) ↔ Whole w area := by
  unfold InFrame
  rw [search_exact_iff area.2]
  simp [Clear, Whole, hchecked]

theorem inFrame_checked {w : Walker} (area : Area) (hchecked : w.checked = true) :
    InFrame w area (search w area.1) :=
  (search_exact_iff area.2).mpr (Or.inr (Or.inl hchecked))

theorem nested_written {area : Area} {es : List NestedIe} (id : Nat) (type_long : Bool)
    (harea : area.1 = write (es.map NestedIe.element)) :
    Reported 0 area.1 (mac_ie_nested_discover area id type_long)
      ((es.find? fun e => id = e.id ∧ type_long = e.type_long).map NestedIe.content) := by
  have hfound := search_map (nestedWalker id type_long) NestedIe.element
    (fun e => id = e.id ∧ type_long = e.type_long) es ?_ ?_ harea
  · simp only [NestedIe.element_snd] at hfound
    exact hfound
  · intro e
    refine ⟨e.element_lt, ?_⟩
    simp [nestedWalker, byId, e.parse_element, e.element_snd]
  · intro e
    simp [Wanted, nestedWalker, byId, e.parse_element]

theorem header_written {area : Area} {es : List (Ie 8 7)} (id : Nat)
    (harea : area.1 = write (es.map Ie.header)) :
    Reported 0 area.1 (mac_ie_header_discover area id)
      ((es.find? fun e => id = e.id).map Ie.content) := by
  refine search_map (headerWalker id) Ie.header (fun e => id = e.id) es ?_ ?_ harea
  · intro e
    refine ⟨e.header_lt, ?_⟩
    simp only [headerWalker, byId, e.parse_header]
    rfl
  · intro e
    simp [Wanted, headerWalker, byId, e.parse_header]

theorem subId_written {area : Area} {es : List (Ie 8 7)} (id : Nat) (sub_id : UInt8)
    (harea : area.1 = write (es.map Ie.header)) :
    Reported 1 area.1 (mac_ie_header_sub_id_discover area id sub_id)
      ((es.find? fun e => id = e.id ∧ e.content.head? = some sub_id).map Ie.content) := by
  refine search_map (subIdWalker id sub_id) Ie.header
    (fun e => id = e.id ∧ e.content.head? = some sub_id) es ?_ ?_ harea
  · intro e
    refine ⟨e.header_lt, ?_⟩
    simp only [subIdWalker, e.parse_header]
    rfl
  · intro e
    have hcontent : e.header.2 = e.content := rfl
    simp only [Wanted, subIdWalker, e.parse_header, hcontent]
    cases hc : e.content with
    | nil => simp
    | cons b bs => by_cases hid : id = e.id <;> simp [hid]

theorem payload_written {area : Area} {es : List (Ie 4 11)} (id : Nat)
    (harea : area.1 = write (es.map Ie.payload)) :
    Reported 0 area.1 (mac_ie_payload_discover area id)
      ((es.find? fun e => id = e.id).map Ie.content) := by
  refine search_map (payloadWalker id) Ie.payload (fun e => id = e.id) es ?_ ?_ harea
  · intro e
    refine ⟨e.payload_lt, ?_⟩
    simp only [payloadWalker, byId, e.parse_payload]
    rfl
  · intro e
    simp [Wanted, payloadWalker, byId, e.parse_payload]

/-- An element in front is found, whatever comes behind it. -/
theorem nested_front {area : Area} (e : Ie 4 11) (rest : List UInt8)
    (harea : area.1 = headerBytes e.nestedLong.1 ++ (e.content ++ rest)) :
    mac_ie_nested_discover area e.id true = .found 2 e.content.length := by
  have hheader := header_headerBytes e.nestedLong_lt
  have hparse := e.parse_nestedLong
  have hlen : (nestedWalker e.id true).len (header (UInt8.ofNat e.nestedLong.1)
      (UInt8.ofNat (e.nestedLong.1 / 2 ^ 8))) = e.content.length := by
    rw [hheader]
    change (mac_ie_nested_id_parse e.nestedLong.1).length = _
    rw [hparse]
  have hlt := area.2
  rw [harea] at hlt
  unfold mac_ie_nested_discover
  rw [search, harea]
  rw [List.length_append] at hlt ⊢
  have hcount : (headerBytes e.nestedLong.1).length + (e.content ++ rest).length =
      (e.content ++ rest).length + 2 := Nat.add_comm ..
  rw [hcount] at hlt ⊢
  have hturn := @walk_step (nestedWalker e.id true) ((e.content ++ rest).length + 2) 0
    (UInt8.ofNat e.nestedLong.1) (UInt8.ofNat (e.nestedLong.1 / 2 ^ 8))
    (e.content ++ rest) (Nat.le_add_left ..) hlt
    (by rw [hlen, List.length_append]; exact Nat.le_add_right ..)
  have hwanted : Wanted (nestedWalker e.id true) (header (UInt8.ofNat e.nestedLong.1)
      (UInt8.ofNat (e.nestedLong.1 / 2 ^ 8)), (e.content ++ rest).take e.content.length) := by
    rw [hheader]
    simp [Wanted, nestedWalker, byId, hparse]
  rw [hlen, if_pos hwanted] at hturn
  exact hturn

/-- **Which areas are searched without a mistake**: all of them by `mac_ie_nested_discover`; by
the other three functions those that hold the wanted element, or nothing behind their elements
that the loop takes for one.  Where it does, its length, which is too long for the area, is
subtracted from the remaining length and makes it huge.  Lists of written elements are of the
good kind. -/
theorem discover_exact_iff (area : Area) (id : Nat) (type_long : Bool) (sub_id : UInt8) :
    InFrame (nestedWalker id type_long) area (mac_ie_nested_discover area id type_long) ∧
    (InFrame (headerWalker id) area (mac_ie_header_discover area id) ↔
      Whole (headerWalker id) area) ∧
    (InFrame (subIdWalker id sub_id) area (mac_ie_header_sub_id_discover area id sub_id) ↔
      Whole (subIdWalker id sub_id) area) ∧
    (InFrame (payloadWalker id) area (mac_ie_payload_discover area id) ↔
      Whole (payloadWalker id) area) ∧
    (∀ es : List NestedIe, area.1 = write (es.map NestedIe.element) →
      Reported 0 area.1 (mac_ie_nested_discover area id type_long)
        ((es.find? fun e => id = e.id ∧ type_long = e.type_long).map NestedIe.content)) ∧
    (∀ es : List (Ie 8 7), area.1 = write (es.map Ie.header) →
      Reported 0 area.1 (mac_ie_header_discover area id)
        ((es.find? fun e => id = e.id).map Ie.content) ∧
      Reported 1 area.1 (mac_ie_header_sub_id_discover area id sub_id)
        ((es.find? fun e => id = e.id ∧ e.content.head? = some sub_id).map Ie.content)) ∧
    (∀ es : List (Ie 4 11), area.1 = write (es.map Ie.payload) →
      Reported 0 area.1 (mac_ie_payload_discover area id)
        ((es.find? fun e => id = e.id).map Ie.content)) := by
  refine ⟨inFrame_checked area rfl, inFrame_iff area rfl, inFrame_iff area rfl,
    inFrame_iff area rfl, fun es harea => ?_, fun es harea => ?_, fun es harea => ?_⟩
  · exact nested_written id type_long harea
  · exact ⟨header_written id harea, subId_written id sub_id harea⟩
  · exact payload_written id harea

/-- Element 42 with two bytes of content. -/
theorem discover_exact_iff_header :
    Reported 0 [0x02, 0x15, 7, 9] (mac_ie_header_discover ⟨[0x02, 0x15, 7, 9], by decide⟩ 42)
      (some [7, 9]) := by
  have hlist := (discover_exact_iff ⟨[0x02, 0x15, 7, 9], by decide⟩ 42 false 7).2.2.2.2.2.1
    [⟨42, [7, 9], by decide, by decide⟩] (by decide)
  exact hlist.1

/-- A payload element that claims five bytes where none are left: the search for another one
leaves the area. -/
theorem payload_runs_out :
    mac_ie_payload_discover ⟨[0x05, 0x88], by decide⟩ 5 = .outside ∧
      ¬ InFrame (payloadWalker 5) ⟨[0x05, 0x88], by decide⟩
        (mac_ie_payload_discover ⟨[0x05, 0x88], by decide⟩ 5) := by
  have hout : mac_ie_payload_discover ⟨[0x05, 0x88], by decide⟩ 5 = .outside := by decide
  refine ⟨hout, fun hexact => ?_⟩
  rw [hout] at hexact
  cases hexact

end MacIe
