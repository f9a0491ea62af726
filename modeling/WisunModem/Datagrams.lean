import WisunModem.Holes

/-!
# Datagrams and their fragments

A datagram is cut at offsets of the uncompressed datagram.  What a fragment carries lies
at the same distance from these offsets everywhere, by what the headers have lost:
`place` turns an offset into a position in the 6LoWPAN payload.

* `Datagram.lastOffset_eq` — the receiver finds the offsets at which a fragment was cut;
* `Tiles.fill` — the holes are what is missing, before and after a fragment;
* `holding_addFragment` — a fragment more, and perhaps the whole datagram.
-/

namespace Lowpan

/-- A datagram in its fragments: `cut` gives the offsets, in the uncompressed datagram, at
which they begin and end. -/
structure Datagram where
  tag : Nat
  src : Nat × List UInt8
  dst : Nat × List UInt8
  payload : List UInt8
  count : Nat
  cut : Nat → Nat
  tag_lt : tag < 2 ^ 16
  known : (iphcHeaderScan payload).1 ≠ 0
  count_pos : 0 < count
  cut_zero : cut 0 = 0
  cut_lt : ∀ i < count, cut i < cut (i + 1)
  cut_aligned : ∀ i < count, cut i % 8 = 0
  cut_last : cut count + (iphcHeaderScan payload).1 = payload.length + (iphcHeaderScan payload).2
  headers : (iphcHeaderScan payload).2 ≤ cut 1
  size_lt : cut count < 2 ^ 11

namespace Datagram

variable (d : Datagram)

/-- The sizes of the headers, compressed and not. -/
def compressed : Nat := (iphcHeaderScan d.payload).1

def uncompressed : Nat := (iphcHeaderScan d.payload).2

/-- `datagram_size` -/
def size : Nat := d.cut d.count

def key : Key := ⟨d.tag, d.size, d.src, d.dst⟩

/-- Where an offset behind the headers is in the payload. -/
def place (offset : Nat) : Nat := offset + d.compressed - d.uncompressed

/-- Where the data of a fragment begins; the first one has the headers as well. -/
def start (i : Nat) : Nat := if i = 0 then 0 else d.place (d.cut i)

def stop (i : Nat) : Nat := d.place (d.cut (i + 1))

/-- The data of a fragment. -/
def data (i : Nat) : List UInt8 := (d.payload.drop (d.start i)).take (d.stop i - d.start i)

/-- A fragment with its header, FRAG1 or FRAGN. -/
def fragment (i : Nat) : List UInt8 :=
  let kind := if i = 0 then 0xC0 else 0xE0
  [UInt8.ofNat (kind + d.size / 2 ^ 8), UInt8.ofNat d.size, UInt8.ofNat (d.tag / 2 ^ 8),
    UInt8.ofNat d.tag] ++ (if i = 0 then [] else [UInt8.ofNat (d.cut i / 8)]) ++ d.data i

/-- The frame brings this fragment. -/
structure IsFragment (i : Nat) (frame : Frame) : Prop where
  lt : i < d.count
  bytes : frame.bytes = d.fragment i
  src : frame.src.link = d.src
  dst : frame.dst.link = d.dst

variable {d}

/-! ## Offsets -/

theorem cut_le {i j : Nat} (hij : i ≤ j) (hj : j ≤ d.count) : d.cut i ≤ d.cut j := by
  induction j with
  | zero =>
      exact Nat.le_of_eq (congrArg d.cut (Nat.le_zero.mp hij))
  | succ j ih =>
      by_cases heq : i = j + 1
      · exact Nat.le_of_eq (congrArg d.cut heq)
      · exact Nat.le_of_lt (Nat.lt_of_le_of_lt (ih (by omega) (by omega)) (d.cut_lt j hj))

theorem cut_strict {i j : Nat} (hij : i < j) (hj : j ≤ d.count) : d.cut i < d.cut j :=
  Nat.lt_of_lt_of_le (d.cut_lt i (by omega)) (cut_le hij hj)

theorem cut_far {i j : Nat} (hij : i < j) (hj : j < d.count) : d.cut i + 8 ≤ d.cut j := by
  have := cut_strict hij (Nat.le_of_lt hj)
  have := d.cut_aligned i (by omega)
  have := d.cut_aligned j hj
  omega

theorem size_pos : 0 < d.size := by
  have := cut_strict d.count_pos (Nat.le_refl d.count)
  unfold size
  omega

theorem headers_le {i : Nat} (hi : 0 < i) (hle : i ≤ d.count) : d.uncompressed ≤ d.cut i :=
  Nat.le_trans d.headers (cut_le hi hle)

/-- Positions are offsets, moved by what the headers have lost. -/
theorem place_eq {i : Nat} (hi : 0 < i) (hle : i ≤ d.count) :
    (d.place (d.cut i) : Int) = d.cut i + d.compressed - d.uncompressed := by
  have := headers_le hi hle
  unfold place
  omega

theorem start_lt_stop {i : Nat} (h : i < d.count) : d.start i < d.stop i := by
  have hstop := place_eq (show 0 < i + 1 by omega) h
  have hknown : d.compressed ≠ 0 := d.known
  unfold start stop
  split
  · have := headers_le (show 0 < i + 1 by omega) h
    omega
  · rename_i hi
    have hstart := place_eq (Nat.pos_of_ne_zero hi) (Nat.le_of_lt h)
    have := d.cut_lt i h
    omega

theorem stop_le {i : Nat} (h : i < d.count) : d.stop i ≤ d.payload.length := by
  have hstop := place_eq (show 0 < i + 1 by omega) h
  have hlast := d.cut_last
  have := cut_le (show i + 1 ≤ d.count by omega) (Nat.le_refl _)
  have hc : d.compressed = (iphcHeaderScan d.payload).1 := rfl
  have hu : d.uncompressed = (iphcHeaderScan d.payload).2 := rfl
  unfold stop
  omega

theorem length_data {i : Nat} (h : i < d.count) : (d.data i).length = d.stop i - d.start i := by
  have := stop_le h
  have := start_lt_stop h
  unfold data
  rw [List.length_take, List.length_drop]
  omega

/-! ## What the receiver reads -/

theorem size_lt' : d.size < 2 ^ 11 := d.size_lt

theorem byte_eq {frame : Frame} {i : Nat} (h : d.IsFragment i frame) :
    frame.byte 0 = (if i = 0 then 0xC0 else 0xE0) + d.size / 2 ^ 8 ∧
      frame.byte 1 = d.size % 2 ^ 8 ∧ frame.byte 2 = d.tag / 2 ^ 8 ∧
      frame.byte 3 = d.tag % 2 ^ 8 := by
  have hsize := d.size_lt'
  have htag := d.tag_lt
  have hk : (if i = 0 then 0xC0 else 0xE0) ≤ 0xE0 := by split <;> omega
  simp only [Frame.byte, h.bytes, fragment, List.cons_append, List.nil_append,
    List.getD_cons_zero, List.getD_cons_succ, UInt8.toNat_ofNat']
  refine ⟨Nat.mod_eq_of_lt (by omega), trivial, Nat.mod_eq_of_lt (by omega), trivial⟩

theorem later_eq {frame : Frame} {i : Nat} (h : d.IsFragment i frame) :
    frame.later = decide (i ≠ 0) := by
  have hsize := d.size_lt'
  have hbits : ∀ k < 8, (0xC0 + k).testBit 5 = false ∧ (0xE0 + k).testBit 5 = true := by decide
  have hk := hbits (d.size / 2 ^ 8) (by omega)
  unfold Frame.later
  rw [(byte_eq h).1]
  split
  · rename_i hi
    simpa [hi] using hk.1
  · rename_i hi
    simpa [hi] using hk.2

theorem size_eq {frame : Frame} {i : Nat} (h : d.IsFragment i frame) : frame.size = d.size := by
  have hsize := d.size_lt'
  obtain ⟨h0, h1, -, -⟩ := byte_eq h
  unfold Frame.size
  rw [h0, h1]
  split <;> omega

theorem key_eq {frame : Frame} {i : Nat} (h : d.IsFragment i frame) : frame.key = d.key := by
  obtain ⟨-, -, h2, h3⟩ := byte_eq h
  have htag : frame.tag = d.tag := by
    unfold Frame.tag
    rw [h2, h3]
    omega
  unfold Frame.key key
  rw [htag, size_eq h, h.src, h.dst]

theorem first_eq {frame : Frame} {i : Nat} (h : d.IsFragment i frame) :
    frame.first = d.cut i := by
  unfold Frame.first
  rw [later_eq h]
  by_cases hi : i = 0
  · simp [hi, d.cut_zero]
  · have hlt : d.cut i < 2 ^ 11 := Nat.lt_of_le_of_lt
      (cut_le (Nat.le_of_lt h.lt) (Nat.le_refl _)) d.size_lt
    have hal := d.cut_aligned i h.lt
    have hbyte : frame.byte 4 = d.cut i / 8 := by
      simp only [Frame.byte, h.bytes, fragment, if_neg hi, List.cons_append, List.nil_append,
        List.getD_cons_zero, List.getD_cons_succ, UInt8.toNat_ofNat']
      exact Nat.mod_eq_of_lt (by omega)
    rw [hbyte]
    simp [hi]
    omega

theorem data_eq {frame : Frame} {i : Nat} (h : d.IsFragment i frame) :
    frame.data = d.data i := by
  unfold Frame.data Frame.header
  rw [later_eq h, h.bytes]
  by_cases hi : i = 0
  · simp [hi, fragment]
  · simp [hi, fragment]

/-- Its header lies in the frame. -/
theorem whole_of_isFragment {frame : Frame} {i : Nat} (h : d.IsFragment i frame) :
    frame.Whole := by
  unfold Frame.Whole Frame.header
  rw [later_eq h, h.bytes]
  by_cases hi : i = 0
  · simp [hi, fragment]
  · simp [hi, fragment]

variable (d) in
/-- The compressed headers are as short as 8 bits can say. -/
def Short : Prop := (iphcHeaderScan d.payload).1 < 2 ^ 8

instance : Decidable d.Short := inferInstanceAs (Decidable (_ < _))

theorem compressed_lt (hshort : d.Short) : d.compressed < 2 ^ 8 := hshort

/-- The first fragment shows the headers. -/
theorem scan_data : iphcHeaderScan (d.data 0) = iphcHeaderScan d.payload := by
  have hzero : d.data 0 = d.payload.take (d.stop 0) := rfl
  have hstop := place_eq (show 0 < 0 + 1 by omega) d.count_pos
  have hu := headers_le (show 0 < 0 + 1 by omega) d.count_pos
  have hc : d.compressed = (iphcHeaderScan d.payload).1 := rfl
  rw [hzero]
  apply iphcHeaderScan_take _ _ d.known
  rw [← hc]
  unfold stop
  omega

/-- The first fragment is counted with uncompressed headers. -/
theorem ipv6Size_eq {frame : Frame} {i : Nat} (h : d.IsFragment i frame) (hshort : d.Short) :
    ipv6Size frame = d.cut (i + 1) - d.cut i := by
  have hstop := place_eq (show 0 < i + 1 by omega) h.lt
  have hlen := length_data h.lt
  have hnext : d.cut (i + 1) < 2 ^ 11 :=
    Nat.lt_of_le_of_lt (cut_le h.lt (Nat.le_refl _)) d.size_lt
  have hlt := d.cut_lt i h.lt
  unfold ipv6Size
  dsimp only
  rw [first_eq h, data_eq h, hlen]
  by_cases hi : i = 0
  · subst hi
    have hs := compressed_lt hshort
    have hu := headers_le (show 0 < 0 + 1 by omega) d.count_pos
    have hstart : d.start 0 = 0 := rfl
    have hstop' : d.stop 0 = d.place (d.cut 1) := rfl
    have hc : (iphcHeaderScan d.payload).1 = d.compressed := rfl
    have hc' : (iphcHeaderScan d.payload).2 = d.uncompressed := rfl
    have hzero := d.cut_zero
    rw [if_pos hzero, scan_data, hc, hc', Nat.mod_eq_of_lt hs]
    simp only [Nat.zero_add] at *
    omega
  · have hfar := cut_far (Nat.pos_of_ne_zero hi) h.lt
    have hstart := place_eq (Nat.pos_of_ne_zero hi) (Nat.le_of_lt h.lt)
    rw [if_neg (by omega)]
    unfold start stop
    rw [if_neg hi]
    omega

/-- **The receiver finds the offsets at which a fragment was cut.** -/
theorem lastOffset_eq {frame : Frame} {i : Nat} (h : d.IsFragment i frame) (hshort : d.Short) :
    lastOffset frame = d.cut (i + 1) - 1 := by
  have hnext : d.cut (i + 1) < 2 ^ 11 :=
    Nat.lt_of_le_of_lt (cut_le h.lt (Nat.le_refl _)) d.size_lt
  have hlt := d.cut_lt i h.lt
  unfold lastOffset
  rw [first_eq h, ipv6Size_eq h hshort]
  omega

variable (d) in
/-- What the headers have lost. -/
def pattern : Int := d.uncompressed - d.compressed

theorem uncompressed_lt : d.uncompressed < 2 ^ 11 :=
  Nat.lt_of_le_of_lt (headers_le d.count_pos (Nat.le_refl _)) d.size_lt

theorem pattern_eq {frame : Frame} (h : d.IsFragment 0 frame) (hshort : d.Short) :
    ((ipv6Size frame : Int) - frame.data.length).bmod (2 ^ 16) = d.pattern := by
  have hstop := place_eq (show 0 < 0 + 1 by omega) d.count_pos
  have hs := compressed_lt hshort
  have hu := d.uncompressed_lt
  have hstart : d.start 0 = 0 := rfl
  have hstop' : d.stop 0 = d.place (d.cut (0 + 1)) := rfl
  have hdiff : (ipv6Size frame : Int) - frame.data.length = d.pattern := by
    have hlt := d.cut_lt 0 h.lt
    have hzero := d.cut_zero
    rw [ipv6Size_eq h hshort, data_eq h, length_data h.lt, hstart, hstop']
    unfold pattern
    omega
  rw [hdiff]
  unfold pattern
  rw [Int.bmod_eq_of_le] <;> omega

/-- Data lies at its place, as far from its offset as the headers are shorter. -/
theorem copy_pos {frame : Frame} {i : Nat} (h : d.IsFragment i frame) (hshort : d.Short) :
    (lastOffset frame + 1 - frame.data.length : Int) = d.start i + d.pattern ∧
      (d.stop i : Int) + d.pattern = d.cut (i + 1) := by
  have hstop := place_eq (show 0 < i + 1 by omega) h.lt
  have hstop' : d.stop i = d.place (d.cut (i + 1)) := rfl
  have hlt := d.cut_lt i h.lt
  have hle := start_lt_stop h.lt
  rw [lastOffset_eq h hshort, data_eq h, length_data h.lt]
  unfold pattern
  omega

/-- In front of the first offset there are but the bytes a header may grow. -/
theorem start_pos {i : Nat} (h : i < d.count) (hshort : d.Short) :
    -41 ≤ (d.start i : Int) + d.pattern ∧
      (i ≠ 0 → (d.start i : Int) + d.pattern = d.cut i) := by
  have hgrowth := iphcHeaderScan_growth d.payload hshort
  have hs := compressed_lt hshort
  have hc : (iphcHeaderScan d.payload).1 = d.compressed := rfl
  have hu : (iphcHeaderScan d.payload).2 = d.uncompressed := rfl
  rw [hc, hu] at hgrowth
  unfold pattern
  constructor
  · omega
  · intro hi
    have hplace := place_eq (Nat.pos_of_ne_zero hi) (Nat.le_of_lt h)
    unfold start
    rw [if_neg hi]
    omega

end Datagram

end Lowpan
