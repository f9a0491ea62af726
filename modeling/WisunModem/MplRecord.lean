import WisunModem.MplInvariant

/-!
# The records of a control message

What `mpl_write_seed_info` leaves in memory for a seed in its window: a header of
two bytes, the identifier, and a bitmap with one bit for each message held.  The
bytes beside the record are as they were.
-/

namespace Mpl

namespace Bytes

variable {bits : Bits} {mem mem' : Bytes} {p q i j n : Nat}

theorem write_self (b : UInt8) : mem.write p b p = b := by simp [write]

theorem write_ne (b : UInt8) (h : q ≠ p) : mem.write p b q = mem q := by simp [write, h]

theorem copy_before (bytes : List UInt8) (h : q < p) : mem.copy p bytes q = mem q := by
  simp [copy, Nat.not_le.mpr h]

theorem copy_after (bytes : List UInt8) (h : p + bytes.length ≤ q) :
    mem.copy p bytes q = mem q := by
  have hle : p ≤ q := by omega
  rw [copy, if_pos hle, List.getD_eq_getElem?_getD, List.getElem?_eq_none (by omega)]
  rfl

theorem copy_at (bytes : List UInt8) (h : j < bytes.length) :
    mem.copy p bytes (p + j) = bytes.get ⟨j, h⟩ := by
  rw [copy, if_pos (Nat.le_add_right p j), Nat.add_sub_cancel_left]
  simp [h]

/-- A bit set is the bit tested; the others are as they were. -/
theorem bitTest_bitSet :
    (mem.bitSet bits p j).bitTest bits p i = (decide (j = i) || mem.bitTest bits p i) := by
  unfold bitTest bitSet
  by_cases hbyte : i / 8 = j / 8
  · rw [hbyte, write_self, bits.test_set _ _ (Nat.mod_lt _ (by decide)) _
      (Nat.mod_lt _ (by decide))]
    congr 1
    rw [decide_eq_decide]
    omega
  · rw [write_ne _ (by omega)]
    have hne : j ≠ i := fun h => hbyte (by rw [h])
    simp [hne]

theorem bitTest_clear (h : i / 8 < n) : (mem.clear p n).bitTest bits p i = false := by
  unfold bitTest clear
  rw [if_pos (by omega)]
  exact bits.test_zero _ (Nat.mod_lt _ (by decide))

/-- A bit set touches its own byte. -/
theorem bitSet_frame (h : q ≠ p + i / 8) : mem.bitSet bits p i q = mem q := write_ne _ h

theorem bitSet_congr (h : mem q = mem' q) : mem.bitSet bits p i q = mem'.bitSet bits p i q := by
  by_cases hq : q = p + i / 8
  · subst hq
    unfold bitSet
    rw [write_self, write_self, h]
  · rw [bitSet_frame hq, bitSet_frame hq, h]

theorem clear_frame (h : q < p ∨ p + n ≤ q) : mem.clear p n q = mem q := by
  rw [clear, if_neg (by omega)]

theorem clear_within (hp : p ≤ q) (hq : q < p + n) : mem.clear p n q = 0 := by
  rw [clear, if_pos ⟨hp, hq⟩]

end Bytes

/-! ## The bitmap -/

section Bitmap

variable {bits : Bits} {mem mem' : Bytes} {p q i n : Nat} {l : List Message} {off : Message → Nat}

theorem foldl_bitSet_frame (hoff : ∀ m ∈ l, off m / 8 < n) (h : q < p ∨ p + n ≤ q) :
    l.foldl (fun mem m => mem.bitSet bits p (off m)) mem q = mem q := by
  induction l generalizing mem with
  | nil => rfl
  | cons m rest ih =>
      have hm := hoff m List.mem_cons_self
      rw [List.foldl_cons, ih fun m' hm' => hoff m' (List.mem_cons_of_mem _ hm')]
      exact Bytes.bitSet_frame (by omega)

theorem foldl_bitSet_test :
    (l.foldl (fun mem m => mem.bitSet bits p (off m)) mem).bitTest bits p i =
      (decide (∃ m ∈ l, off m = i) || mem.bitTest bits p i) := by
  induction l generalizing mem with
  | nil => simp
  | cons m rest ih =>
      rw [List.foldl_cons, ih, Bytes.bitTest_bitSet]
      by_cases hm : off m = i <;> simp [hm]

theorem foldl_bitSet_congr (h : mem q = mem' q) :
    l.foldl (fun mem m => mem.bitSet bits p (off m)) mem q =
      l.foldl (fun mem m => mem.bitSet bits p (off m)) mem' q := by
  induction l generalizing mem mem' with
  | nil => exact h
  | cons m rest ih =>
      rw [List.foldl_cons, List.foldl_cons]
      exact ih (Bytes.bitSet_congr h)

end Bitmap

namespace Seed.Windowed

variable {bits : Bits} {seed : Seed} {mem mem' : Bytes} {p q i : Nat}

/-- **The bitmap stays where it is reserved.** -/
theorem writeBitmap_frame (h : seed.Windowed) (hq : q < p ∨ p + seed.bmLen ≤ q) :
    seed.writeBitmap bits mem p q = mem q := by
  unfold Seed.writeBitmap
  rw [foldl_bitSet_frame (fun m hm => h.offset_bit hm) hq, Bytes.clear_frame hq]

/-- The bitmap says which messages are held. -/
theorem writeBitmap_test (hi : i / 8 < seed.bmLen) :
    (seed.writeBitmap bits mem p).bitTest bits p i =
      decide (∃ m ∈ seed.messages, seed.offset m = i) := by
  unfold Seed.writeBitmap
  rw [foldl_bitSet_test, Bytes.bitTest_clear hi, Bool.or_false]

/-- Nothing which was there before shows in the bitmap. -/
theorem writeBitmap_within (hp : p ≤ q) (hq : q < p + seed.bmLen) :
    seed.writeBitmap bits mem p q = seed.writeBitmap bits mem' p q := by
  unfold Seed.writeBitmap
  apply foldl_bitSet_congr
  rw [Bytes.clear_within hp hq, Bytes.clear_within hp hq]

end Seed.Windowed

/-! ## A record -/

theorem idTypeOf_idLen {seed : Seed} (h : seed.id.length ∈ idLengths) (src : Option SeedId) :
    ∃ type, idTypeOf (seed.idLen src) = some type ∧ type.len = seed.idLen src := by
  unfold Seed.idLen
  split
  · exact ⟨.ipv6Src, rfl, rfl⟩
  · simp only [idLengths, List.mem_cons, List.not_mem_nil, or_false] at h
    rcases h with h | h | h
    · exact ⟨.bits16, by rw [h]; rfl, h.symm⟩
    · exact ⟨.bits64, by rw [h]; rfl, h.symm⟩
    · exact ⟨.bits128, by rw [h]; rfl, h.symm⟩

theorem idLen_le (seed : Seed) (src : Option SeedId) : seed.idLen src ≤ seed.id.length := by
  unfold Seed.idLen
  split
  · exact Nat.zero_le _
  · exact Nat.le_refl _

/-- What a record of a seed is, as it stands in memory from `p` on. -/
structure Seed.Written (bits : Bits) (src : Option SeedId) (seed : Seed) (mem : Bytes)
    (p : Nat) : Prop where
  minSequence : mem p = UInt8.ofNat seed.minSequence.toNat
  header : ∃ type : SeedIdType, type.len = seed.idLen src ∧
    (mem (p + 1)).toNat = seed.bmLen * 4 + type.code.toNat
  id : ∀ j < seed.idLen src, some (mem (p + 2 + j)) = seed.id[j]?
  bitmap : ∀ i, i / 8 < seed.bmLen → mem.bitTest bits (p + 2 + seed.idLen src) i =
    decide (∃ m ∈ seed.messages, seed.offset m = i)

/-- The header byte is the two fields side by side. -/
theorem header_toNat : ∀ n ≤ 16, ∀ type : SeedIdType,
    (UInt8.ofNat (n * 4) ||| type.code).toNat = n * 4 + type.code.toNat := by
  intro n hn type
  cases type <;> revert n <;> decide

section Record

variable {bits : Bits} {src : Option SeedId} {seed : Seed} {mem : Bytes} {p : Nat}

variable (bits src mem p) in
/-- `mpl_write_seed_info` ends where `mpl_seed_info_size` says. -/
theorem writeSeedInfo_end (hlength : seed.id.length ∈ idLengths) :
    (writeSeedInfo bits src mem p seed).2 = p + seed.infoSize src := by
  obtain ⟨type, htype, _⟩ := idTypeOf_idLen hlength src
  unfold writeSeedInfo
  rw [htype]
  dsimp only
  unfold Seed.infoSize
  omega

/-- It writes nowhere else. -/
theorem writeSeedInfo_frame (hlength : seed.id.length ∈ idLengths) (hw : seed.Windowed) {q : Nat}
    (hq : q < p ∨ p + seed.infoSize src ≤ q) :
    (writeSeedInfo bits src mem p seed).1 q = mem q := by
  obtain ⟨type, htype, _⟩ := idTypeOf_idLen hlength src
  have hid := idLen_le seed src
  unfold Seed.infoSize at hq
  unfold writeSeedInfo
  rw [htype]
  dsimp only
  rw [hw.writeBitmap_frame (by omega)]
  have hcopy : ∀ mem : Bytes,
      mem.copy (p + 2) (seed.id.take (seed.idLen src)) q = mem q := by
    intro mem
    rcases hq with hq | hq
    · exact Bytes.copy_before _ (by omega)
    · refine Bytes.copy_after _ ?_
      rw [List.length_take]
      omega
  rw [hcopy, Bytes.write_ne _ (by omega), Bytes.write_ne _ (by omega), Bytes.write_ne _ (by omega)]

/-- **The record written.** -/
theorem writeSeedInfo_written (hlength : seed.id.length ∈ idLengths) (hw : seed.Windowed) :
    seed.Written bits src (writeSeedInfo bits src mem p seed).1 p := by
  obtain ⟨type, htype, hlen⟩ := idTypeOf_idLen hlength src
  have hid := idLen_le seed src
  unfold writeSeedInfo
  rw [htype]
  dsimp only
  constructor
  · rw [hw.writeBitmap_frame (by omega), Bytes.copy_before _ (by omega),
      Bytes.write_ne _ (by omega), Bytes.write_ne _ (by omega), Bytes.write_self]
  · refine ⟨type, hlen, ?_⟩
    rw [hw.writeBitmap_frame (by omega), Bytes.copy_before _ (by omega), Bytes.write_self,
      Bytes.write_self]
    exact header_toNat _ hw.bmLen_le type
  · intro j hj
    rw [hw.writeBitmap_frame (by omega)]
    have htake : j < (seed.id.take (seed.idLen src)).length := by
      rw [List.length_take]
      omega
    rw [Bytes.copy_at _ htake]
    simp [List.getElem?_eq_getElem (show j < seed.id.length by omega)]
  · intro i hi
    exact Seed.Windowed.writeBitmap_test hi

/-- Each byte of it is written: nothing which was there before shows. -/
theorem writeSeedInfo_within (hlength : seed.id.length ∈ idLengths) (hw : seed.Windowed)
    {mem' : Bytes} {q : Nat} (hp : p ≤ q) (hq : q < p + seed.infoSize src) :
    (writeSeedInfo bits src mem p seed).1 q = (writeSeedInfo bits src mem' p seed).1 q := by
  obtain ⟨type, htype, _⟩ := idTypeOf_idLen hlength src
  have hid := idLen_le seed src
  unfold Seed.infoSize at hq
  unfold writeSeedInfo
  rw [htype]
  dsimp only
  by_cases hmap : p + 2 + seed.idLen src ≤ q
  · exact Seed.Windowed.writeBitmap_within hmap (by omega)
  · rw [hw.writeBitmap_frame (by omega), hw.writeBitmap_frame (by omega)]
    by_cases hcopy : p + 2 ≤ q
    · obtain ⟨j, rfl⟩ := Nat.exists_eq_add_of_le hcopy
      have htake : j < (seed.id.take (seed.idLen src)).length := by
        rw [List.length_take]
        omega
      rw [Bytes.copy_at _ htake, Bytes.copy_at _ htake]
    · rw [Bytes.copy_before _ (by omega), Bytes.copy_before _ (by omega)]
      by_cases hhead : q = p + 1
      · subst hhead
        rw [Bytes.write_self, Bytes.write_self, Bytes.write_self, Bytes.write_self]
      · have hq : q = p := by omega
        subst hq
        rw [Bytes.write_ne _ (by omega), Bytes.write_ne _ (by omega), Bytes.write_self,
          Bytes.write_ne _ (by omega), Bytes.write_ne _ (by omega), Bytes.write_self]

end Record

/-! ## Runs -/

/-- A record of the seed is as long as was said, each byte of it and none beside it
is written, and each message has a bit in it. -/
structure Seed.Fits (bits : Bits) (src : Option SeedId) (seed : Seed) : Prop where
  ends : ∀ mem p, (writeSeedInfo bits src mem p seed).2 = p + seed.infoSize src
  beside : ∀ mem p q, q < p ∨ p + seed.infoSize src ≤ q →
    (writeSeedInfo bits src mem p seed).1 q = mem q
  written : ∀ mem mem' p q, p ≤ q → q < p + seed.infoSize src →
    (writeSeedInfo bits src mem p seed).1 q = (writeSeedInfo bits src mem' p seed).1 q
  inside : ∀ m ∈ seed.messages, seed.offset m / 8 < seed.bmLen

/-- Every seed has distinct numbers in its window, in order, and fits its records;
the room taken is the sum of the sizes. -/
structure State.InWindow (bits : Bits) (s : State) : Prop where
  distinct : ∀ dom ∈ s.domains, ∀ seed ∈ dom.seeds, seed.sequences.Nodup
  windowed : ∀ dom ∈ s.domains, ∀ seed ∈ dom.seeds, seed.Windowed
  fits : ∀ dom ∈ s.domains, ∀ seed ∈ dom.seeds, ∀ src, seed.Fits bits src
  total : s.totalBuffered = s.stored

theorem Seed.Windowed.fits {bits : Bits} {src : Option SeedId} {seed : Seed} (h : seed.Windowed)
    (hlength : seed.id.length ∈ idLengths) : seed.Fits bits src :=
  ⟨fun _ _ => writeSeedInfo_end _ _ _ _ hlength, fun _ _ _ => writeSeedInfo_frame hlength h,
    fun _ _ _ _ => writeSeedInfo_within hlength h, fun _ hm => h.offset_bit hm⟩

/-- **Seeds stay in their window.**  In every run in which no comparison of
opposite numbers decides what becomes of a message, the seeds of the state reached
are in their windows and fit their records. -/
theorem run_inWindow (bits : Bits) (acts : List Act) (t : State)
    (hclear : Runs.Meets (step bits) Clear State.init acts)
    (h : Runs.run (step bits) State.init acts = some t) : t.InWindow bits := by
  have ht : t.Tidy := State.Tidy.run hclear h
  exact ⟨fun dom hdom seed hseed => (ht.windowed dom hdom seed hseed).nodup, ht.windowed,
    fun dom hdom seed hseed _ =>
      (ht.windowed dom hdom seed hseed).fits (ht.lengths dom hdom seed hseed), ht.total⟩

/-! ### A message opposite to the window -/

/-- The bits of a byte, from the lowest. -/
def Bits.plain : Bits where
  set b i := ⟨b.toBitVec ||| BitVec.twoPow 8 i⟩
  test b i := b.toBitVec.getLsbD i
  test_zero i _ := by
    change (0#8).getLsbD i = false
    simp
  test_set b i hi j hj := by
    simp [BitVec.getLsbD_twoPow, hi, Bool.or_comm]

/-- Memory for everything, and no randomness. -/
def plainEnv : Env where
  seedMemory := true
  messageMemory := true
  lowLatency := false
  interval := 10
  time := fun _ _ => 5
  controlInterval := 10
  controlTime := 5

/-- No memory for messages: the seed is known, the message not held. -/
def poorEnv : Env := { plainEnv with messageMemory := false }

def plainConfig : DomainConfig where
  key := 0
  realmScope := true
  proactiveForwarding := true
  seedSetEntryLifetime := 1800
  dataTrickleParams := ⟨10, 80, 8, 3⟩
  controlTrickleParams := ⟨10, 80, 8, 3⟩

/-- A message of 100 bytes from one seed. -/
def plainData (number : Nat) : Data where
  number
  idType := .bits16
  option := [0xfe, 0x01]
  source := List.replicate 16 0
  mFlag := false
  hopLimit := 64
  length := 100
  multicastLoop := false
  seeding := false
  option_length := by decide
  source_length := by decide

/-- Messages of one seed, in a domain just created. -/
def plainRun (numbers : List Nat) : List Act :=
  .domainCreate plainEnv plainConfig :: numbers.map fun n => .data plainEnv 0 (plainData n)

/-- The numbers 0 and 128 of one seed: the second is held in front of the first,
and its bit is in a byte the record does not have. -/
theorem opposite_not_inWindow :
    ∃ t, Runs.run (step Bits.plain) State.init (plainRun [0, 128]) = some t ∧
      ¬t.InWindow Bits.plain := by
  refine ⟨_, rfl, fun h => ?_⟩
  have hfits := h.fits _ List.mem_cons_self _ List.mem_cons_self none
  have hinside := hfits.inside _ List.mem_cons_self
  revert hinside
  decide

/-- The numbers 0, 127, 2 and 1 instead. -/
theorem run_inWindow_some :
    ∃ t, Runs.run (step Bits.plain) State.init (plainRun [0, 127, 2, 1]) = some t ∧
      t.InWindow Bits.plain :=
  ⟨_, rfl, run_inWindow Bits.plain (plainRun [0, 127, 2, 1]) _ (by decide) rfl⟩

end Mpl
