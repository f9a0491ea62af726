import Mathlib.Algebra.GroupWithZero.Nat
import Mathlib.Tactic.FinCases
import WisunModem.GtkTable
import WisunModem.RecordCursor

/-!
# The security records in NVM

`ws_pae_nvm_data.c` writes three records: the network information with the GTKs, the pairwise
keys, and the frame counters.  The GTKs are read back through the functions that install a key,
which renumber the install orders of those that are there already.

* `nwInfo_exact_iff` — the first record is restored exactly if no GTK has run out and no install
  order is skipped;
* `keys_exact_iff` — the second exactly if there is a PMK: without one the reader starts four
  bytes late at the counter;
* `frameCounters_exact` — the third always.
-/

namespace NvmRecords

open ByteStore GtkTable RecordCursor

local instance fourGtks : NeZero 4 := ⟨by decide⟩

/-- `nvm_tlv_t`. -/
structure Tlv where
  tag : Nat
  len : Nat
  data : Store

def PAE_NVM_NW_INFO_TAG : Nat := 1
def PAE_NVM_KEYS_TAG : Nat := 2
def PAE_NVM_FRAME_COUNTER_TAG : Nat := 3

def PAE_NVM_NW_INFO_LEN : Nat := 2 + 33 + 8 + (1 + 8 + 1 + 1 + 16) * 4
def PAE_NVM_KEYS_LEN : Nat := 1 + 8 + 1 + 4 + 32 + 8 + 1 + 4 + 48
def PAE_NVM_FRAME_COUNTER_LEN : Nat := 4 + 8 + 2 + (1 + 16 + 4) * 4

/-- `PAE_NVM_FIELD_NOT_SET` and `PAE_NVM_FIELD_SET`. -/
def fieldNotSet : List UInt8 := [0]
def fieldSet : List UInt8 := [1]

/-! ## Times -/

/-- `SEC_MAXIMUM_LIFETIME`. -/
def maximumLifetime : Nat := 60 * 60 * 24 * 30 * 24

/-- The end of `ws_pae_time_diff_calc`: the difference is held in 32 bits with a sign. -/
def timeDiff (difference : UInt64) : Option UInt32 :=
  if (maximumLifetime : Int) < (difference.toNat : Int).bmod (2 ^ 32) then none
  else some difference.toUInt32

/-- `ws_pae_time_diff_calc`. -/
def timeDiffCalc (currTime compTime : UInt64) (future : Bool) : Option UInt32 :=
  if currTime < compTime then if future then timeDiff (compTime - currTime) else none
  else if future then none else timeDiff (currTime - compTime)

/-- A key of this lifetime has not run out when it is read back at once, and its lifetime is one
that is believed. -/
def Lasting (now : UInt64) (lifetime : UInt32) : Prop :=
  0 < lifetime.toNat ∧ now.toNat + lifetime.toNat < 2 ^ 64 ∧
    (lifetime.toNat ≤ maximumLifetime ∨ 2 ^ 31 ≤ lifetime.toNat)

instance (now : UInt64) (lifetime : UInt32) : Decidable (Lasting now lifetime) :=
  inferInstanceAs (Decidable (_ ∧ _ ∧ (_ ∨ _)))

/-- `sec_prot_keys_gtk_exptime_from_lifetime_get` of a key that is set. -/
def exptime (now : UInt64) (lifetime : UInt32) : UInt64 := now + lifetime.toUInt64

/-- The difference in 32 bits with a sign is too long exactly if the lifetime is neither short nor
has the sign set. -/
theorem timeDiff_toUInt64 (lifetime : UInt32) :
    timeDiff lifetime.toUInt64 =
      if lifetime.toNat ≤ maximumLifetime ∨ 2 ^ 31 ≤ lifetime.toNat then some lifetime
      else none := by
  have hlife := lifetime.toNat_lt
  have hback : lifetime.toUInt64.toUInt32 = lifetime := UInt32.toUInt32_toUInt64 _
  have hlong : (maximumLifetime : Int) < (lifetime.toNat : Int).bmod (2 ^ 32) ↔
      ¬(lifetime.toNat ≤ maximumLifetime ∨ 2 ^ 31 ≤ lifetime.toNat) := by
    simp only [maximumLifetime, Int.bmod_def]
    omega
  unfold timeDiff
  rw [UInt32.toNat_toUInt64, hback]
  simp only [hlong, ite_not]

/-- The time at which a key runs out says how long it lasts, if it lasts. -/
theorem timeDiffCalc_exptime (now : UInt64) (lifetime : UInt32) :
    timeDiffCalc now (exptime now lifetime) true =
      if Lasting now lifetime then some lifetime else none := by
  have hlife := lifetime.toNat_lt
  have hnow := now.toNat_lt
  have hsum : (exptime now lifetime).toNat = (now.toNat + lifetime.toNat) % 2 ^ 64 := by
    rw [exptime, UInt64.toNat_add, UInt32.toNat_toUInt64]
  have hafter : now < exptime now lifetime ↔
      0 < lifetime.toNat ∧ now.toNat + lifetime.toNat < 2 ^ 64 := by
    rw [UInt64.lt_iff_toNat_lt, hsum]
    omega
  have hdiff : exptime now lifetime - now = lifetime.toUInt64 := by
    rw [exptime, UInt64.add_comm, UInt64.add_sub_cancel]
  have hlasting : Lasting now lifetime ↔
      (0 < lifetime.toNat ∧ now.toNat + lifetime.toNat < 2 ^ 64) ∧
        (lifetime.toNat ≤ maximumLifetime ∨ 2 ^ 31 ≤ lifetime.toNat) := by
    rw [and_assoc]
    exact Iff.rfl
  unfold timeDiffCalc
  rw [hdiff, timeDiff_toUInt64]
  simp only [hafter, hlasting]
  by_cases hlt : 0 < lifetime.toNat ∧ now.toNat + lifetime.toNat < 2 ^ 64
  · rw [if_pos hlt, if_pos trivial]
    simp only [hlt, true_and]
  · rw [if_neg hlt, if_pos trivial, if_neg fun h => hlt h.1]

/-! ## Records as a whole -/

variable {F α : Type}

/-- A record is created over what is in the buffer. -/
def tlvCreate (tag len : Nat) (acts : List (Act F)) (data : Store) : Tlv :=
  { tag := tag, len := len, data := write acts 0 data }

/-- A record of another kind or length is not read. -/
def tlvRead (tag len : Nat) (r : Reader F α) (tlv : Tlv) : Option (α × Reading F) :=
  if tlv.tag ≠ tag ∨ tlv.len ≠ len then none else some (runReader r tlv.data)

theorem tlvRead_tlvCreate (tag len : Nat) (acts : List (Act F)) (r : Reader F α) (data : Store) :
    tlvRead tag len r (tlvCreate tag len acts data) = some (runReader r (write acts 0 data)) := by
  simp [tlvRead, tlvCreate]

/-- What a record is worth that these acts write and this reader reads: what is read is what
should be, the reader looks for each field where the writer has put it, and neither goes beyond
the length of the record. -/
structure Exact (tag len : Nat) (acts : List (Act F)) (r : Reader F α) (restored : α → Prop)
    (data : Store) : Prop where
  restored : ∃ p ∈ tlvRead tag len r (tlvCreate tag len acts data), restored p.1
  agree : ∀ p ∈ tlvRead tag len r (tlvCreate tag len acts data), p.2.seen ⊆ spots acts 0
  inside : ∀ p ∈ tlvRead tag len r (tlvCreate tag len acts data), ∀ s ∈ p.2.seen,
    s.offset + s.length ≤ len
  frame : ∀ i, len ≤ i → (tlvCreate tag len acts data).data i = data i

/-- Everything that is written inside has its place inside. -/
theorem spots_inside {len : Nat} {acts : List (Act F)} {pos : Nat}
    (hinside : Inside len acts pos) : ∀ s ∈ spots acts pos, s.offset + s.length ≤ len := by
  induction acts generalizing pos with
  | nil => exact fun s hmem => by cases hmem
  | cons a acts ih =>
      cases a with
      | copy f bs =>
          intro s hmem
          rcases List.mem_cons.mp hmem with rfl | hmem
          · exact hinside.1
          · exact ih hinside.2 s hmem
      | fill n => exact ih hinside.2
      | skip n => exact ih hinside

/-- A reader that follows the writer reads the record exactly. -/
theorem exact_of_finishes (tag : Nat) {acts : List (Act F)} {len : Nat} {r : Reader F α} {x : α}
    {restored : α → Prop} (hfinishes : Finishes acts r x) (hinside : Inside len acts 0)
    (hrestored : restored x) (data : Store) : Exact tag len acts r restored data := by
  obtain ⟨hread, hseen⟩ := hfinishes.reads data
  have htlv := tlvRead_tlvCreate tag len acts r data
  refine ⟨⟨_, htlv, ?_⟩, ?_, ?_, fun i hi => write_outside hinside hi data⟩
  · rw [hread]
    exact hrestored
  · intro p hp
    obtain rfl := Option.mem_unique htlv hp
    exact hseen
  · intro p hp s hmem
    obtain rfl := Option.mem_unique htlv hp
    exact spots_inside hinside s (hseen hmem)

/-- A number of so many bytes. -/
theorem follows_number (f : F) (n x : Nat) :
    Follows (put f (beBytes n x)) (take f n) (beBytes n x) := by
  have htake := follows_take f (beBytes n x)
  rw [length_beBytes] at htake
  exact htake

/-- A flag. -/
theorem follows_flag (f : F) {flag : List UInt8} (hflag : flag.length = 1) :
    Follows (put f flag) (take f 1) flag := by
  have htake := follows_take f flag
  rw [hflag] at htake
  exact htake

/-- A key that is written byte by byte. -/
theorem key_read {w : Nat} (n : Nat) (key : BitVec w) (hw : w = 8 * n) :
    BitVec.ofNat w (be (beBytes n key.toNat)) = key := by
  rw [be_beBytes (by rw [← hw]; exact key.isLt), BitVec.ofNat_toNat, BitVec.setWidth_eq]

theorem uint16_read (x : UInt16) : UInt16.ofNat (be (beBytes 2 x.toNat)) = x := by
  rw [be_beBytes x.toNat_lt, UInt16.ofNat_toNat]

theorem uint32_read (x : UInt32) : UInt32.ofNat (be (beBytes 4 x.toNat)) = x := by
  rw [be_beBytes x.toNat_lt, UInt32.ofNat_toNat]

theorem uint64_read (x : UInt64) : UInt64.ofNat (be (beBytes 8 x.toNat)) = x := by
  rw [be_beBytes x.toNat_lt, UInt64.ofNat_toNat]

/-! ## Frame counters -/

inductive FrameCounterField where
  | restartCnt
  | storedTime
  | panVersion
  | counterSet (index : Fin 4)
  | gtk (index : Fin 4)
  | frameCounter (index : Fin 4)
deriving DecidableEq

/-- `frame_counter_t`. -/
structure FrameCounter where
  gtk : BitVec 128
  frameCounter : UInt32
  storedFrameCounter : UInt32
  set : Bool
deriving DecidableEq

/-- What the record of the frame counters is about. -/
structure FrameCounters where
  restartCnt : UInt32
  storedTime : UInt64
  panVersion : UInt16
  counter : Fin 4 → FrameCounter

/-- One counter of `ws_pae_nvm_store_frame_counter_tlv_create`. -/
def counterActs (counter : Fin 4 → FrameCounter) (index : Fin 4) : List (Act FrameCounterField) :=
  if (counter index).set then
    put (.counterSet index) fieldSet ++
      (put (.gtk index) (beBytes 16 (counter index).gtk.toNat) ++
        put (.frameCounter index) (beBytes 4 (counter index).frameCounter.toNat))
  else put (.counterSet index) fieldNotSet ++ zeros (16 + 4)

/-- `ws_pae_nvm_store_frame_counter_tlv_create`; the stored time is the current one. -/
def frameCounterActs (c : FrameCounters) : List (Act FrameCounterField) :=
  put .restartCnt (beBytes 4 c.restartCnt.toNat) ++
    (put .storedTime (beBytes 8 c.storedTime.toNat) ++
      (put .panVersion (beBytes 2 c.panVersion.toNat) ++
        (List.finRange 4).flatMap (counterActs c.counter)))

/-- One counter of `ws_pae_nvm_store_frame_counter_tlv_read`. -/
def counterRead (counter : Fin 4 → FrameCounter) (index : Fin 4) :
    Reader FrameCounterField (Fin 4 → FrameCounter) := do
  let flag ← take (.counterSet index) 1
  if flag = fieldNotSet then
    skip (16 + 4)
    return Function.update counter index { counter index with set := false }
  else
    let gtk ← take (.gtk index) 16
    let frameCounter ← take (.frameCounter index) 4
    return Function.update counter index { counter index with
      set := true, gtk := BitVec.ofNat 128 (be gtk)
      frameCounter := UInt32.ofNat (be frameCounter) }

/-- `ws_pae_nvm_store_frame_counter_tlv_read` into these counters. -/
def frameCounterRead (counter : Fin 4 → FrameCounter) :
    Reader FrameCounterField FrameCounters := do
  let restartCnt ← take .restartCnt 4
  let storedTime ← take .storedTime 8
  let panVersion ← take .panVersion 2
  let counter ← (List.finRange 4).foldlM counterRead counter
  return { restartCnt := UInt32.ofNat (be restartCnt), storedTime := UInt64.ofNat (be storedTime),
           panVersion := UInt16.ofNat (be panVersion), counter := counter }

/-- Every field is as it was, and of the counters those that are set. -/
def FrameCounters.Restored (c c' : FrameCounters) : Prop :=
  c'.restartCnt = c.restartCnt ∧ c'.storedTime = c.storedTime ∧ c'.panVersion = c.panVersion ∧
    ∀ i, (c'.counter i).set = (c.counter i).set ∧
      ((c.counter i).set = true → (c'.counter i).gtk = (c.counter i).gtk ∧
        (c'.counter i).frameCounter = (c.counter i).frameCounter)

/-- A counter as it is read over an old one. -/
def counterNext (c : Fin 4 → FrameCounter) (counter : Fin 4 → FrameCounter) (index : Fin 4) :
    Fin 4 → FrameCounter :=
  Function.update counter index
    (if (c index).set then
      { counter index with
        set := true, gtk := (c index).gtk, frameCounter := (c index).frameCounter }
    else { counter index with set := false })

theorem counterRead_follows (c counter : Fin 4 → FrameCounter) (index : Fin 4) :
    Follows (counterActs c index) (counterRead counter index) (counterNext c counter index) := by
  unfold counterActs counterRead counterNext
  by_cases hset : (c index).set = true
  · rw [if_pos hset, if_pos hset]
    refine Follows.bind (follows_flag _ rfl) ?_
    rw [if_neg (by decide)]
    refine Follows.bind (follows_number ..) ?_
    rw [key_read 16 _ rfl]
    have hlast := (follows_number (FrameCounterField.frameCounter index) 4
      (c index).frameCounter.toNat).last
      fun frameCounter => Function.update counter index { counter index with
        set := true, gtk := (c index).gtk, frameCounter := UInt32.ofNat (be frameCounter) }
    rw [uint32_read] at hlast
    exact hlast
  · rw [if_neg hset, if_neg hset]
    refine Follows.bind (follows_flag _ rfl) ?_
    rw [if_pos rfl]
    exact (follows_skip _).last fun _ => _

/-- A counter has 21 bytes, whether or not it is set. -/
theorem counterActs_stop (c : Fin 4 → FrameCounter) (index : Fin 4) (pos : Nat) :
    stop (counterActs c index) pos = pos + 21 := by
  unfold counterActs
  split <;> simp [fieldSet, fieldNotSet, Nat.add_assoc]

theorem counterActs_inside (c : Fin 4 → FrameCounter) (index : Fin 4) {len pos : Nat}
    (hroom : pos + 21 ≤ len) : Inside len (counterActs c index) pos := by
  unfold counterActs
  split
  · simp only [inside_append, inside_put, stop_put, length_beBytes, fieldSet, List.length_cons,
      List.length_nil]
    omega
  · simp only [inside_append, inside_put, stop_put, inside_zeros, fieldNotSet, List.length_cons,
      List.length_nil]
    omega

theorem frameCounterRead_follows (c : FrameCounters) (counter : Fin 4 → FrameCounter) :
    Follows (frameCounterActs c) (frameCounterRead counter)
      { c with counter := (List.finRange 4).foldl (counterNext c.counter) counter } := by
  unfold frameCounterActs frameCounterRead
  refine Follows.bind (follows_number ..) (Follows.bind (follows_number ..)
    (Follows.bind (follows_number ..) ?_))
  rw [uint32_read, uint64_read, uint16_read]
  exact (Follows.foldlM (fun i x => counterRead_follows c.counter x i) (List.finRange 4)
    counter).last fun counter => { c with counter := counter }

theorem frameCounterActs_inside (c : FrameCounters) :
    Inside PAE_NVM_FRAME_COUNTER_LEN (frameCounterActs c) 0 := by
  have hlist : List.finRange 4 = [0, 1, 2, 3] := rfl
  unfold frameCounterActs
  rw [hlist]
  simp only [inside_append, inside_put, stop_put, length_beBytes, List.flatMap_cons,
    List.flatMap_nil, List.append_nil, counterActs_stop, PAE_NVM_FRAME_COUNTER_LEN]
  refine ⟨by decide, by decide, by decide, ?_, ?_, ?_, ?_⟩ <;>
    exact counterActs_inside _ _ (by decide)

/-- **The frame counters** are restored, whichever of them are set. -/
theorem frameCounters_exact (c : FrameCounters) (counter : Fin 4 → FrameCounter) (data : Store) :
    Exact PAE_NVM_FRAME_COUNTER_TAG PAE_NVM_FRAME_COUNTER_LEN (frameCounterActs c)
      (frameCounterRead counter) c.Restored data := by
  refine exact_of_finishes _ (frameCounterRead_follows c counter).finishes
    (frameCounterActs_inside c) ?_ data
  refine ⟨rfl, rfl, rfl, fun i => ?_⟩
  have hlist : List.finRange 4 = [0, 1, 2, 3] := rfl
  -- each counter is written once
  have hcounter : (List.finRange 4).foldl (counterNext c.counter) counter i =
      counterNext c.counter counter i i := by
    rw [hlist]
    fin_cases i <;> simp [counterNext]
  dsimp only
  rw [hcounter]
  by_cases hset : (c.counter i).set = true
  · simp [counterNext, hset]
  · simp [counterNext, hset]

/-! ## Pairwise keys -/

inductive KeysField where
  | eui64Set
  | eui64
  | pmkSet
  | pmkLifetime
  | pmk
  | replayCnt
  | ptkSet
  | ptkLifetime
  | ptk
deriving DecidableEq

/-- What `sec_prot_keys_t` has for the record; a key counts while it is set. -/
structure Keys where
  ptkEui64 : Option (BitVec 64)
  pmk : Option (BitVec 256)
  pmkLifetime : UInt32
  pmkKeyReplayCnt : UInt64
  pmkKeyReplayCntSet : Bool
  ptk : Option (BitVec 384)
  ptkLifetime : UInt32
  updated : Bool
deriving DecidableEq

/-- `sec_prot_keys_init`. -/
def keysInit : Keys :=
  { ptkEui64 := none, pmk := none, pmkLifetime := 0, pmkKeyReplayCnt := 0,
    pmkKeyReplayCntSet := false, ptk := none, ptkLifetime := 0, updated := false }

namespace Keys

/-- `sec_prot_keys_ptk_eui_64_write`. -/
def ptkEui64Write (k : Keys) (eui64 : BitVec 64) : Keys :=
  { k with ptkEui64 := some eui64, updated := true }

/-- `sec_prot_keys_pmk_write`. -/
def pmkWrite (k : Keys) (pmk : BitVec 256) (lifetime : UInt32) : Keys :=
  { k with
    pmk := some pmk, pmkKeyReplayCnt := 0, pmkKeyReplayCntSet := false, pmkLifetime := lifetime,
    updated := true }

/-- `sec_prot_keys_pmk_replay_cnt_set`. -/
def pmkReplayCntSet (k : Keys) (counter : UInt64) : Keys :=
  { k with pmkKeyReplayCntSet := true, pmkKeyReplayCnt := counter }

/-- `sec_prot_keys_ptk_write`. -/
def ptkWrite (k : Keys) (ptk : BitVec 384) (lifetime : UInt32) : Keys :=
  { k with ptk := some ptk, ptkLifetime := lifetime, updated := true }

/-- `sec_prot_keys_pmk_delete`. -/
def pmkDelete (k : Keys) : Keys :=
  { k with
    updated := k.updated || (k.pmkKeyReplayCnt != 0 || k.pmkKeyReplayCntSet ||
      k.pmkLifetime != 0 || k.pmk.isSome)
    pmk := none, pmkKeyReplayCnt := 0, pmkKeyReplayCntSet := false, pmkLifetime := 0 }

/-- `sec_prot_keys_ptk_delete`. -/
def ptkDelete (k : Keys) : Keys :=
  { k with
    updated := k.updated || (k.ptkLifetime != 0 || k.ptk.isSome), ptk := none, ptkLifetime := 0 }

/-- `sec_prot_keys_ptk_eui_64_delete`. -/
def ptkEui64Delete (k : Keys) : Keys :=
  { k with updated := k.updated || k.ptkEui64.isSome, ptkEui64 := none }

/-- `sec_prot_keys_pmk_lifetime_decrement`. -/
def pmkLifetimeDecrement (k : Keys) (seconds : UInt8) : Keys :=
  if k.pmk.isNone then k
  else if seconds.toUInt32 < k.pmkLifetime then
    { k with pmkLifetime := k.pmkLifetime - seconds.toUInt32 }
  else if 0 < k.pmkLifetime then { k with pmkLifetime := 0 }.ptkDelete.pmkDelete
  else k

/-- `sec_prot_keys_ptk_lifetime_decrement`. -/
def ptkLifetimeDecrement (k : Keys) (seconds : UInt8) : Keys :=
  if k.ptk.isNone then k
  else if seconds.toUInt32 < k.ptkLifetime then
    { k with ptkLifetime := k.ptkLifetime - seconds.toUInt32 }
  else if 0 < k.ptkLifetime then { k.ptkDelete with ptkLifetime := 0 }
  else k

/-- `sec_prot_keys_updated_reset`. -/
def updatedReset (k : Keys) : Keys := { k with updated := false }

/-- What was set is as it was. -/
def Restored (k k' : Keys) : Prop :=
  k'.ptkEui64 = k.ptkEui64 ∧ k'.pmk = k.pmk ∧ (k.pmk.isSome → k'.pmkLifetime = k.pmkLifetime) ∧
    k'.pmkKeyReplayCnt = k.pmkKeyReplayCnt ∧
    (k.pmkKeyReplayCntSet = true → k'.pmkKeyReplayCntSet = true) ∧
    k'.ptk = k.ptk ∧ (k.ptk.isSome → k'.ptkLifetime = k.ptkLifetime)

end Keys

/-- The EUI-64 of the PTK. -/
def eui64Acts (k : Keys) : List (Act KeysField) :=
  match k.ptkEui64 with
  | some eui64 => put .eui64Set fieldSet ++ [.copy .eui64 (beBytes 8 eui64.toNat), .skip 8]
  | none => put .eui64Set fieldNotSet ++ [.fill 8, .skip 8]

/-- The PMK; without one the cursor is not moved over its lifetime. -/
def pmkActs (k : Keys) : List (Act KeysField) :=
  match k.pmk with
  | some pmk =>
      put .pmkSet fieldSet ++ (put .pmkLifetime (beBytes 4 k.pmkLifetime.toNat) ++
        [.copy .pmk (beBytes 32 pmk.toNat), .skip 32])
  | none => put .pmkSet fieldNotSet ++ [.fill (4 + 32), .skip 32]

/-- The PTK, in the same way. -/
def ptkActs (k : Keys) : List (Act KeysField) :=
  match k.ptk with
  | some ptk =>
      put .ptkSet fieldSet ++ (put .ptkLifetime (beBytes 4 k.ptkLifetime.toNat) ++
        [.copy .ptk (beBytes 48 ptk.toNat), .skip 48])
  | none => put .ptkSet fieldNotSet ++ [.fill (4 + 48), .skip 48]

/-- `ws_pae_nvm_store_keys_tlv_create`. -/
def keysActs (k : Keys) : List (Act KeysField) :=
  eui64Acts k ++
    (pmkActs k ++ (put .replayCnt (beBytes 8 k.pmkKeyReplayCnt.toNat) ++ ptkActs k))

def eui64Read (k : Keys) : Reader KeysField Keys := do
  let flag ← take .eui64Set 1
  if flag = fieldSet then
    let eui64 ← take .eui64 8
    return k.ptkEui64Write (BitVec.ofNat 64 (be eui64))
  else
    skip 8
    return k

/-- The cursor is moved over the lifetime of the PMK in any case. -/
def pmkRead (k : Keys) : Reader KeysField Keys := do
  let flag ← take .pmkSet 1
  if flag = fieldSet then
    let lifetime ← take .pmkLifetime 4
    let pmk ← take .pmk 32
    return k.pmkWrite (BitVec.ofNat 256 (be pmk)) (UInt32.ofNat (be lifetime))
  else
    skip 4
    skip 32
    return k

def ptkRead (k : Keys) : Reader KeysField Keys := do
  let flag ← take .ptkSet 1
  if flag = fieldSet then
    let lifetime ← take .ptkLifetime 4
    let ptk ← take .ptk 48
    return k.ptkWrite (BitVec.ofNat 384 (be ptk)) (UInt32.ofNat (be lifetime))
  else
    skip 4
    skip 48
    return k

/-- `ws_pae_nvm_store_keys_tlv_read` into these keys. -/
def keysRead (k : Keys) : Reader KeysField Keys := do
  let k ← eui64Read k
  let k ← pmkRead k
  let counter ← take .replayCnt 8
  let k ← ptkRead (k.pmkReplayCntSet (UInt64.ofNat (be counter)))
  return k.updatedReset

/-! ### With a PMK -/

theorem eui64Read_follows (k k₀ : Keys) :
    Follows (eui64Acts k) (eui64Read k₀)
      (match k.ptkEui64 with
        | some eui64 => k₀.ptkEui64Write eui64
        | none => k₀) := by
  unfold eui64Acts eui64Read
  cases k.ptkEui64 with
  | none =>
      refine Follows.bind (follows_flag _ rfl) ?_
      rw [if_neg (by decide)]
      exact (follows_skip 8).last fun _ => k₀
  | some eui64 =>
      refine Follows.bind (follows_flag _ rfl) ?_
      rw [if_pos rfl]
      have hlast := (follows_number KeysField.eui64 8 eui64.toNat).last
        fun bs => k₀.ptkEui64Write (BitVec.ofNat 64 (be bs))
      rw [key_read 8 _ rfl, put, length_beBytes] at hlast
      exact hlast

theorem pmkRead_follows {k : Keys} {pmk : BitVec 256} (hpmk : k.pmk = some pmk) (k₀ : Keys) :
    Follows (pmkActs k) (pmkRead k₀) (k₀.pmkWrite pmk k.pmkLifetime) := by
  unfold pmkActs pmkRead
  rw [hpmk]
  refine Follows.bind (follows_flag _ rfl) ?_
  rw [if_pos rfl]
  refine Follows.bind (follows_number ..) ?_
  rw [uint32_read]
  have hlast := (follows_number KeysField.pmk 32 pmk.toNat).last
    fun bs => k₀.pmkWrite (BitVec.ofNat 256 (be bs)) k.pmkLifetime
  rw [key_read 32 _ rfl, put, length_beBytes] at hlast
  exact hlast

/-- Behind the PTK nothing is read any more, so it does not matter that the cursors part. -/
theorem ptkRead_finishes (k k₀ : Keys) :
    Finishes (ptkActs k) (ptkRead k₀ >>= fun k => pure k.updatedReset)
      (match k.ptk with
        | some ptk => (k₀.ptkWrite ptk k.ptkLifetime).updatedReset
        | none => k₀.updatedReset) := by
  unfold ptkActs ptkRead
  cases k.ptk with
  | none =>
      rw [bind_assoc]
      refine Follows.bindFinishes (follows_flag _ rfl) ?_
      rw [if_neg (by decide)]
      exact finishes_pass _ fun m pos seen => ⟨_, rfl⟩
  | some ptk =>
      refine Follows.finishes (Follows.last (x := k₀.ptkWrite ptk k.ptkLifetime) ?_ _)
      refine Follows.bind (follows_flag _ rfl) ?_
      rw [if_pos rfl]
      refine Follows.bind (follows_number ..) ?_
      rw [uint32_read]
      have hlast := (follows_number KeysField.ptk 48 ptk.toNat).last
        fun bs => k₀.ptkWrite (BitVec.ofNat 384 (be bs)) k.ptkLifetime
      rw [key_read 48 _ rfl, put, length_beBytes] at hlast
      exact hlast

/-- The record with a PMK, read into keys that were just initialised. -/
theorem keysRead_finishes {k : Keys} {pmk : BitVec 256} (hpmk : k.pmk = some pmk) :
    ∃ k', k.Restored k' ∧ Finishes (keysActs k) (keysRead keysInit) k' := by
  unfold keysActs keysRead
  refine ⟨_, ?_, (eui64Read_follows k keysInit).bindFinishes
    ((pmkRead_follows hpmk _).bindFinishes
      ((follows_number ..).bindFinishes (ptkRead_finishes k _)))⟩
  rw [uint64_read]
  cases heui64 : k.ptkEui64 <;> cases hptk : k.ptk <;>
    simp [Keys.Restored, heui64, hpmk, hptk, Keys.ptkWrite, Keys.updatedReset,
      Keys.pmkReplayCntSet, Keys.pmkWrite, Keys.ptkEui64Write, keysInit]

theorem eui64Acts_room (k : Keys) (pos : Nat) :
    stop (eui64Acts k) pos = pos + 9 ∧ Inside (pos + 9) (eui64Acts k) pos := by
  unfold eui64Acts
  split <;> simp [fieldSet, fieldNotSet, stop, Inside, Nat.add_assoc]

theorem keysActs_inside (k : Keys) : Inside PAE_NVM_KEYS_LEN (keysActs k) 0 := by
  obtain ⟨hstop, heui64⟩ := eui64Acts_room k 0
  unfold keysActs
  rw [inside_append, hstop]
  refine ⟨heui64.mono (by decide), ?_⟩
  unfold pmkActs ptkActs
  split <;> split <;>
    simp [fieldSet, fieldNotSet, Inside, PAE_NVM_KEYS_LEN]

/-! ### Without a PMK -/

theorem eui64Read_pos (k : Keys) (m : Store) (r : Reading KeysField) :
    (eui64Read k m r).2.pos = r.pos + 9 := by
  unfold eui64Read
  change ((if bytes m r.pos 1 = fieldSet then _ else _ : Reader KeysField Keys) m _).2.pos = _
  split <;> rfl

theorem pmkRead_pos (k : Keys) (m : Store) (r : Reading KeysField) :
    (pmkRead k m r).2.pos = r.pos + 37 := by
  unfold pmkRead
  change ((if bytes m r.pos 1 = fieldSet then _ else _ : Reader KeysField Keys) m _).2.pos = _
  split <;> rfl

/-- Reading the PTK forgets nothing that was seen before. -/
theorem ptkRead_seen (k : Keys) (m : Store) (r : Reading KeysField) :
    r.seen ⊆ (ptkRead k m r).2.seen := by
  unfold ptkRead
  change _ ⊆ ((if bytes m r.pos 1 = fieldSet then _ else _ : Reader KeysField Keys) m _).2.seen
  split
  · change r.seen ⊆ ((r.seen ++ _) ++ _) ++ _
    simp
  · change r.seen ⊆ r.seen ++ _
    simp

/-- Whatever the record says, the reader looks for the counter at 46. -/
theorem keysRead_seen (k : Keys) (m : Store) :
    ⟨.replayCnt, 46, 8⟩ ∈ (runReader (keysRead k) m).2.seen := by
  have heui64 := eui64Read_pos k m ⟨0, []⟩
  have hpmk := pmkRead_pos (eui64Read k m ⟨0, []⟩).1 m (eui64Read k m ⟨0, []⟩).2
  have htake := take_seen KeysField.replayCnt 8 m
    (pmkRead (eui64Read k m ⟨0, []⟩).1 m (eui64Read k m ⟨0, []⟩).2).2
  rw [hpmk, heui64] at htake
  exact ptkRead_seen _ m _ htake

/-- Without a PMK the writer puts it at 42. -/
theorem spots_replayCnt {k : Keys} (hpmk : k.pmk = none) :
    ⟨.replayCnt, 46, 8⟩ ∉ spots (keysActs k) 0 := by
  obtain ⟨hstop, -⟩ := eui64Acts_room k 0
  unfold keysActs
  rw [spots_append, hstop]
  unfold eui64Acts pmkActs ptkActs
  cases k.ptkEui64 <;> cases k.ptk <;> simp [hpmk, put, spots, fieldSet, fieldNotSet]

/-- **The pairwise keys** are restored, and writer and reader agree, exactly if there is a
PMK. -/
theorem keys_exact_iff (k : Keys) (data : Store) :
    Exact PAE_NVM_KEYS_TAG PAE_NVM_KEYS_LEN (keysActs k) (keysRead keysInit) k.Restored data ↔
      k.pmk.isSome = true := by
  constructor
  · intro hexact
    by_contra hnone
    have hpmk : k.pmk = none := by simpa using hnone
    exact spots_replayCnt hpmk (hexact.agree _ (tlvRead_tlvCreate ..) (keysRead_seen keysInit _))
  · intro hsome
    obtain ⟨pmk, hpmk⟩ := Option.isSome_iff_exists.mp hsome
    obtain ⟨k', hrestored, hfinishes⟩ := keysRead_finishes hpmk
    exact exact_of_finishes _ hfinishes (keysActs_inside k) hrestored data

/-- What the first part of a record has laid is there when the rest is written. -/
theorem holds_write_append {as : List (Act F)} {bs : List UInt8} (h : Lays as bs)
    (cs : List (Act F)) (m : Store) : Holds (write (as ++ cs) 0 m) 0 bs := by
  rw [write_append, h.2 0]
  exact (h.1 0 m).congr fun i _ hi => write_before cs hi _

/-- The byte in which the reader looks for the flag of the PTK, without a PMK and a PTK. -/
theorem write_keysActs_54 {k : Keys} (hpmk : k.pmk = none) (hptk : k.ptk = none) (data : Store) :
    write (keysActs k) 0 data 54 = 0 := by
  obtain ⟨hstop, -⟩ := eui64Acts_room k 0
  unfold keysActs
  simp only [pmkActs, hpmk, ptkActs, hptk, write_append, hstop, stop_append, stop_put]
  simp [fieldNotSet, stop, write, store, blit, ofList]

theorem pmkRead_unset {k : Keys} {m : Store} {r : Reading KeysField}
    (h : bytes m r.pos 1 ≠ fieldSet) : (pmkRead k m r).1 = k := by
  unfold pmkRead
  change ((if bytes m r.pos 1 = fieldSet then _ else _ : Reader KeysField Keys) m _).1 = _
  rw [if_neg h]
  rfl

/-- Reading the PTK leaves the other keys alone, and where its flag is not set, everything. -/
theorem ptkRead_frame (k : Keys) (m : Store) (r : Reading KeysField) :
    (ptkRead k m r).1.ptkEui64 = k.ptkEui64 ∧ (ptkRead k m r).1.pmk = k.pmk ∧
      (bytes m r.pos 1 ≠ fieldSet → (ptkRead k m r).1 = k) := by
  unfold ptkRead
  change ((if bytes m r.pos 1 = fieldSet then _ else _ : Reader KeysField Keys) m _).1.ptkEui64 =
      _ ∧
    ((if bytes m r.pos 1 = fieldSet then _ else _ : Reader KeysField Keys) m _).1.pmk = _ ∧
    (_ → ((if bytes m r.pos 1 = fieldSet then _ else _ : Reader KeysField Keys) m _).1 = _)
  split
  · exact ⟨rfl, rfl, fun h => absurd ‹_› h⟩
  · exact ⟨rfl, rfl, fun _ => rfl⟩

/-- Without a PMK the reader finds the EUI-64 and no PMK, and no PTK where there is none. -/
theorem keysRead_without {k : Keys} (hpmk : k.pmk = none) (data : Store) {k' : Keys}
    (hk' : (runReader (keysRead keysInit) (write (keysActs k) 0 data)).1 = k') :
    k'.ptkEui64 = k.ptkEui64 ∧ k'.pmk = none ∧ (k.ptk = none → k'.ptk = none) := by
  obtain ⟨cs, hlays, hread⟩ := eui64Read_follows k keysInit
  have hlen : cs.length = 9 := by
    have hstop := hlays.2 0
    rw [(eui64Acts_room k 0).1] at hstop
    omega
  -- the flag of the PMK comes next, and is not set
  have hheld := holds_write_append (hlays.append (lays_put KeysField.pmkSet fieldNotSet))
    ([.fill (4 + 32), .skip 32] ++
      (put .replayCnt (beBytes 8 k.pmkKeyReplayCnt.toNat) ++ ptkActs k)) data
  have hacts : (eui64Acts k ++ put .pmkSet fieldNotSet) ++ ([.fill (4 + 32), .skip 32] ++
      (put .replayCnt (beBytes 8 k.pmkKeyReplayCnt.toNat) ++ ptkActs k)) = keysActs k := by
    simp only [keysActs, pmkActs, hpmk, List.append_assoc]
  rw [hacts] at hheld
  have hptk : k.ptk = none → write (keysActs k) 0 data 54 = 0 :=
    fun h => write_keysActs_54 hpmk h data
  generalize write (keysActs k) 0 data = m at hheld hk' hptk
  obtain ⟨heui64, hflag⟩ := (holds_append ..).mp hheld
  obtain ⟨ss, -, hfirst⟩ := hread m 0 [] heui64
  rw [hlen, Nat.zero_add] at hflag
  have hnot : bytes m 9 1 ≠ fieldSet := by
    rw [show bytes m 9 1 = fieldNotSet from hflag]
    decide
  have hpmkRead := pmkRead_pos (eui64Read keysInit m ⟨0, []⟩).1 m
    (eui64Read keysInit m ⟨0, []⟩).2
  have hunset : (pmkRead (eui64Read keysInit m ⟨0, []⟩).1 m (eui64Read keysInit m ⟨0, []⟩).2).1 =
      (eui64Read keysInit m ⟨0, []⟩).1 :=
    pmkRead_unset (by rw [hfirst, hlen]; exact hnot)
  subst hk'
  set r₁ := eui64Read keysInit m ⟨0, []⟩
  set r₂ := pmkRead r₁.1 m r₁.2
  set k₂ := r₂.1.pmkReplayCntSet (UInt64.ofNat (be (bytes m r₂.2.pos 8)))
  obtain ⟨heui, hpmk', hptk'⟩ := ptkRead_frame k₂ m (take .replayCnt 8 m r₂.2).2
  have hpos : (take KeysField.replayCnt 8 m r₂.2).2.pos = 54 := by
    change r₂.2.pos + 8 = 54
    rw [hpmkRead, hfirst, hlen]
  rw [hpos] at hptk'
  have hkeys : k₂.ptkEui64 = k.ptkEui64 ∧ k₂.pmk = none ∧ k₂.ptk = none := by
    have hk₂ : k₂ = r₁.1.pmkReplayCntSet (UInt64.ofNat (be (bytes m r₂.2.pos 8))) := by
      rw [← hunset]
    rw [hk₂, hfirst]
    cases hk : k.ptkEui64 <;> exact ⟨rfl, rfl, rfl⟩
  refine ⟨heui.trans hkeys.1, hpmk'.trans hkeys.2.1, fun hnone => ?_⟩
  have hzero : bytes m 54 1 ≠ fieldSet := by
    have hbyte := hptk hnone
    simp [bytes, fieldSet, hbyte]
  change (ptkRead k₂ m (take .replayCnt 8 m r₂.2).2).1.ptk = none
  rw [hptk' hzero]
  exact hkeys.2.2

/-! ## Network information -/

inductive NwInfoField where
  | panId
  | nwName
  | gtkEui64
  | gtkSet (i : Fin 4)
  | expirytime (i : Fin 4)
  | status (i : Fin 4)
  | installOrder (i : Fin 4)
  | gtk (i : Fin 4)
deriving DecidableEq

/-- What `char network_name[33]` holds: no more than 32 characters before its end. -/
def Name : Type := { bs : List UInt8 // bs.length ≤ 32 ∧ ∀ b ∈ bs, b ≠ 0 }

instance : DecidableEq Name := inferInstanceAs (DecidableEq { _bs : List UInt8 // _ })

/-- What `strncpy` of 32 characters leaves. -/
def Name.ofBytes (bs : List UInt8) : Name :=
  ⟨(bs.take 32).takeWhile (· ≠ 0), by
    refine ⟨?_, ?_⟩
    · have htake : (bs.take 32).length ≤ 32 := by simp
      exact (List.takeWhile_prefix _).length_le.trans htake
    · intro b hmem
      have hb := List.all_eq_true.mp List.all_takeWhile b hmem
      simpa using hb⟩

def Name.empty : Name := ⟨[], by simp⟩

/-- The 33 bytes of a name. -/
def Name.bytes (name : Name) : List UInt8 :=
  name.1.take 32 ++ List.replicate (33 - (name.1.take 32).length) 0

theorem Name.length_bytes (name : Name) : name.bytes.length = 33 := by
  have hname := name.2.1
  simp only [Name.bytes, List.length_append, List.length_replicate, List.length_take]
  omega

theorem Name.ofBytes_bytes (name : Name) : Name.ofBytes name.bytes = name := by
  obtain ⟨bs, hlen, hbs⟩ := name
  refine Subtype.ext ?_
  change ((bs.take 32 ++ List.replicate (33 - (bs.take 32).length) 0).take 32).takeWhile _ = bs
  rw [List.take_of_length_le hlen, List.take_append, List.take_of_length_le hlen,
    List.take_replicate, List.takeWhile_append_of_pos (by simpa using hbs)]
  cases hrest : min (32 - bs.length) (33 - bs.length) with
  | zero => simp
  | succ n => simp [List.replicate_succ]

/-- One GTK of `ws_pae_nvm_store_nw_info_tlv_create`. -/
def gtkActs (now : UInt64) (t : Gtks) (i : Fin 4) : List (Act NwInfoField) :=
  if (t.gtk i).set then
    put (.gtkSet i) fieldSet ++
      (put (.expirytime i) (beBytes 8 (exptime now (t.gtk i).lifetime).toNat) ++
        (put (.status i) (beBytes 1 (t.gtk i).status.toBits) ++
          (put (.installOrder i) (beBytes 1 (t.gtk i).installOrder.val) ++
            put (.gtk i) (beBytes 16 (t.gtk i).key.toNat))))
  else put (.gtkSet i) fieldNotSet ++ zeros (8 + 1 + 1 + 16)

/-- What the record of the network information is about; without a table no GTK is written. -/
structure NwInfo where
  panId : UInt16
  name : Name
  gtkEui64 : BitVec 64
  gtks : Option Gtks

/-- What `ws_pae_nvm_store_nw_info_tlv_create` writes. -/
def nwInfoActs (now : UInt64) (n : NwInfo) : List (Act NwInfoField) :=
  put .panId (beBytes 2 n.panId.toNat) ++
    (put .nwName n.name.bytes ++
      (put .gtkEui64 (beBytes 8 n.gtkEui64.toNat) ++
        (List.finRange 4).flatMap (gtkActs now (n.gtks.getD gtksInit))))

/-- What it does to the table: the times at which the keys run out are kept. -/
def expirytimesSet (now : UInt64) (t : Gtks) : Gtks :=
  (List.finRange 4).foldl
    (fun t i => t.gtkExpirytimeSet i (exptime now (t.gtk i).lifetime)) t

/-- Only these times change, so writing the record does not change the key state. -/
theorem expirytimesSet_same (now : UInt64) (t : Gtks) (i : Fin 4) :
    (expirytimesSet now t).gtk i =
      { t.gtk i with expirytime := ((expirytimesSet now t).gtk i).expirytime } := by
  unfold expirytimesSet
  generalize List.finRange 4 = is
  induction is generalizing t with
  | nil => rfl
  | cons j is ih =>
      rw [List.foldl_cons, ih]
      unfold Gtks.gtkExpirytimeSet
      split
      · by_cases hi : i = j
        · subst hi
          simp
        · simp [Gtks.put_gtk_of_ne _ _ hi]
      · rfl

/-- A key is inserted, and then gets the fields that were stored with it. -/
def gtkRestore (t : Gtks) (i : Fin 4) (gtk : BitVec 128) (lifetime : UInt32) (expirytime : UInt64)
    (status : Status) (order : Fin 4) : Gtks :=
  let t := (t.gtkSet i gtk lifetime).getD t
  let t := t.gtkExpirytimeSet i expirytime
  let t := t.gtkStatusSet i status
  t.gtkInstallOrderSet i order

/-- One GTK of `ws_pae_nvm_store_nw_info_tlv_read`. -/
def gtkRead (now : UInt64) (t : Gtks) (i : Fin 4) : Reader NwInfoField Gtks := do
  let flag ← take (.gtkSet i) 1
  if flag = fieldSet then
    let expirytime ← take (.expirytime i) 8
    match timeDiffCalc now (UInt64.ofNat (be expirytime)) true with
    | none =>
        skip (1 + 1 + 16)
        return t
    | some lifetime =>
        let status ← take (.status i) 1
        let order ← take (.installOrder i) 1
        let gtk ← take (.gtk i) 16
        return gtkRestore t i (BitVec.ofNat 128 (be gtk)) lifetime (UInt64.ofNat (be expirytime))
          (.ofBits (be status)) (Fin.ofNat 4 (be order))
  else
    skip (8 + 1 + 1 + 16)
    return t

/-- The PAN id, unless the application has set one. -/
def panIdRead (panId : UInt16) : Reader NwInfoField UInt16 :=
  if panId = 0xffff then do
    let bs ← take .panId 2
    return UInt16.ofNat (be bs)
  else do
    skip 2
    return panId

/-- The network name, unless the application has set one. -/
def nwNameRead (name : Name) : Reader NwInfoField Name :=
  if name.1 = [] then do
    let bs ← take .nwName 33
    return Name.ofBytes bs
  else do
    skip 33
    return name

/-- The GTKs, if there is a table and nothing in it. -/
def gtksRead (now : UInt64) (gtks : Option Gtks) : Reader NwInfoField (Option Gtks) :=
  match gtks with
  | none => return none
  | some t =>
      if t.gtkCount = 0 then do
        let t ← (List.finRange 4).foldlM (gtkRead now) t
        return some t.updatedReset
      else return some t

/-- `ws_pae_nvm_store_nw_info_tlv_read`. -/
def nwInfoRead (now : UInt64) (panId : UInt16) (name : Name) (gtks : Option Gtks) :
    Reader NwInfoField NwInfo := do
  let panId ← panIdRead panId
  let name ← nwNameRead name
  let gtkEui64 ← take .gtkEui64 8
  let gtks ← gtksRead now gtks
  return { panId := panId, name := name, gtkEui64 := BitVec.ofNat 64 (be gtkEui64), gtks := gtks }

/-- How long a GTK of the record lasts from a later time on. -/
def lastsUntil (now later : UInt64) (k : GtkKey) : Option UInt32 :=
  if k.set then timeDiffCalc later (exptime now k.lifetime) true else none

/-- What reading one GTK at a later time makes of the table. -/
def gtkRecall (now later : UInt64) (src t : Gtks) (i : Fin 4) : Gtks :=
  match lastsUntil now later (src.gtk i) with
  | none => t
  | some lifetime =>
      gtkRestore t i (src.gtk i).key lifetime (exptime now (src.gtk i).lifetime)
        (src.gtk i).status (src.gtk i).installOrder

theorem gtkRead_follows (now later : UInt64) (src t : Gtks) (i : Fin 4) :
    Follows (gtkActs now src i) (gtkRead later t i) (gtkRecall now later src t i) := by
  unfold gtkActs gtkRead gtkRecall lastsUntil
  by_cases hset : (src.gtk i).set = true
  · rw [if_pos hset, if_pos hset]
    refine Follows.bind (follows_flag _ rfl) ?_
    rw [if_pos rfl]
    refine Follows.bind (follows_number ..) ?_
    rw [uint64_read]
    cases timeDiffCalc later (exptime now (src.gtk i).lifetime) true with
    | some lifetime =>
        refine Follows.bind (follows_number ..) (Follows.bind (follows_number ..) ?_)
        have hstatus : Status.ofBits (be (beBytes 1 (src.gtk i).status.toBits)) =
            (src.gtk i).status := by
          have hlt := (src.gtk i).status.toBits_lt
          rw [be_beBytes (by omega), Status.ofBits_toBits]
        have horder : Fin.ofNat 4 (be (beBytes 1 (src.gtk i).installOrder.val)) =
            (src.gtk i).installOrder := by
          have hlt := (src.gtk i).installOrder.isLt
          rw [be_beBytes (by omega), Fin.ofNat_val_eq_self]
        rw [hstatus, horder]
        have hlast := (follows_number (NwInfoField.gtk i) 16 (src.gtk i).key.toNat).last fun bs =>
          gtkRestore t i (BitVec.ofNat 128 (be bs)) lifetime (exptime now (src.gtk i).lifetime)
            (src.gtk i).status (src.gtk i).installOrder
        rw [key_read 16 _ rfl] at hlast
        exact hlast
    | none =>
        have hpass := follows_pass ((lays_put (NwInfoField.status i) (beBytes 1
          (src.gtk i).status.toBits)).append ((lays_put (.installOrder i) (beBytes 1
            (src.gtk i).installOrder.val)).append (lays_put (.gtk i) (beBytes 16
              (src.gtk i).key.toNat))))
        simp only [List.length_append, length_beBytes] at hpass
        exact hpass.last fun _ => t
  · rw [if_neg hset, if_neg hset]
    refine Follows.bind (follows_flag _ rfl) ?_
    rw [if_neg (by decide)]
    exact (follows_skip _).last fun _ => t

/-- What reading one GTK makes of the table, at the time at which it was written. -/
def gtkNext (now : UInt64) (src t : Gtks) (i : Fin 4) : Gtks :=
  if (src.gtk i).set ∧ Lasting now (src.gtk i).lifetime then
    gtkRestore t i (src.gtk i).key (src.gtk i).lifetime (exptime now (src.gtk i).lifetime)
      (src.gtk i).status (src.gtk i).installOrder
  else t

theorem gtkNext_eq (now : UInt64) (src : Gtks) : gtkNext now src = gtkRecall now now src := by
  funext t i
  unfold gtkRecall gtkNext lastsUntil
  rw [timeDiffCalc_exptime]
  by_cases hset : (src.gtk i).set = true
  · by_cases hlasting : Lasting now (src.gtk i).lifetime
    · rw [if_pos hset, if_pos hlasting, if_pos ⟨hset, hlasting⟩]
    · rw [if_pos hset, if_neg hlasting, if_neg fun h => hlasting h.2]
  · rw [if_neg hset, if_neg fun h => hset h.1]

/-! ### The table that is read back -/

section Restore

variable {t : Gtks} {i j : Fin 4} {gtk : BitVec 128} {lifetime : UInt32} {expirytime : UInt64}
  {status : Status} {order : Fin 4}

theorem gtkRestore_self (h : (t.gtk i).set = false) :
    (gtkRestore t i gtk lifetime expirytime status order).gtk i =
      { key := gtk, expirytime := expirytime, lifetime := lifetime, status := status,
        installOrder := order, set := true } := by
  obtain ⟨t', ht', hset, hkey, hlifetime⟩ := Gtks.gtkSet_of_unset h gtk lifetime
  simp [gtkRestore, ht', Gtks.gtkExpirytimeSet, Gtks.gtkStatusSet, Gtks.gtkInstallOrderSet, hset,
    hkey, hlifetime]

theorem gtkRestore_other (h : (t.gtk i).set = false) (hne : j ≠ i) :
    Gtks.Moved (t.gtk j) ((gtkRestore t i gtk lifetime expirytime status order).gtk j) := by
  obtain ⟨t', ht', hset, -, -⟩ := Gtks.gtkSet_of_unset h gtk lifetime
  have hmoved := Gtks.gtkSet_other ht' hne
  simpa [gtkRestore, ht', Gtks.gtkExpirytimeSet, Gtks.gtkStatusSet, Gtks.gtkInstallOrderSet, hset,
    Gtks.put_gtk_of_ne _ _ hne] using hmoved

theorem orders_gtkRestore (h : (t.gtk i).set = false) :
    (gtkRestore t i gtk lifetime expirytime status order).orders =
      Function.update (Gtks.compress (Function.update t.orders i none)) i (some order) := by
  obtain ⟨t', ht', hset, -, -⟩ := Gtks.gtkSet_of_unset h gtk lifetime
  have hkept : (((t'.gtkExpirytimeSet i expirytime).gtkStatusSet i status).gtk i).set = true := by
    simp [Gtks.gtkExpirytimeSet, Gtks.gtkStatusSet, hset]
  unfold gtkRestore
  rw [ht', Option.getD_some, Gtks.orders_gtkInstallOrderSet hkept, Gtks.orders_gtkStatusSet,
    Gtks.orders_gtkExpirytimeSet, Gtks.orders_gtkSet ht', Function.update_idem]

end Restore

/-- What reading makes of the install orders when no key has run out. -/
def readOrders (orders : Fin 4 → Option (Fin 4)) : Fin 4 → Option (Fin 4) :=
  (List.finRange 4).foldl
    (fun ord i =>
      match orders i with
      | none => ord
      | some o => Function.update (Gtks.compress (Function.update ord i none)) i (some o))
    fun _ => none

/-- Every GTK but the last one of the table has only orders below its own that are in the table
before it. -/
def Ascending (orders : Fin 4 → Option (Fin 4)) : Prop :=
  ∀ i j, i < j → orders j ≠ none → ∀ o ∈ orders i, ∀ p < o, ∃ h < i, orders h = some p

instance (orders : Fin 4 → Option (Fin 4)) : Decidable (Ascending orders) :=
  inferInstanceAs (Decidable (∀ i j, i < j → orders j ≠ none → ∀ o ∈ orders i, ∀ p < o,
    ∃ h < i, orders h = some p))

/-- A table of four. -/
def four {α : Type} (a b c d : α) (i : Fin 4) : α :=
  if i = 0 then a else if i = 1 then b else if i = 2 then c else d

theorem readOrders_four : ∀ a b c d : Option (Fin 4),
    readOrders (four a b c d) = four a b c d ↔ Ascending (four a b c d) := by
  decide +kernel

/-- **The install orders** survive the renumbering exactly if none is skipped. -/
theorem readOrders_eq_iff (orders : Fin 4 → Option (Fin 4)) :
    readOrders orders = orders ↔ Ascending orders := by
  have hfour : orders = four (orders 0) (orders 1) (orders 2) (orders 3) := by
    funext i
    fin_cases i <;> rfl
  rw [hfour]
  exact readOrders_four ..

/-- The loop over the GTKs of a record: those of other places only move, and those of the record
are set with what was stored. -/
theorem foldl_gtkRecall (now later : UInt64) (src : Gtks) (is : List (Fin 4)) (hnodup : is.Nodup)
    (t : Gtks) (hunset : ∀ i ∈ is, (t.gtk i).set = false) (j : Fin 4) :
    (j ∉ is → Gtks.Moved (t.gtk j) ((is.foldl (gtkRecall now later src) t).gtk j)) ∧
      (j ∈ is → match lastsUntil now later (src.gtk j) with
        | some lifetime =>
            ∃ k : GtkKey, Gtks.Moved k ((is.foldl (gtkRecall now later src) t).gtk j) ∧
              k.set = true ∧ k.key = (src.gtk j).key ∧ k.status = (src.gtk j).status ∧
              k.lifetime = lifetime
        | none => ((is.foldl (gtkRecall now later src) t).gtk j).set = false) := by
  induction is generalizing t with
  | nil => exact ⟨fun _ => .refl _, fun hmem => by cases hmem⟩
  | cons i is ih =>
      obtain ⟨hi, hnodup⟩ := List.nodup_cons.mp hnodup
      have hunseti := hunset i (List.mem_cons_self ..)
      have hmoved : ∀ h ≠ i, Gtks.Moved (t.gtk h) ((gtkRecall now later src t i).gtk h) := by
        intro h hne
        unfold gtkRecall
        split
        · exact .refl _
        · exact gtkRestore_other hunseti hne
      have hrest := ih hnodup (gtkRecall now later src t i) fun h hmem => by
        have hne : h ≠ i := fun heq => hi (heq ▸ hmem)
        rw [hmoved h hne]
        exact hunset h (List.mem_cons_of_mem _ hmem)
      constructor
      · intro hj
        have hne : j ≠ i := fun heq => hj (heq ▸ List.mem_cons_self ..)
        exact (hmoved j hne).trans (hrest.1 fun hmem => hj (List.mem_cons_of_mem _ hmem))
      · intro hj
        rcases List.mem_cons.mp hj with rfl | hj
        · -- this one was read first, and only its order moves afterwards
          have hlater := hrest.1 hi
          rw [List.foldl_cons]
          cases hrecall : lastsUntil now later (src.gtk j) with
          | some lifetime =>
              refine ⟨_, hlater, ?_⟩
              simp only [gtkRecall, hrecall]
              rw [gtkRestore_self hunseti]
              exact ⟨rfl, rfl, rfl, rfl⟩
          | none =>
              rw [hlater]
              simp only [gtkRecall, hrecall]
              exact hunseti
        · exact hrest.2 hj

/-- The install orders in that loop, when no key has run out. -/
theorem orders_foldl_gtkRecall (now later : UInt64) {src : Gtks}
    (hlasts : ∀ i, (src.gtk i).set = true → (lastsUntil now later (src.gtk i)).isSome)
    (is : List (Fin 4)) (hnodup : is.Nodup) (t : Gtks)
    (hunset : ∀ i ∈ is, (t.gtk i).set = false) :
    (is.foldl (gtkRecall now later src) t).orders =
      is.foldl
        (fun ord i =>
          match src.orders i with
          | none => ord
          | some o => Function.update (Gtks.compress (Function.update ord i none)) i (some o))
        t.orders := by
  induction is generalizing t with
  | nil => rfl
  | cons i is ih =>
      obtain ⟨hi, hnodup⟩ := List.nodup_cons.mp hnodup
      have hunseti := hunset i (List.mem_cons_self ..)
      rw [List.foldl_cons, List.foldl_cons, ih hnodup]
      · congr 1
        by_cases hset : (src.gtk i).set = true
        · obtain ⟨lifetime, hrecall⟩ := Option.isSome_iff_exists.mp (hlasts i hset)
          simp only [gtkRecall, hrecall, Gtks.orders, hset, if_true]
          exact orders_gtkRestore hunseti
        · simp [gtkRecall, lastsUntil, Gtks.orders, hset]
      · intro h hmem
        have hne : h ≠ i := fun heq => hi (heq ▸ hmem)
        unfold gtkRecall
        split
        · exact hunset h (List.mem_cons_of_mem _ hmem)
        · rw [gtkRestore_other hunseti hne]
          exact hunset h (List.mem_cons_of_mem _ hmem)

/-- The keys, their states and their order are as they were, and so is their lifetime. -/
def GtksRestored (t t' : Gtks) : Prop :=
  ∀ i, (t'.gtk i).set = (t.gtk i).set ∧ ((t.gtk i).set = true →
    (t'.gtk i).key = (t.gtk i).key ∧ (t'.gtk i).status = (t.gtk i).status ∧
      (t'.gtk i).installOrder = (t.gtk i).installOrder ∧
      (t'.gtk i).lifetime = (t.gtk i).lifetime)

/-- No GTK has run out, and no install order is skipped. -/
def Gtks.Stable (now : UInt64) (t : Gtks) : Prop :=
  (∀ i, (t.gtk i).set = true → Lasting now (t.gtk i).lifetime) ∧ Ascending t.orders

instance (now : UInt64) (t : Gtks) : Decidable (Gtks.Stable now t) :=
  inferInstanceAs (Decidable ((∀ i, (t.gtk i).set = true → Lasting now (t.gtk i).lifetime) ∧ _))

/-- **The GTKs** are restored exactly if the table is stable. -/
theorem gtksRestored_iff (now : UInt64) (t : Gtks) :
    GtksRestored t ((List.finRange 4).foldl (gtkNext now t) gtksInit) ↔ Gtks.Stable now t := by
  have hunset : ∀ i ∈ List.finRange 4, (gtksInit.gtk i).set = false := fun _ _ => rfl
  have hrecall : ∀ i, lastsUntil now now (t.gtk i) =
      if (t.gtk i).set ∧ Lasting now (t.gtk i).lifetime then some (t.gtk i).lifetime
      else none := by
    intro i
    rw [lastsUntil, timeDiffCalc_exptime, ite_and]
  have hread : ∀ i, if (t.gtk i).set ∧ Lasting now (t.gtk i).lifetime then
      ∃ k : GtkKey, Gtks.Moved k (((List.finRange 4).foldl (gtkNext now t) gtksInit).gtk i) ∧
        k.set = true ∧ k.key = (t.gtk i).key ∧ k.status = (t.gtk i).status ∧
        k.lifetime = (t.gtk i).lifetime
      else (((List.finRange 4).foldl (gtkNext now t) gtksInit).gtk i).set = false := by
    intro i
    have hfound := (foldl_gtkRecall now now t _ (List.nodup_finRange 4) gtksInit hunset i).2
      (List.mem_finRange i)
    rw [hrecall i, ← gtkNext_eq] at hfound
    split at hfound <;> rename_i hlive <;> split at hlive <;> simp_all
  have horders : (∀ i, (t.gtk i).set = true → Lasting now (t.gtk i).lifetime) →
      ((List.finRange 4).foldl (gtkNext now t) gtksInit).orders = readOrders t.orders := by
    intro hlasting
    rw [gtkNext_eq]
    refine orders_foldl_gtkRecall now now (fun i hset => ?_) _ (List.nodup_finRange 4) gtksInit
      hunset
    rw [hrecall i, if_pos ⟨hset, hlasting i hset⟩]
    rfl
  generalize (List.finRange 4).foldl (gtkNext now t) gtksInit = t' at hread horders ⊢
  constructor
  · intro hrestored
    have hlasting : ∀ i, (t.gtk i).set = true → Lasting now (t.gtk i).lifetime := by
      intro i hset
      by_contra hnot
      have hgone := hread i
      rw [if_neg fun h => hnot h.2, (hrestored i).1, hset] at hgone
      cases hgone
    refine ⟨hlasting, (readOrders_eq_iff _).mp ?_⟩
    rw [← horders hlasting]
    funext i
    unfold Gtks.orders
    rw [(hrestored i).1]
    by_cases hset : (t.gtk i).set = true
    · rw [((hrestored i).2 hset).2.2.1]
    · simp [hset]
  · rintro ⟨hlasting, hascending⟩ i
    have hsame : t'.orders i = t.orders i := by
      rw [horders hlasting, (readOrders_eq_iff _).mpr hascending]
    have hfound := hread i
    by_cases hset : (t.gtk i).set = true
    · rw [if_pos ⟨hset, hlasting i hset⟩] at hfound
      obtain ⟨k, hmoved, hk, hkey, hstatus, hlifetime⟩ := hfound
      have hset' : (t'.gtk i).set = true := by rw [hmoved]; exact hk
      have horder : (t'.gtk i).installOrder = (t.gtk i).installOrder := by
        simpa [Gtks.orders, hset, hset'] using hsame
      refine ⟨hset'.trans hset.symm, fun _ => ⟨?_, ?_, horder, ?_⟩⟩
      · rw [hmoved]; exact hkey
      · rw [hmoved]; exact hstatus
      · rw [hmoved]; exact hlifetime
    · rw [if_neg fun h => hset h.1] at hfound
      exact ⟨hfound.trans (by simpa using hset), fun h => absurd h hset⟩

/-- The whole record is as it was. -/
def NwInfo.Restored (n n' : NwInfo) : Prop :=
  n'.panId = n.panId ∧ n'.name = n.name ∧ n'.gtkEui64 = n.gtkEui64 ∧
    match n.gtks, n'.gtks with
    | some t, some t' => GtksRestored t t'
    | none, none => True
    | _, _ => False

/-- A table into which nothing was read yet, if there is a table. -/
def NwInfo.emptyGtks (n : NwInfo) : Option Gtks := n.gtks.map fun _ => gtksInit

/-- The table that is read at a later time; one with a GTK in it is left as it is. -/
def gtksRecall (now later : UInt64) (src t : Gtks) : Gtks :=
  if t.gtkCount = 0 then ((List.finRange 4).foldl (gtkRecall now later src) t).updatedReset
  else t

theorem gtksRead_finishes (now later : UInt64) (src : Gtks) (gtks : Option Gtks)
    (f : Option Gtks → NwInfo) :
    Finishes ((List.finRange 4).flatMap (gtkActs now src))
      (gtksRead later gtks >>= fun gtks => pure (f gtks))
      (f (gtks.map (gtksRecall now later src))) := by
  cases gtks with
  | none => exact finishes_pass _ fun m pos seen => ⟨pos, rfl⟩
  | some t =>
      unfold gtksRead gtksRecall
      by_cases hcount : t.gtkCount = 0
      · simp only [hcount, if_true, Option.map_some]
        refine Follows.finishes (Follows.last (x := some _) ?_ f)
        exact (Follows.foldlM (fun i x => gtkRead_follows now later src x i) (List.finRange 4)
          t).last fun t => some t.updatedReset
      · simp only [hcount, if_false, Option.map_some]
        exact finishes_pass _ fun m pos seen => ⟨pos, rfl⟩

theorem panIdRead_follows (panId panId' : UInt16) :
    Follows (put .panId (beBytes 2 panId.toNat)) (panIdRead panId')
      (if panId' = 0xffff then panId else panId') := by
  unfold panIdRead
  by_cases hunset : panId' = 0xffff
  · rw [if_pos hunset, if_pos hunset]
    have hlast := (follows_number NwInfoField.panId 2 panId.toNat).last
      fun bs => UInt16.ofNat (be bs)
    rw [uint16_read] at hlast
    exact hlast
  · rw [if_neg hunset, if_neg hunset]
    have hpass := follows_pass (lays_put NwInfoField.panId (beBytes 2 panId.toNat))
    rw [length_beBytes] at hpass
    exact hpass.last fun _ => panId'

theorem nwNameRead_follows (name name' : Name) :
    Follows (put .nwName name.bytes) (nwNameRead name')
      (if name'.1 = [] then name else name') := by
  unfold nwNameRead
  by_cases hunset : name'.1 = []
  · rw [if_pos hunset, if_pos hunset]
    have htake := follows_take NwInfoField.nwName name.bytes
    rw [name.length_bytes] at htake
    have hlast := htake.last Name.ofBytes
    rw [name.ofBytes_bytes] at hlast
    exact hlast
  · rw [if_neg hunset, if_neg hunset]
    have hpass := follows_pass (lays_put NwInfoField.nwName name.bytes)
    rw [name.length_bytes] at hpass
    exact hpass.last fun _ => name'

/-- The record, read at a later time into network information that may be set in part. -/
theorem nwInfoRead_finishes (now later : UInt64) (n : NwInfo) (panId : UInt16) (name : Name)
    (gtks : Option Gtks) :
    Finishes (nwInfoActs now n) (nwInfoRead later panId name gtks)
      { panId := if panId = 0xffff then n.panId else panId
        name := if name.1 = [] then n.name else name
        gtkEui64 := n.gtkEui64
        gtks := gtks.map (gtksRecall now later (n.gtks.getD gtksInit)) } := by
  unfold nwInfoActs nwInfoRead
  refine (panIdRead_follows n.panId panId).bindFinishes
    ((nwNameRead_follows n.name name).bindFinishes ((follows_number ..).bindFinishes ?_))
  rw [key_read 8 _ rfl]
  exact gtksRead_finishes now later (n.gtks.getD gtksInit) gtks fun gtks =>
    { panId := if panId = 0xffff then n.panId else panId
      name := if name.1 = [] then n.name else name, gtkEui64 := n.gtkEui64, gtks := gtks }

/-- The same at once, into network information that is not set. -/
theorem nwInfoRead_now (now : UInt64) (n : NwInfo) :
    Finishes (nwInfoActs now n) (nwInfoRead now 0xffff .empty n.emptyGtks)
      { n with gtks := n.gtks.map fun t =>
          ((List.finRange 4).foldl (gtkNext now t) gtksInit).updatedReset } := by
  have hfinishes := nwInfoRead_finishes now now n 0xffff .empty n.emptyGtks
  have hempty : Name.empty.1 = [] := rfl
  rw [if_pos rfl, if_pos hempty] at hfinishes
  have hgtks : n.emptyGtks.map (gtksRecall now now (n.gtks.getD gtksInit)) =
      n.gtks.map fun t => ((List.finRange 4).foldl (gtkNext now t) gtksInit).updatedReset := by
    unfold NwInfo.emptyGtks
    cases n.gtks with
    | none => rfl
    | some t =>
        simp only [gtkNext_eq]
        rfl
  rw [hgtks] at hfinishes
  exact hfinishes

theorem gtkActs_stop (now : UInt64) (t : Gtks) (i : Fin 4) (pos : Nat) :
    stop (gtkActs now t i) pos = pos + 27 := by
  unfold gtkActs
  split <;> simp [fieldSet, fieldNotSet, Nat.add_assoc]

theorem gtkActs_inside (now : UInt64) (t : Gtks) (i : Fin 4) {len pos : Nat}
    (hroom : pos + 27 ≤ len) : Inside len (gtkActs now t i) pos := by
  unfold gtkActs
  split
  · simp only [inside_append, inside_put, stop_put, length_beBytes, fieldSet, List.length_cons,
      List.length_nil]
    omega
  · simp only [inside_append, inside_put, stop_put, inside_zeros, fieldNotSet, List.length_cons,
      List.length_nil]
    omega

theorem nwInfoActs_inside (now : UInt64) (n : NwInfo) :
    Inside PAE_NVM_NW_INFO_LEN (nwInfoActs now n) 0 := by
  have hlist : List.finRange 4 = [0, 1, 2, 3] := rfl
  unfold nwInfoActs
  rw [hlist]
  simp only [inside_append, inside_put, stop_put, length_beBytes, Name.length_bytes,
    List.flatMap_cons, List.flatMap_nil, List.append_nil, gtkActs_stop, PAE_NVM_NW_INFO_LEN]
  refine ⟨by decide, by decide, by decide, ?_, ?_, ?_, ?_⟩ <;>
    exact gtkActs_inside _ _ _ (by decide)

/-- **The network information** is restored exactly if its table is stable. -/
theorem nwInfo_exact_iff (now : UInt64) (n : NwInfo) (data : Store) :
    Exact PAE_NVM_NW_INFO_TAG PAE_NVM_NW_INFO_LEN (nwInfoActs now n)
        (nwInfoRead now 0xffff .empty n.emptyGtks) n.Restored data ↔
      ∀ t ∈ n.gtks, Gtks.Stable now t := by
  have hfinishes := nwInfoRead_now now n
  have hiff : n.Restored { n with gtks := n.gtks.map fun t =>
        ((List.finRange 4).foldl (gtkNext now t) gtksInit).updatedReset } ↔
      ∀ t ∈ n.gtks, Gtks.Stable now t := by
    cases hgtks : n.gtks with
    | none => simp [NwInfo.Restored, hgtks]
    | some t =>
        have htable := gtksRestored_iff now t
        simp only [NwInfo.Restored, hgtks, Option.map_some, Option.mem_def, Option.some.injEq,
          forall_eq', true_and]
        exact htable
  constructor
  · intro hexact
    obtain ⟨p, hp, hrestored⟩ := hexact.restored
    obtain rfl := Option.mem_unique (tlvRead_tlvCreate ..) hp
    rw [(hfinishes.reads data).1] at hrestored
    exact hiff.mp hrestored
  · intro hstable
    exact exact_of_finishes _ hfinishes (nwInfoActs_inside now n) (hiff.mpr hstable) data

/-! ## All records -/

/-- All that is stored. -/
structure KeyState where
  nwInfo : NwInfo
  keys : Keys
  frameCounters : FrameCounters

/-- All three records are exact, whatever was in the buffers and in the old counters. -/
structure RoundTrips (now : UInt64) (s : KeyState) (counter : Fin 4 → FrameCounter)
    (data : Fin 3 → Store) : Prop where
  nwInfo : Exact PAE_NVM_NW_INFO_TAG PAE_NVM_NW_INFO_LEN (nwInfoActs now s.nwInfo)
    (nwInfoRead now 0xffff .empty s.nwInfo.emptyGtks) s.nwInfo.Restored (data 0)
  keys : Exact PAE_NVM_KEYS_TAG PAE_NVM_KEYS_LEN (keysActs s.keys) (keysRead keysInit)
    s.keys.Restored (data 1)
  frameCounters : Exact PAE_NVM_FRAME_COUNTER_TAG PAE_NVM_FRAME_COUNTER_LEN
    (frameCounterActs s.frameCounters) (frameCounterRead counter) s.frameCounters.Restored
    (data 2)

/-- **Security records round-trip** exactly if there is a PMK, no GTK has run out, and no install
order is skipped. -/
theorem roundTrips_iff (now : UInt64) (s : KeyState) (counter : Fin 4 → FrameCounter)
    (data : Fin 3 → Store) :
    RoundTrips now s counter data ↔
      s.keys.pmk.isSome = true ∧ ∀ t ∈ s.nwInfo.gtks, Gtks.Stable now t := by
  constructor
  · rintro ⟨hnwInfo, hkeys, -⟩
    exact ⟨(keys_exact_iff _ _).mp hkeys, (nwInfo_exact_iff _ _ _).mp hnwInfo⟩
  · rintro ⟨hpmk, hstable⟩
    exact ⟨(nwInfo_exact_iff _ _ _).mpr hstable, (keys_exact_iff _ _).mpr hpmk,
      frameCounters_exact _ _ _⟩

/-- GTKs are installed one after the other until the table is full; then the oldest is cleared and
another one takes its place. -/
def rotated : Gtks :=
  let install (t : Gtks) (i : Fin 4) (gtk : BitVec 128) : Gtks := (t.gtkSet i gtk 86400).getD t
  install ((install (install (install (install gtksInit 0 10) 1 11) 2 12) 3 13).gtkClear 0) 0 14

/-- A node that holds these GTKs, a PMK and a PTK. -/
def rotating : KeyState :=
  { nwInfo := { panId := 7, name := .empty, gtkEui64 := 1, gtks := some rotated }
    keys := (((keysInit.ptkEui64Write 1).pmkWrite 2 1000000).pmkReplayCntSet 5).ptkWrite 3 1000000
    frameCounters :=
      { restartCnt := 1, storedTime := 1577836800, panVersion := 3
        counter := fun _ => ⟨0, 0, 0, false⟩ } }

/-- The GTKs that come back are not in the order in which they were installed. -/
theorem rotating_reordered :
    ¬RoundTrips 1577836800 rotating (fun _ => ⟨0, 0, 0, false⟩) (fun _ _ => 0) := by
  intro h
  have hstable : Gtks.Stable 1577836800 rotated :=
    (nwInfo_exact_iff _ _ _).mp h.nwInfo rotated rfl
  revert hstable
  decide +kernel

end NvmRecords
