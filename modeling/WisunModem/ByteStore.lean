import Mathlib.Tactic.Common
import Mathlib.Data.UInt

/-!
# Byte-addressed stores

A store is a function from addresses to bytes.  `blit` is the block copy that
both `memcpy` and a flash program operation perform, and `bytes` is the window
of a store as a list.

The rules are the usual frame rules: a window inside the block just copied
reads the source, a window apart from it is unchanged, and two adjoining
windows append.  An address is recombined from a page number and an offset, where
the page number may be held in a narrower word, and numbers are read back from the
bytes a writer has laid side by side, little end or big end first.
-/

namespace ByteStore

/-- A byte-addressed store. -/
abbrev Store := Nat → UInt8

/-- Copy `len` bytes of `src` to address `a`. -/
def blit (m : Store) (a len : Nat) (src : Store) : Store := fun i =>
  if a ≤ i ∧ i < a + len then src (i - a) else m i

/-- The window of `len` bytes at address `a`. -/
def bytes (m : Store) (a len : Nat) : List UInt8 :=
  (List.range len).map fun i => m (a + i)

/-- A list as a store; what lies past its end reads zero. -/
def ofList (l : List UInt8) : Store := fun i => l.getD i 0

@[simp] theorem length_bytes (m : Store) (a len : Nat) :
    (bytes m a len).length = len := by
  simp [bytes]

@[simp] theorem bytes_zero_len (m : Store) (a : Nat) : bytes m a 0 = [] := rfl

/-- Two stores which agree on a window have the same window. -/
theorem bytes_congr {m m' : Store} {a a' len : Nat}
    (h : ∀ i, i < len → m (a + i) = m' (a' + i)) :
    bytes m a len = bytes m' a' len := by
  refine List.map_congr_left fun i hi => h i ?_
  exact List.mem_range.mp hi

/-- Adjoining windows append. -/
theorem bytes_append (m : Store) (a p q : Nat) :
    bytes m a (p + q) = bytes m a p ++ bytes m (a + p) q := by
  simp [bytes, List.range_add, Nat.add_assoc, Function.comp_def]

/-- The block just copied reads the source. -/
theorem bytes_blit_self (m : Store) (a len : Nat) (src : Store) :
    bytes (blit m a len src) a len = bytes src 0 len := by
  refine bytes_congr fun i hi => ?_
  have hin : a ≤ a + i ∧ a + i < a + len := by omega
  simp [blit, hin]

/-- A window apart from the copied block is unchanged. -/
theorem bytes_blit_apart {m src : Store} {a len b n : Nat}
    (h : b + n ≤ a ∨ a + len ≤ b) :
    bytes (blit m a len src) b n = bytes m b n := by
  refine bytes_congr fun i hi => ?_
  have hout : ¬(a ≤ b + i ∧ b + i < a + len) := by omega
  simp [blit, hout]

/-- A list seen as a store reads back as its own window. -/
theorem bytes_ofList (l : List UInt8) : bytes (ofList l) 0 l.length = l := by
  refine List.ext_getElem (by simp) fun i h₁ h₂ => ?_
  simp [bytes, ofList, h₂]

/-! ## Page and offset -/

/-- Page number and offset recombine when the page number fits its word. -/
theorem page_offset (shift width : Nat) {addr : Nat}
    (h : addr < 2 ^ (shift + width)) :
    addr / 2 ^ shift % 2 ^ width * 2 ^ shift + addr % 2 ^ shift = addr := by
  have hfit : addr / 2 ^ shift < 2 ^ width := by
    refine Nat.div_lt_of_lt_mul ?_
    rw [← pow_add]
    exact h
  rw [Nat.mod_eq_of_lt hfit, Nat.mul_comm]
  exact Nat.div_add_mod addr (2 ^ shift)

/-! ## Blocks -/

/-- The number of blocks of `size` bytes that cover `len` bytes.  No division
by zero is meant: for `size = 0` a nonempty range counts as one block. -/
def blockCount (len size : Nat) : Nat :=
  len / size + if len % size ≠ 0 then 1 else 0

/-- A block below the count starts inside the range. -/
theorem mul_lt_of_lt_blockCount {n len size : Nat}
    (h : n < blockCount len size) : n * size < len := by
  unfold blockCount at h
  have hdiv := Nat.div_add_mod' len size
  split at h
  · have hle : n * size ≤ len / size * size :=
      Nat.mul_le_mul_right size (by omega)
    omega
  · have hpos : size ≠ 0 := by
      rintro rfl
      simp at h
    have hlt : n * size < len / size * size :=
      Nat.mul_lt_mul_of_pos_right (by omega) (Nat.pos_of_ne_zero hpos)
    omega

/-- A block that starts inside the range is below the count. -/
theorem lt_blockCount_iff {n len size : Nat} (hsize : 0 < size) :
    n < blockCount len size ↔ n * size < len := by
  refine ⟨mul_lt_of_lt_blockCount, fun h => ?_⟩
  have hdiv := Nat.div_add_mod' len size
  have hmod := Nat.mod_lt len hsize
  by_contra hge
  unfold blockCount at hge
  have hle : (len / size + if len % size ≠ 0 then 1 else 0) * size ≤ n * size :=
    Nat.mul_le_mul_right size (by omega)
  rw [Nat.add_mul] at hle
  split at hle <;> omega

/-- The block that reaches the end of the range is the last one. -/
theorem succ_eq_blockCount {n len size : Nat} (hsize : 0 < size)
    (hlt : n < blockCount len size) (hend : len ≤ n * size + size) :
    n + 1 = blockCount len size := by
  have hnext : ¬ n + 1 < blockCount len size := by
    rw [lt_blockCount_iff hsize, Nat.succ_mul]
    omega
  omega

/-! ## Little-endian fields -/

/-- The 16-bit little-endian field at address `a`. -/
def le16 (m : Store) (a : Nat) : Nat :=
  (m a).toNat + 2 ^ 8 * (m (a + 1)).toNat

/-- The 32-bit little-endian field at address `a`. -/
def le32 (m : Store) (a : Nat) : Nat :=
  le16 m a + 2 ^ 16 * le16 m (a + 2)

theorem le16_lt (m : Store) (a : Nat) : le16 m a < 2 ^ 16 := by
  have hlo := (m a).toNat_lt
  have hhi := (m (a + 1)).toNat_lt
  unfold le16
  omega

/-- The two little-endian bytes of a 16-bit number. -/
def bytes16 (n : Nat) : List UInt8 :=
  [UInt8.ofNat (n % 2 ^ 8), UInt8.ofNat (n / 2 ^ 8)]

/-- The four little-endian bytes of a 32-bit number. -/
def bytes32 (n : Nat) : List UInt8 :=
  bytes16 (n % 2 ^ 16) ++ bytes16 (n / 2 ^ 16)

/-- A 16-bit number is read back from its two bytes. -/
theorem le16_bytes16 {n : Nat} (h : n < 2 ^ 16) {m : Store} {a : Nat}
    (hw : bytes m a 2 = bytes16 n) : le16 m a = n := by
  have hpair : [m a, m (a + 1)] = bytes16 n := hw
  obtain ⟨hlo, hhi⟩ : m a = UInt8.ofNat (n % 2 ^ 8) ∧
      m (a + 1) = UInt8.ofNat (n / 2 ^ 8) := by
    simpa [bytes16] using hpair
  simp only [le16, hlo, hhi, UInt8.toNat_ofNat']
  omega

/-- A 32-bit number is read back from its four bytes. -/
theorem le32_bytes32 {n : Nat} (h : n < 2 ^ 32) {m : Store} {a : Nat}
    (hw : bytes m a 4 = bytes32 n) : le32 m a = n := by
  have hsplit : bytes m a 2 ++ bytes m (a + 2) 2 =
      bytes16 (n % 2 ^ 16) ++ bytes16 (n / 2 ^ 16) := by
    rw [← bytes_append]
    exact hw
  obtain ⟨hlo, hhi⟩ := List.append_inj hsplit rfl
  rw [le32, le16_bytes16 (by omega) hlo, le16_bytes16 (by omega) hhi]
  omega

/-! ## Fields side by side -/

/-- These bytes lie at the address. -/
def Holds (m : Store) (a : Nat) (bs : List UInt8) : Prop := bytes m a bs.length = bs

instance (m : Store) (a : Nat) (bs : List UInt8) : Decidable (Holds m a bs) :=
  inferInstanceAs (Decidable (_ = _))

@[simp] theorem holds_nil (m : Store) (a : Nat) : Holds m a [] := bytes_zero_len m a

theorem holds_append (m : Store) (a : Nat) (bs cs : List UInt8) :
    Holds m a (bs ++ cs) ↔ Holds m a bs ∧ Holds m (a + bs.length) cs := by
  unfold Holds
  rw [List.length_append, bytes_append]
  constructor
  · intro hboth
    exact List.append_inj hboth (length_bytes ..)
  · rintro ⟨hbs, hcs⟩
    rw [hbs, hcs]

@[simp] theorem holds_cons (m : Store) (a : Nat) (b : UInt8) (bs : List UInt8) :
    Holds m a (b :: bs) ↔ m a = b ∧ Holds m (a + 1) bs := by
  have hfirst : Holds m a [b] ↔ m a = b := by simp [Holds, bytes]
  rw [← hfirst]
  exact holds_append m a [b] bs

theorem le16_of_holds {m : Store} {a n : Nat} (h : n < 2 ^ 16) (hn : Holds m a (bytes16 n)) :
    le16 m a = n := le16_bytes16 h hn

theorem le32_of_holds {m : Store} {a n : Nat} (h : n < 2 ^ 32) (hn : Holds m a (bytes32 n)) :
    le32 m a = n := le32_bytes32 h hn

/-- The 24-bit little-endian field at address `a`. -/
def le24 (m : Store) (a : Nat) : Nat := le16 m a + 2 ^ 16 * (m (a + 2)).toNat

/-- The three little-endian bytes of a 24-bit number. -/
def bytes24 (n : Nat) : List UInt8 := bytes16 (n % 2 ^ 16) ++ [UInt8.ofNat (n / 2 ^ 16)]

theorem le24_of_holds {m : Store} {a n : Nat} (h : n < 2 ^ 24) (hn : Holds m a (bytes24 n)) :
    le24 m a = n := by
  obtain ⟨hlow, hhigh⟩ := (holds_append m a _ _).mp hn
  have hlast : m (a + 2) = UInt8.ofNat (n / 2 ^ 16) := ((holds_cons ..).mp hhigh).1
  rw [le24, le16_of_holds (Nat.mod_lt n (by decide)) hlow, hlast, UInt8.toNat_ofNat']
  omega

/-! ## Big-endian fields -/

/-- A number, big end first. -/
def be (bs : List UInt8) : Nat := bs.foldl (fun n b => 2 ^ 8 * n + b.toNat) 0

/-- The last `n` bytes of a number, big end first. -/
def beBytes : Nat → Nat → List UInt8
  | 0, _ => []
  | n + 1, x => beBytes n (x / 2 ^ 8) ++ [UInt8.ofNat x]

@[simp] theorem length_beBytes (n x : Nat) : (beBytes n x).length = n := by
  induction n generalizing x with
  | zero => rfl
  | succ n ih => simp [beBytes, ih]

/-- A number is read back from as many bytes as it needs. -/
theorem be_beBytes {n x : Nat} (h : x < 2 ^ (8 * n)) : be (beBytes n x) = x := by
  induction n generalizing x with
  | zero =>
      have hzero : x = 0 := by simpa using h
      rw [hzero]
      rfl
  | succ n ih =>
      have hhigh : x / 2 ^ 8 < 2 ^ (8 * n) := by
        refine Nat.div_lt_of_lt_mul ?_
        rw [← pow_add, Nat.add_comm]
        exact h
      have hrest := ih hhigh
      unfold be at hrest
      rw [be, beBytes, List.foldl_append, hrest, List.foldl_cons, List.foldl_nil,
        UInt8.toNat_ofNat']
      omega

/-! ## Lists at an address -/

/-- A list is written at an address. -/
def store (m : Store) (a : Nat) (bs : List UInt8) : Store := blit m a bs.length (ofList bs)

theorem holds_store (m : Store) (a : Nat) (bs : List UInt8) : Holds (store m a bs) a bs := by
  unfold Holds store
  rw [bytes_blit_self, bytes_ofList]

theorem store_apart {m : Store} {a i : Nat} {bs : List UInt8}
    (h : i < a ∨ a + bs.length ≤ i) : store m a bs i = m i := by
  have hout : ¬(a ≤ i ∧ i < a + bs.length) := by omega
  simp [store, blit, hout]

/-- What a window holds does not depend on the bytes around it. -/
theorem Holds.congr {m m' : Store} {a : Nat} {bs : List UInt8} (h : Holds m a bs)
    (hsame : ∀ i, a ≤ i → i < a + bs.length → m' i = m i) : Holds m' a bs := by
  have hbytes : bytes m' a bs.length = bytes m a bs.length :=
    bytes_congr fun i hi => hsame (a + i) (by omega) (by omega)
  exact hbytes.trans h

end ByteStore
