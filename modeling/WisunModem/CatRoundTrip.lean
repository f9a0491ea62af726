import Mathlib.Data.List.Forall2
import WisunModem.CatFormats

/-!
# The round trip of variables

The text that a read command prints for the variables of a command, typed as the arguments of a
write command, puts the same data into them, unless a string holds a carriage return, which the
line reader drops, or a hex buffer has no bytes.
-/

namespace CatText

open Cat (Parsed Reply)

/-- What follows an argument. -/
inductive Tail : List UInt8 → Bool → List UInt8 → Prop
  | last : Tail [] false []
  | more (rest : List UInt8) : Tail (44 :: rest) true rest

variable {tail rest : List UInt8} {comma : Bool}

/-! ## Decimals -/

theorem numeral_concat (digits : List UInt8) (ch : UInt8) :
    Cat.numeral (digits ++ [ch]) = 10 * Cat.numeral digits + (ch.toNat - 48) := by
  unfold Cat.numeral
  rw [List.foldl_append]
  rfl

/-- The character of a digit. -/
theorem toNat_digit {n : Nat} (h : n < 10) : (UInt8.ofNat (48 + n)).toNat = 48 + n :=
  have hless : 48 + n < 2 ^ 8 := by omega
  UInt8.toNat_ofNat_of_lt' hless

/-- A printed decimal is a numeral of its number. -/
theorem decimal_spec (n : Nat) :
    decimal n ≠ [] ∧ (∀ ch ∈ decimal n, Cat.isValidDecChar ch = true) ∧
      Cat.numeral (decimal n) = n := by
  induction n using decimal.induct with
  | case1 n hless =>
    rw [decimal, if_pos hless]
    refine ⟨List.cons_ne_nil _ _, fun ch hmem => ?_, ?_⟩
    · rw [List.mem_singleton.mp hmem, Cat.isValidDecChar_iff, toNat_digit hless]
      omega
    · have hvalue : Cat.numeral [UInt8.ofNat (48 + n)] = (UInt8.ofNat (48 + n)).toNat - 48 := by
        unfold Cat.numeral
        rw [List.foldl_cons, List.foldl_nil, Nat.mul_zero, Nat.zero_add]
      rw [hvalue, toNat_digit hless, Nat.add_sub_cancel_left]
  | case2 n hmore ih =>
    obtain ⟨-, hdigits, hvalue⟩ := ih
    have hlast : n % 10 < 10 := Nat.mod_lt _ (by decide)
    rw [decimal, if_neg hmore]
    refine ⟨by simp, fun ch hmem => ?_, ?_⟩
    · rcases List.mem_append.mp hmem with hmem | hmem
      · exact hdigits ch hmem
      · rw [List.mem_singleton.mp hmem, Cat.isValidDecChar_iff, toNat_digit hlast]
        omega
    · rw [numeral_concat, hvalue, toNat_digit hlast]
      omega

/-- The digits of an argument end at its tail. -/
theorem digits_tail (htail : Tail tail comma rest) {digits : List UInt8}
    (h : ∀ ch ∈ digits, Cat.isValidDecChar ch = true) :
    (digits ++ tail).takeWhile Cat.isValidDecChar = digits ∧
      (digits ++ tail).dropWhile Cat.isValidDecChar = tail := by
  rw [List.takeWhile_append_of_pos h, List.dropWhile_append_of_pos h]
  cases htail with
  | last => exact ⟨List.append_nil _, rfl⟩
  | more rest =>
    have hcomma : ¬Cat.isValidDecChar 44 = true := by decide
    rw [List.takeWhile_cons_of_neg hcomma, List.dropWhile_cons_of_neg hcomma]
    exact ⟨List.append_nil _, rfl⟩

theorem afterDigits_tail (htail : Tail tail comma rest) (value : Int64) :
    Cat.afterDigits value tail = some ⟨value, comma, rest⟩ := by
  cases htail with
  | last => rfl
  | more rest => rfl

/-- A printed signed decimal is parsed to its number. -/
theorem parseIntDecimal_text (htail : Tail tail comma rest) (z : Int) :
    Cat.parseIntDecimal 0 0 false (signedDecimal z ++ tail)
      = some ⟨.ofInt z, comma, rest⟩ := by
  obtain ⟨hsome, hdigits, hvalue⟩ := decimal_spec z.natAbs
  obtain ⟨htake, hdrop⟩ := digits_tail htail hdigits
  rw [Cat.parseIntDecimal_eq]
  unfold Cat.signedNumeral signedDecimal
  by_cases hneg : z < 0
  · have hsign : Cat.signPart (45 :: decimal z.natAbs ++ tail) = (-1, decimal z.natAbs ++ tail) :=
      rfl
    have hz : -1 * (z.natAbs : Int) = z := by omega
    rw [if_pos hneg, hsign]
    dsimp only
    rw [htake, hdrop, if_neg hsome, hvalue, hz]
    exact afterDigits_tail htail _
  · have hsign : Cat.signPart (decimal z.natAbs ++ tail) = (1, decimal z.natAbs ++ tail) := by
      obtain ⟨first, digits, hlist⟩ := List.exists_cons_of_ne_nil hsome
      have hfirst := Cat.ne_of_isValidDecChar (hdigits first (hlist ▸ List.mem_cons_self ..))
      rw [hlist, List.cons_append]
      unfold Cat.signPart
      split
      · next heq => exact absurd (List.cons.inj heq).1 hfirst.2.2.1
      · next heq => exact absurd (List.cons.inj heq).1 hfirst.2.2.2.1
      · rfl
    have hz : 1 * (z.natAbs : Int) = z := by omega
    rw [if_neg hneg, hsign]
    dsimp only
    rw [htake, hdrop, if_neg hsome, hvalue, hz]
    exact afterDigits_tail htail _

/-- The loop of `parse_uint_decimal` over digits. -/
theorem parseUintDecimal_digits (htail : Tail tail comma rest) {digits : List UInt8}
    (h : ∀ ch ∈ digits, Cat.isValidDecChar ch = true) :
    ∀ (n : Nat) (ok : Bool), (ok = true ∨ digits ≠ []) →
      parseUintDecimal (.ofNat n) ok (digits ++ tail)
        = some ⟨.ofNat (Cat.numeralFrom n digits), comma, rest⟩ := by
  induction digits with
  | nil =>
    intro n ok hok
    have hready : ok = true := hok.resolve_right fun hne => hne rfl
    subst hready
    cases htail with
    | last => rfl
    | more rest => rfl
  | cons ch digits ih =>
    intro n ok _
    have hdec := h ch (List.mem_cons_self ..)
    obtain ⟨hzero, hcomma, -⟩ := Cat.ne_of_isValidDecChar hdec
    have hrange := Cat.isValidDecChar_iff.mp hdec
    have hvalue : UInt64.ofNat n * 10 + (ch.toUInt64 - 48)
        = .ofNat (10 * n + (ch.toNat - 48)) := by
      apply UInt64.toNat_inj.mp
      have hch : (ch.toUInt64 - 48).toNat = ch.toNat - 48 := by
        rw [UInt64.toNat_sub_of_le _ _ (by rw [UInt64.le_iff_toNat_le]; exact hrange.1)]
        rfl
      rw [UInt64.toNat_add, UInt64.toNat_mul, hch, UInt64.toNat_ofNat', UInt64.toNat_ofNat']
      change (n % 2 ^ 64 * 10 % 2 ^ 64 + (ch.toNat - 48)) % 2 ^ 64 = _
      omega
    have hstep : parseUintDecimal (.ofNat n) ok (ch :: (digits ++ tail))
        = parseUintDecimal (.ofNat n * 10 + (ch.toUInt64 - 48)) true (digits ++ tail) := by
      simp [parseUintDecimal, hzero, hcomma, hdec]
    rw [List.cons_append, hstep, hvalue, Cat.numeralFrom_cons]
    exact ih (fun other hmem => h other (List.mem_cons_of_mem _ hmem)) _ true (Or.inl rfl)

theorem parseUintDecimal_text (htail : Tail tail comma rest) (n : Nat) :
    parseUintDecimal 0 false (decimal n ++ tail) = some ⟨.ofNat n, comma, rest⟩ := by
  obtain ⟨hsome, hdigits, hvalue⟩ := decimal_spec n
  refine (parseUintDecimal_digits htail hdigits 0 false (Or.inr hsome)).trans ?_
  rw [show Cat.numeralFrom 0 (decimal n) = n from hvalue]

/-! ## Hexadecimals -/

theorem hexChar_spec : ∀ d : Fin 16, isValidHexChar (hexChar d.val) = true ∧
    toUpper (hexChar d.val) = hexChar d.val ∧
    (convertHexCharToValue (hexChar d.val)).toNat = d.val ∧
    hexChar d.val ≠ 0 ∧ hexChar d.val ≠ 44 ∧ hexChar d.val ≠ 13 ∧ hexChar d.val ≠ 10 ∧
    hexChar d.val ≠ 63 := by
  decide +kernel

/-- The loop of `parse_num_hexadecimal` over digits. -/
theorem parseNumHexadecimal_digits (width : Nat) :
    ∀ (n v state : Nat) (tail : List UInt8), 2 ≤ state →
      parseNumHexadecimal (.ofNat v) state (hex (width + 1) n ++ tail)
        = parseNumHexadecimal (.ofNat (16 ^ (width + 1) * v + n % 16 ^ (width + 1))) 3 tail := by
  have hone : ∀ (d : Fin 16) (v state : Nat) (tail : List UInt8), 2 ≤ state →
      parseNumHexadecimal (.ofNat v) state (hexChar d.val :: tail)
        = parseNumHexadecimal (.ofNat (16 * v + d.val)) 3 tail := by
    intro d v state tail hstate
    obtain ⟨hvalid, hupper, hvalue, hzero, hcomma, -⟩ := hexChar_spec d
    have hnum : UInt64.ofNat v <<< 4 + (convertHexCharToValue (hexChar d.val)).toUInt64
        = .ofNat (16 * v + d.val) := by
      apply UInt64.toNat_inj.mp
      have hless := d.isLt
      have hshift : (UInt64.ofNat v <<< 4).toNat = v % 2 ^ 64 * 16 % 2 ^ 64 := by
        rw [UInt64.toNat_shiftLeft, UInt64.toNat_ofNat', Nat.shiftLeft_eq]
        rfl
      rw [UInt64.toNat_add, hshift, UInt64.toNat_ofNat', UInt8.toNat_toUInt64, hvalue]
      omega
    have hthree : state ≠ 0 ∧ state ≠ 1 := by omega
    rw [parseNumHexadecimal, hupper, if_neg (by simp [hzero, hcomma]), if_neg hthree.1,
      if_neg hthree.2, if_pos hvalid, hnum]
  induction width with
  | zero =>
    intro n v state tail hstate
    have hdigit : n % 16 < 16 := Nat.mod_lt _ (by decide)
    have hlist : hex (0 + 1) n ++ tail = hexChar (n % 16) :: tail := rfl
    rw [hlist, Nat.zero_add, Nat.pow_one]
    exact hone ⟨n % 16, hdigit⟩ v state tail hstate
  | succ width ih =>
    intro n v state tail hstate
    have hdigit : n % 16 < 16 := Nat.mod_lt _ (by decide)
    have hlist : hex (width + 1 + 1) n ++ tail
        = hex (width + 1) (n / 16) ++ hexChar (n % 16) :: tail := by
      rw [hex, List.append_assoc]
      rfl
    have hvalue : 16 * (16 ^ (width + 1) * v + n / 16 % 16 ^ (width + 1)) + n % 16
        = 16 ^ (width + 1 + 1) * v + n % 16 ^ (width + 1 + 1) := by
      have hsplit : n % (16 * 16 ^ (width + 1)) = n % 16 + 16 * (n / 16 % 16 ^ (width + 1)) :=
        Nat.mod_mul
      rw [Nat.pow_succ 16 (width + 1), Nat.mul_comm (16 ^ (width + 1)) 16, hsplit, Nat.mul_add,
        Nat.mul_assoc]
      omega
    rw [hlist, ih (n / 16) v state _ hstate, hone ⟨n % 16, hdigit⟩ _ 3 tail (by decide)]
    exact congrArg (fun n => parseNumHexadecimal (.ofNat n) 3 tail) hvalue

theorem parseNumHexadecimal_text (htail : Tail tail comma rest) {width n : Nat}
    (hwidth : 0 < width) (h : n < 16 ^ width) :
    parseNumHexadecimal 0 0 (48 :: 120 :: hex width n ++ tail) = some ⟨.ofNat n, comma, rest⟩ := by
  obtain ⟨width, rfl⟩ : ∃ w, width = w + 1 := ⟨width - 1, by omega⟩
  have hopen : parseNumHexadecimal 0 0 (48 :: 120 :: hex (width + 1) n ++ tail)
      = parseNumHexadecimal (.ofNat 0) 2 (hex (width + 1) n ++ tail) := by
    rw [List.cons_append, List.cons_append]
    rfl
  rw [hopen, parseNumHexadecimal_digits width n 0 2 tail (Nat.le_refl 2), Nat.mul_zero,
    Nat.zero_add, Nat.mod_eq_of_lt h]
  cases htail with
  | last => rfl
  | more rest => rfl

/-! ## Numbers in memory -/

theorem storeInt_congr {size : Nat} {a b : Int} (h : (256 ^ size : Int) ∣ a - b) :
    Cat.storeInt size a = Cat.storeInt size b := by
  induction size generalizing a b with
  | zero => rfl
  | succ size ih =>
    obtain ⟨k, hk⟩ := h
    rw [Int.pow_succ, Int.mul_comm (256 ^ size) 256, Int.mul_assoc] at hk
    have hlow : a % 256 = b % 256 := by omega
    have hhigh : a / 256 - b / 256 = 256 ^ size * k := by omega
    unfold Cat.storeInt
    rw [hlow, ih ⟨k, hhigh⟩]

/-- The bytes of an unsigned number. -/
theorem storeInt_unsigned (bytes : List UInt8) :
    Cat.storeInt bytes.length (unsigned bytes : Nat) = bytes := by
  induction bytes with
  | nil => rfl
  | cons byte bytes ih =>
    have hbyte := byte.toNat_lt
    have hlow : ((unsigned (byte :: bytes) : Nat) : Int) % 256 = byte.toNat := by
      change ((byte.toNat + 256 * unsigned bytes : Nat) : Int) % 256 = _
      omega
    have hhigh : ((unsigned (byte :: bytes) : Nat) : Int) / 256 = (unsigned bytes : Nat) := by
      change ((byte.toNat + 256 * unsigned bytes : Nat) : Int) / 256 = _
      omega
    rw [List.length_cons, Cat.storeInt, hlow, hhigh, ih, Int.toNat_natCast, UInt8.ofNat_toNat]

/-- And those of a signed one. -/
theorem storeInt_signed (bytes : List UInt8) :
    Cat.storeInt bytes.length (signed bytes) = bytes := by
  refine (storeInt_congr ?_).trans (storeInt_unsigned bytes)
  unfold signed
  have hcast : ((256 ^ bytes.length : Nat) : Int) = 256 ^ bytes.length :=
    Int.natCast_pow 256 _
  rw [← hcast]
  exact Int.dvd_bmod_sub_self

theorem unsigned_lt (bytes : List UInt8) : unsigned bytes < 256 ^ bytes.length := by
  induction bytes with
  | nil => exact Nat.one_pos
  | cons byte bytes ih =>
    have hbyte := byte.toNat_lt
    rw [List.length_cons, Nat.pow_succ]
    change byte.toNat + 256 * unsigned bytes < _
    omega

/-- The sizes of numbers, one by one. -/
theorem numSize_cases {size : Nat} (h : isNumSize size = true) :
    size = 1 ∨ size = 2 ∨ size = 4 := by
  simpa [isNumSize, or_assoc] using h

/-- A signed number is in the range of its size, and a 64-bit integer. -/
theorem signed_range {bytes : List UInt8} (h : isNumSize bytes.length = true) :
    -2 ^ (8 * bytes.length - 1) ≤ signed bytes ∧ signed bytes ≤ 2 ^ (8 * bytes.length - 1) - 1 ∧
      (Int64.ofInt (signed bytes)).toInt = signed bytes := by
  have hrange : -2 ^ (8 * bytes.length - 1) ≤ signed bytes ∧
      signed bytes ≤ 2 ^ (8 * bytes.length - 1) - 1 ∧
      -2 ^ 31 ≤ signed bytes ∧ signed bytes < 2 ^ 31 := by
    have hlow := @Int.le_bmod (unsigned bytes) (256 ^ bytes.length) (Nat.pow_pos (by decide))
    have hhigh := @Int.bmod_lt (unsigned bytes) (256 ^ bytes.length) (Nat.pow_pos (by decide))
    unfold signed
    rcases numSize_cases h with hsize | hsize | hsize <;> rw [hsize] at hlow hhigh ⊢ <;>
      simp only [Nat.reducePow, Nat.reduceMul, Nat.reduceSub, Int.reducePow] at hlow hhigh ⊢ <;>
      omega
  refine ⟨hrange.1, hrange.2.1, ?_⟩
  rw [Cat.toInt_ofInt, Int.bmod_eq_of_le] <;> omega

/-! ## Bytes in a variable -/

/-- The bytes from a place on are written over. -/
def overlay (data : List UInt8) (size : Nat) : List UInt8 → List UInt8
  | [] => data
  | byte :: bytes => overlay (data.set size byte) (size + 1) bytes

theorem overlay_eq {data bytes : List UInt8} {size : Nat} (h : size + bytes.length ≤ data.length) :
    overlay data size bytes = data.take size ++ bytes ++ data.drop (size + bytes.length) := by
  induction bytes generalizing data size with
  | nil => simp [overlay]
  | cons byte bytes ih =>
    rw [List.length_cons] at h
    have hroom : size + 1 + bytes.length ≤ (data.set size byte).length := by
      rw [List.length_set]
      omega
    have htake : (data.set size byte).take (size + 1) = data.take size ++ [byte] := by
      rw [List.take_add_one, List.take_set_of_le (Nat.le_refl _), List.getElem?_set_self (by omega)]
      rfl
    have hdrop : (data.set size byte).drop (size + 1 + bytes.length)
        = data.drop (size + (byte :: bytes).length) := by
      rw [List.drop_set_of_lt (by omega), List.length_cons]
      congr 1
      omega
    rw [overlay, ih hroom, htake, hdrop]
    simp

/-- A byte in two digits. -/
theorem two_digits : ∀ v : Fin 256,
    ((0 : UInt8) <<< 4 + convertHexCharToValue (hexChar (v.val / 16 % 16))) <<< 4 +
      convertHexCharToValue (hexChar (v.val % 16)) = UInt8.ofNat v.val := by
  decide +kernel

/-- Bytes of a hex buffer. -/
theorem parseBufferHexadecimal_bytes (htail : Tail tail comma rest) {dataSize : Nat} :
    ∀ (bytes : List UInt8) (size : Nat) (data : List UInt8), size + bytes.length ≤ dataSize →
      0 < size + bytes.length →
      parseBufferHexadecimal dataSize 0 false size data
          (bytes.flatMap (fun val => hex 2 val.toNat) ++ tail)
        = (some ⟨(), comma, rest⟩, overlay data size bytes) := by
  intro bytes
  induction bytes with
  | nil =>
    intro size data _ hpos
    rw [List.length_nil, Nat.add_zero] at hpos
    cases htail with
    | last => simp [parseBufferHexadecimal, overlay, hpos]
    | more rest =>
      have hupper : toUpper 44 = 44 := by decide
      simp [parseBufferHexadecimal, overlay, hpos, hupper]
  | cons byte bytes ih =>
    intro size data hsize _
    rw [List.length_cons] at hsize
    have hhigh : byte.toNat / 16 % 16 < 16 := Nat.mod_lt _ (by decide)
    have hlow : byte.toNat % 16 < 16 := Nat.mod_lt _ (by decide)
    obtain ⟨hvalid, hupper, -, hzero, hcomma, -⟩ := hexChar_spec ⟨_, hhigh⟩
    obtain ⟨hvalid', hupper', -⟩ := hexChar_spec ⟨_, hlow⟩
    have hlist : (byte :: bytes).flatMap (fun val => hex 2 val.toNat) ++ tail
        = hexChar (byte.toNat / 16 % 16) :: hexChar (byte.toNat % 16) ::
          (bytes.flatMap (fun val => hex 2 val.toNat) ++ tail) := by
      simp [hex]
    have hbyte := two_digits ⟨byte.toNat, byte.toNat_lt⟩
    rw [UInt8.ofNat_toNat] at hbyte
    have hroom : ¬size ≥ dataSize := by omega
    rw [hlist, parseBufferHexadecimal]
    dsimp only at hvalid hupper hzero hcomma hvalid' hupper' hbyte ⊢
    rw [hupper, if_neg (by simp [hzero, hcomma]), if_neg (by simp [hvalid]), if_neg (by decide),
      parseBufferHexadecimal]
    dsimp only
    rw [hupper', if_neg (by simp), if_neg (by simp [hvalid']), if_pos rfl, if_neg hroom, hbyte]
    exact ih (size + 1) (data.set size byte) (by omega) (by omega)

/-- A hex buffer without bytes has no text to be parsed. -/
theorem parseBufferHexadecimal_none (htail : Tail tail comma rest) (dataSize : Nat)
    (data : List UInt8) : (parseBufferHexadecimal dataSize 0 false 0 data tail).1 = none := by
  cases htail with
  | last => rfl
  | more rest =>
    have hupper : toUpper 44 = 44 := by decide
    have hno : isValidHexChar 44 = false := by decide
    simp [parseBufferHexadecimal, hupper, hno]

/-- The characters of a string. -/
theorem parseBufferString_content (htail : Tail tail comma rest) {dataSize : Nat}
    (content : List UInt8) :
    ∀ size data, (∀ ch ∈ content, ch ≠ 0) → size + content.length < dataSize →
      Cat.parseBufferString dataSize .inside size data
          (content.flatMap Cat.escape ++ 34 :: tail)
        = (some ⟨(), comma, rest⟩, overlay data size (content ++ [0])) := by
  induction content with
  | nil =>
    intro size data _ hshort
    have hroom : ¬dataSize ≤ size := by simpa using hshort
    cases htail with
    | last => simp [Cat.parseBufferString, hroom, overlay]
    | more rest => simp [Cat.parseBufferString, hroom, overlay]
  | cons ch content ih =>
    intro size data hplain hshort
    rw [List.length_cons] at hshort
    have hzero : ch ≠ 0 := hplain ch (List.mem_cons_self ..)
    have hroom : ¬dataSize ≤ size := by omega
    have hnext := ih (size + 1) (data.set size ch)
      (fun other hmem => hplain other (List.mem_cons_of_mem _ hmem)) (by omega)
    rw [List.flatMap_cons, List.append_assoc, List.cons_append, overlay, ← hnext]
    by_cases hquote : ch = 92 ∨ ch = 34
    · have hescape : Cat.escape ch = [92, ch] := if_pos hquote
      rw [hescape]
      rcases hquote with rfl | rfl <;> simp [Cat.parseBufferString, hroom]
    by_cases hline : ch = Cat.lf
    · have hescape : Cat.escape ch = [92, 110] := by
        unfold Cat.escape
        rw [if_neg hquote, if_pos hline]
      rw [hescape, hline]
      simp [Cat.parseBufferString, hroom]
    · obtain ⟨hslash, hclose⟩ := not_or.mp hquote
      have hescape : Cat.escape ch = [ch] := by
        unfold Cat.escape
        rw [if_neg hquote, if_neg hline]
      rw [hescape]
      simp [Cat.parseBufferString, hroom, hzero, hslash, hclose]

/-! ## One variable -/

/-- The string in a variable. -/
def Variable.content (var : Variable) : List UInt8 := var.data.takeWhile (· ≠ 0)

/-- A number has a size that numbers have, and a string its zero. -/
structure Variable.Shaped (var : Variable) : Prop where
  length : var.data.length = var.dataSize
  number : var.type = .intDec ∨ var.type = .uintDec ∨ var.type = .numHex →
    isNumSize var.dataSize = true
  string : var.type = .bufString → 0 ∈ var.data

/-- A hex buffer has bytes, and a string no carriage return. -/
def Variable.Clean (var : Variable) : Prop :=
  (var.type = .bufHex → 0 < var.dataSize) ∧ (var.type = .bufString → 13 ∉ var.content)

/-- A variable with any data, but for what lies behind the end of a string. -/
structure Like (var' var : Variable) : Prop where
  type : var'.type = var.type
  dataSize : var'.dataSize = var.dataSize
  length : var'.data.length = var.data.length
  behind : var.type = .bufString →
    var'.data.drop (var.content.length + 1) = var.data.drop (var.content.length + 1)

theorem Like.refl (var : Variable) : Like var var := ⟨rfl, rfl, rfl, fun _ => rfl⟩

/-- The text of a variable. -/
def textOf (var : Variable) : List UInt8 := ((pieces var).getD []).flatten

/-- What the line reader keeps of a text. -/
def keep (text : List UInt8) : List UInt8 := text.filter (· ≠ 13)

variable {var var' : Variable}

/-- A string is its characters and the zero behind them. -/
theorem content_spec (h : 0 ∈ var.data) :
    var.data = var.content ++ 0 :: var.data.drop (var.content.length + 1) ∧
      (∀ ch ∈ var.content, ch ≠ 0) := by
  have hplain : ∀ ch ∈ var.content, ch ≠ 0 := fun ch hmem => by
    simpa using List.mem_takeWhile_imp hmem
  have hsplit := (List.takeWhile_append_dropWhile (p := (· ≠ (0 : UInt8))) (l := var.data)).symm
  refine ⟨?_, hplain⟩
  cases hrest : var.data.dropWhile (· ≠ (0 : UInt8)) with
  | nil =>
    rw [hrest, List.append_nil] at hsplit
    exact absurd rfl (hplain 0 (by unfold Variable.content; rw [← hsplit]; exact h))
  | cons ch behind =>
    have hzero : ch = 0 := by
      have hhead := List.head?_dropWhile_not (· ≠ (0 : UInt8)) var.data
      rw [hrest] at hhead
      simpa using hhead
    rw [hrest, hzero] at hsplit
    have hdrop : var.data.drop (var.content.length + 1) = behind := by
      have hlist : var.data = (var.content ++ [0]) ++ behind := by
        rw [List.append_assoc]
        exact hsplit
      rw [hlist]
      have hlength : (var.content ++ [0]).length = var.content.length + 1 := List.length_append
      rw [← hlength]
      exact List.drop_left
    rw [hdrop]
    exact hsplit

theorem textOf_number (h : isNumSize var.dataSize = true) :
    (var.type = .intDec → textOf var = signedDecimal (signed var.data)) ∧
    (var.type = .uintDec → textOf var = decimal (unsigned var.data)) ∧
    (var.type = .numHex → textOf var
      = 48 :: 120 :: hex (2 * var.dataSize) (unsigned var.data)) := by
  refine ⟨fun htype => ?_, fun htype => ?_, fun htype => ?_⟩
  · simp [textOf, pieces, htype, formatIntDecimal, h]
  · simp [textOf, pieces, htype, formatUintDecimal, h]
  · simp [textOf, pieces, htype, formatNumHexadecimal, h]

theorem textOf_bufHex (h : var.type = .bufHex) :
    textOf var = var.data.flatMap fun val => hex 2 val.toNat := by
  simp [textOf, pieces, h, formatBufferHexadecimal, List.flatMap_def]

theorem textOf_bufString (h : var.type = .bufString) :
    textOf var = 34 :: (var.content.flatMap Cat.escape ++ [34]) := by
  simp [textOf, pieces, h, formatBufferString, List.flatMap_def, Variable.content]

/-- An unsigned number of the right size is stored as it was. -/
theorem validateUintRange_unsigned {type : VarType} {size : Nat} {data data' : List UInt8}
    (hsize : isNumSize size = true) (hdata : data.length = size) :
    validateUintRange ⟨type, size, data'⟩ (.ofNat (unsigned data)) = some ⟨type, size, data⟩ := by
  have hless : unsigned data < 2 ^ (8 * size) := by
    have hlt := unsigned_lt data
    rw [hdata] at hlt
    rw [Nat.pow_mul]
    exact hlt
  have hword : (UInt64.ofNat (unsigned data)).toNat = unsigned data := by
    rw [UInt64.toNat_ofNat']
    refine Nat.mod_eq_of_lt (Nat.lt_of_lt_of_le hless ?_)
    rcases numSize_cases hsize with rfl | rfl | rfl <;> decide
  unfold validateUintRange
  dsimp only
  rw [if_pos hsize, hword, if_neg (by omega), ← hdata, storeInt_unsigned]

/-- What a write command stores for the text of a variable. -/
theorem parseWriteArg_text (htail : Tail tail comma rest) (hshape : var.Shaped) (hclean : var.Clean)
    (hlike : Like var' var) :
    parseWriteArg var' (textOf var ++ tail) = (some ⟨(), comma, rest⟩, var) := by
  obtain ⟨type', size', data'⟩ := var'
  obtain ⟨type, size, data⟩ := var
  obtain ⟨rfl, rfl, hlength, hbehind⟩ := hlike
  obtain ⟨hdata, hnumber, hstring⟩ := hshape
  dsimp only at hlength hbehind hdata hnumber hstring
  cases type' with
  | intDec =>
    have hsize := hnumber (Or.inl rfl)
    obtain ⟨hlow, hhigh, hint⟩ := signed_range (hdata.symm ▸ hsize)
    rw [hdata] at hlow hhigh
    rw [(textOf_number hsize).1 rfl]
    unfold parseWriteArg
    dsimp only
    rw [parseIntDecimal_text htail]
    unfold validateIntRange
    dsimp only
    rw [if_pos hsize, hint, if_neg (by omega)]
    dsimp only
    rw [← hdata, storeInt_signed]
  | uintDec =>
    have hsize := hnumber (Or.inr (Or.inl rfl))
    rw [(textOf_number hsize).2.1 rfl]
    unfold parseWriteArg
    dsimp only
    rw [parseUintDecimal_text htail]
    dsimp only
    rw [validateUintRange_unsigned hsize hdata]
  | numHex =>
    have hsize := hnumber (Or.inr (Or.inr rfl))
    have hless : unsigned data < 16 ^ (2 * size') := by
      have hlt := unsigned_lt data
      rw [hdata] at hlt
      rw [Nat.pow_mul]
      exact hlt
    have hwidth : 0 < 2 * size' := by
      rcases numSize_cases hsize with hsize | hsize | hsize <;> omega
    rw [(textOf_number hsize).2.2 rfl]
    unfold parseWriteArg
    dsimp only
    rw [parseNumHexadecimal_text htail hwidth hless]
    dsimp only
    rw [validateUintRange_unsigned hsize hdata]
  | bufHex =>
    have hpos : 0 < size' := hclean.1 rfl
    have hparse := @parseBufferHexadecimal_bytes _ _ _ htail size' data 0 data' (by omega)
      (by omega)
    have hover : overlay data' 0 data = data := by
      rw [overlay_eq (by omega), List.drop_eq_nil_of_le (by omega)]
      simp
    rw [textOf_bufHex rfl]
    unfold parseWriteArg
    dsimp only
    rw [hparse, hover]
  | bufString =>
    obtain ⟨hwhole, hplain⟩ := @content_spec ⟨.bufString, size', data⟩ (hstring rfl)
    dsimp only at hwhole
    have hcount : data.length = (Variable.mk .bufString size' data).content.length + 1 +
        (data.drop ((Variable.mk .bufString size' data).content.length + 1)).length := by
      have hsum := congrArg List.length hwhole
      rw [List.length_append, List.length_cons] at hsum
      omega
    have hshort : 0 + (Variable.mk .bufString size' data).content.length < size' := by omega
    have hparse := parseBufferString_content htail
      (Variable.mk .bufString size' data).content 0 data' hplain hshort
    have hover : overlay data' 0 ((Variable.mk .bufString size' data).content ++ [0]) = data := by
      have hlast := hbehind rfl
      rw [overlay_eq (by rw [List.length_append, List.length_singleton]; omega), List.length_append,
        List.length_singleton, Nat.zero_add, hlast]
      calc _ = (Variable.mk .bufString size' data).content ++ 0 ::
            data.drop ((Variable.mk .bufString size' data).content.length + 1) := by simp
        _ = data := hwhole.symm
    have hlist : textOf ⟨.bufString, size', data⟩ ++ tail = 34 ::
        ((Variable.mk .bufString size' data).content.flatMap Cat.escape ++ 34 :: tail) := by
      rw [textOf_bufString rfl]
      simp
    rw [hlist]
    unfold parseWriteArg
    dsimp only
    rw [Cat.parseBufferString, if_neg (by decide), hparse, hover]

/-- The line reader takes the carriage returns out of a string. -/
theorem keep_escape (content : List UInt8) :
    keep (content.flatMap Cat.escape) = (keep content).flatMap Cat.escape := by
  induction content with
  | nil => rfl
  | cons ch content ih =>
    have hone : keep (Cat.escape ch) = (keep [ch]).flatMap Cat.escape := by
      by_cases hquote : ch = 92 ∨ ch = 34
      · rcases hquote with rfl | rfl <;> decide
      by_cases hline : ch = Cat.lf
      · rw [hline]
        decide
      · have hescape : Cat.escape ch = [ch] := by
          unfold Cat.escape
          rw [if_neg hquote, if_neg hline]
        by_cases hreturn : ch = 13
        · rw [hreturn]
          decide
        · simp [keep, hescape, hreturn]
    have hsplit : keep (ch :: content) = keep [ch] ++ keep content := by
      unfold keep
      rw [← List.filter_append]
      rfl
    rw [List.flatMap_cons, hsplit, List.flatMap_append, ← hone, ← ih]
    unfold keep
    rw [List.filter_append]

/-- A string with carriage returns comes back without them. -/
theorem parseWriteArg_keep (htail : Tail tail comma rest) (hshape : var.Shaped)
    (hclean : ¬var.Clean) :
    (parseWriteArg var (keep (textOf var) ++ tail)).1 = none ∨
      (parseWriteArg var (keep (textOf var) ++ tail)).2 ≠ var := by
  obtain ⟨type, size, data⟩ := var
  obtain ⟨hdata, -, hstring⟩ := hshape
  dsimp only at hdata hstring
  cases type with
  | intDec => exact absurd ⟨nofun, nofun⟩ hclean
  | uintDec => exact absurd ⟨nofun, nofun⟩ hclean
  | numHex => exact absurd ⟨nofun, nofun⟩ hclean
  | bufHex =>
    left
    have hzero : size = 0 := by
      apply Classical.byContradiction
      intro hne
      exact hclean ⟨fun _ => Nat.pos_of_ne_zero hne, nofun⟩
    have hnil : data = [] := List.eq_nil_of_length_eq_zero (hdata.trans hzero)
    have htext : keep (textOf ⟨.bufHex, size, data⟩) ++ tail = tail := by
      rw [textOf_bufHex rfl, hnil]
      rfl
    rw [htext]
    exact parseBufferHexadecimal_none htail size data
  | bufString =>
    right
    obtain ⟨hwhole, hplain⟩ := @content_spec ⟨.bufString, size, data⟩ (hstring rfl)
    generalize hcontent : (Variable.mk .bufString size data).content = content at hwhole hplain
    have hreturn : 13 ∈ content := by
      apply Classical.byContradiction
      intro hno
      exact hclean ⟨nofun, fun _ => hcontent ▸ hno⟩
    have hless : (keep content).length < content.length := by
      refine Nat.lt_of_le_of_ne (List.length_filter_le _ _) fun heq => ?_
      have hall := List.length_filter_eq_length_iff.mp heq 13 hreturn
      exact absurd hall (by decide)
    have hcount := congrArg List.length hwhole
    rw [List.length_append, List.length_cons] at hcount
    have hlist : keep (textOf ⟨.bufString, size, data⟩) ++ tail
        = 34 :: ((keep content).flatMap Cat.escape ++ 34 :: tail) := by
      rw [textOf_bufString rfl, hcontent, ← keep_escape]
      simp [keep]
    have hkept : ∀ ch ∈ keep content, ch ≠ 0 := fun ch hmem =>
      hplain ch (List.mem_filter.mp hmem).1
    have hparse := @parseBufferString_content _ _ _ htail size (keep content) 0 data hkept
      (by dsimp only at hcount; omega)
    have hresult : (parseWriteArg ⟨.bufString, size, data⟩
        (keep (textOf ⟨.bufString, size, data⟩) ++ tail)).2
          = ⟨.bufString, size, overlay data 0 (keep content ++ [0])⟩ := by
      rw [hlist]
      unfold parseWriteArg
      dsimp only
      rw [Cat.parseBufferString, if_neg (by decide), hparse]
    rw [hresult]
    intro heq
    -- at the new end of the string there was a character
    have hsame : overlay data 0 (keep content ++ [0]) = data := congrArg Variable.data heq
    have hover := @overlay_eq data (keep content ++ [0]) 0
      (by rw [List.length_append, List.length_singleton]; dsimp only at hcount; omega)
    rw [hsame] at hover
    have hnew : data[(keep content).length]? = some 0 := by
      rw [hover, List.take_zero, List.nil_append, List.append_assoc,
        List.getElem?_append_right (Nat.le_refl _), Nat.sub_self]
      rfl
    have hold : data[(keep content).length]? = content[(keep content).length]? := by
      have hwhole' : data = content ++ 0 :: data.drop (content.length + 1) := hwhole
      rw [hwhole', List.getElem?_append_left hless]
    rw [hold] at hnew
    exact hplain 0 (List.mem_of_getElem? hnew) rfl

/-- The characters of numbers and bytes. -/
theorem plain_hex (width n : Nat) : ∀ ch ∈ hex width n, ch ≠ 13 ∧ ch ≠ 10 ∧ ch ≠ 63 := by
  induction width generalizing n with
  | zero => exact fun _ hmem => nomatch hmem
  | succ width ih =>
    intro ch hmem
    rcases List.mem_append.mp hmem with hmem | hmem
    · exact ih _ ch hmem
    · obtain ⟨-, -, -, -, -, hplain⟩ := hexChar_spec ⟨n % 16, Nat.mod_lt _ (by decide)⟩
      rw [List.mem_singleton.mp hmem]
      exact hplain

theorem plain_decimal (n : Nat) : ∀ ch ∈ decimal n, ch ≠ 13 ∧ ch ≠ 10 ∧ ch ≠ 63 := by
  intro ch hmem
  have hdec := Cat.isValidDecChar_iff.mp ((decimal_spec n).2.1 ch hmem)
  refine ⟨?_, ?_, ?_⟩ <;> rintro rfl <;> revert hdec <;> decide

/-- No line feed is printed, and no carriage return for a clean variable; no test begins. -/
theorem textOf_plain (hshape : var.Shaped) :
    10 ∉ textOf var ∧
      (var.Clean → 13 ∉ textOf var ∧ ∃ first others, textOf var = first :: others ∧ first ≠ 63) := by
  have hfrom : (∀ ch ∈ textOf var, ch ≠ 13 ∧ ch ≠ 10 ∧ ch ≠ 63) → (var.Clean → textOf var ≠ []) →
      10 ∉ textOf var ∧ (var.Clean → 13 ∉ textOf var ∧
        ∃ first others, textOf var = first :: others ∧ first ≠ 63) := by
    intro hplain hsome
    refine ⟨fun hmem => (hplain 10 hmem).2.1 rfl, fun hclean =>
      ⟨fun hmem => (hplain 13 hmem).1 rfl, ?_⟩⟩
    obtain ⟨first, others, hlist⟩ := List.exists_cons_of_ne_nil (hsome hclean)
    exact ⟨first, others, hlist, (hplain first (hlist ▸ List.mem_cons_self ..)).2.2⟩
  cases htype : var.type with
  | intDec =>
    have htext := (textOf_number (hshape.number (Or.inl htype))).1 htype
    have hplain := plain_decimal (signed var.data).natAbs
    refine hfrom (fun ch hmem => ?_) fun _ hnil => ?_
    · rw [htext] at hmem
      unfold signedDecimal at hmem
      split at hmem
      · rcases List.mem_cons.mp hmem with rfl | hmem
        · decide
        · exact hplain ch hmem
      · exact hplain ch hmem
    · rw [htext] at hnil
      unfold signedDecimal at hnil
      split at hnil
      · cases hnil
      · exact (decimal_spec _).1 hnil
  | uintDec =>
    have htext := (textOf_number (hshape.number (Or.inr (Or.inl htype)))).2.1 htype
    refine hfrom (fun ch hmem => ?_) fun _ hnil => ?_
    · exact plain_decimal _ ch (htext ▸ hmem)
    · exact (decimal_spec _).1 (htext.symm.trans hnil)
  | numHex =>
    have htext := (textOf_number (hshape.number (Or.inr (Or.inr htype)))).2.2 htype
    refine hfrom (fun ch hmem => ?_) fun _ hnil => ?_
    · rw [htext] at hmem
      rcases List.mem_cons.mp hmem with rfl | hmem
      · decide
      · rcases List.mem_cons.mp hmem with rfl | hmem
        · decide
        · exact plain_hex _ _ ch hmem
    · cases htext.symm.trans hnil
  | bufHex =>
    have htext := textOf_bufHex htype
    refine hfrom (fun ch hmem => ?_) fun hclean hnil => ?_
    · rw [htext] at hmem
      obtain ⟨byte, -, hmem⟩ := List.mem_flatMap.mp hmem
      exact plain_hex _ _ ch hmem
    · have hpos := hclean.1 htype
      rw [← hshape.length] at hpos
      obtain ⟨byte, bytes, hdata⟩ := List.exists_cons_of_ne_nil (List.ne_nil_of_length_pos hpos)
      rw [htext, hdata] at hnil
      simp [hex] at hnil
  | bufString =>
    have htext := textOf_bufString htype
    have hescape : ∀ other ∈ var.content, ∀ ch ∈ Cat.escape other, ch ≠ 10 ∧ (ch = 13 → other = 13) := by
      intro other _ ch hmem
      unfold Cat.escape at hmem
      split at hmem
      · next hquote =>
        simp only [List.mem_cons, List.not_mem_nil, or_false] at hmem
        rcases hmem with rfl | rfl
        · exact ⟨by decide, fun heq => absurd heq (by decide)⟩
        · exact ⟨fun heq => by subst heq; revert hquote; decide, id⟩
      · split at hmem
        · simp only [List.mem_cons, List.not_mem_nil, or_false] at hmem
          rcases hmem with rfl | rfl
          · exact ⟨by decide, fun heq => absurd heq (by decide)⟩
          · exact ⟨by decide, fun heq => absurd heq (by decide)⟩
        · next hline =>
          rw [List.mem_singleton.mp hmem]
          exact ⟨hline, id⟩
    have hinside : ∀ ch ∈ textOf var, ch = 34 ∨ ∃ other ∈ var.content, ch ∈ Cat.escape other := by
      intro ch hmem
      rw [htext] at hmem
      simpa [or_comm, or_assoc, or_left_comm] using hmem
    refine ⟨fun hmem => ?_, fun hclean => ⟨fun hmem => ?_, 34, _, htext, by decide⟩⟩
    · rcases hinside 10 hmem with heq | ⟨other, hother, hmem⟩
      · exact absurd heq (by decide)
      · exact (hescape other hother 10 hmem).1 rfl
    · rcases hinside 13 hmem with heq | ⟨other, hother, hmem⟩
      · exact absurd heq (by decide)
      · exact hclean.2 htype ((hescape other hother 13 hmem).2 rfl ▸ hother)

theorem keep_of_clean (hshape : var.Shaped) (hclean : var.Clean) :
    keep (textOf var) = textOf var := by
  refine List.filter_eq_self.mpr fun ch hmem => decide_eq_true ?_
  rintro rfl
  exact ((textOf_plain hshape).2 hclean).1 hmem

/-! ## All variables -/

/-- The texts with their commas. -/
def joined : List Variable → List UInt8
  | [] => []
  | [var] => textOf var
  | var :: vars => textOf var ++ 44 :: joined vars

theorem joined_cons (var next : Variable) (vars : List Variable) :
    joined (var :: next :: vars) = textOf var ++ 44 :: joined (next :: vars) := rfl

theorem parseWriteArgs_cons (needAllVars : Bool) (var : Variable) (vars : List Variable)
    (text : List UInt8) :
    parseWriteArgs needAllVars (var :: vars) text =
      match parseWriteArg var text with
      | (none, var) => (.error, var :: vars)
      | (some arg, var) =>
        if vars ≠ [] ∧ arg.comma then
          let (reply, vars) := parseWriteArgs needAllVars vars arg.rest
          (reply, var :: vars)
        else if arg.comma then (.error, var :: vars)
        else if needAllVars ∧ vars ≠ [] then (.error, var :: vars)
        else (.found, var :: vars) := rfl

/-- The texts of clean variables restore them. -/
theorem parseWriteArgs_joined (needAllVars : Bool) {vars' vars : List Variable} (hne : vars ≠ [])
    (hlike : List.Forall₂ Like vars' vars) (hshape : ∀ var ∈ vars, var.Shaped)
    (hclean : ∀ var ∈ vars, var.Clean) :
    parseWriteArgs needAllVars vars' (joined vars) = (.found, vars) := by
  induction hlike with
  | nil => exact absurd rfl hne
  | @cons var' var vars' vars hfirst hrest ih =>
    have hshaped := hshape var (List.mem_cons_self ..)
    have hcleaned := hclean var (List.mem_cons_self ..)
    rw [parseWriteArgs_cons]
    cases hrest with
    | nil =>
      have hparse := parseWriteArg_text Tail.last hshaped hcleaned hfirst
      rw [List.append_nil] at hparse
      rw [show joined [var] = textOf var from rfl, hparse]
      simp
    | @cons next' next others' others hnext hothers =>
      have hparse := parseWriteArg_text (Tail.more (joined (next :: others))) hshaped hcleaned
        hfirst
      have hlater := ih (List.cons_ne_nil _ _)
        (fun var hmem => hshape var (List.mem_cons_of_mem _ hmem))
        (fun var hmem => hclean var (List.mem_cons_of_mem _ hmem))
      rw [joined_cons, hparse]
      dsimp only
      rw [if_pos ⟨List.cons_ne_nil _ _, rfl⟩, hlater]

/-- And what is restored is clean. -/
theorem clean_of_parsed (needAllVars : Bool) {vars : List Variable}
    (hshape : ∀ var ∈ vars, var.Shaped)
    (h : parseWriteArgs needAllVars vars (keep (joined vars)) = (.found, vars)) :
    ∀ var ∈ vars, var.Clean := by
  induction vars with
  | nil => exact fun _ hmem => nomatch hmem
  | cons var vars ih =>
    have hshaped := hshape var (List.mem_cons_self ..)
    rw [parseWriteArgs_cons] at h
    have htail : ∃ tail comma rest, Tail tail comma rest ∧
        keep (joined (var :: vars)) = keep (textOf var) ++ tail ∧
        (vars ≠ [] → comma = true ∧ rest = keep (joined vars)) := by
      cases vars with
      | nil =>
        exact ⟨[], false, [], .last, (List.append_nil _).symm, fun hne => absurd rfl hne⟩
      | cons next vars =>
        refine ⟨_, true, _, .more (keep (joined (next :: vars))), ?_, fun _ => ⟨rfl, rfl⟩⟩
        rw [joined_cons]
        simp [keep]
    obtain ⟨tail, comma, rest, htail, hlist, hmore⟩ := htail
    rw [hlist] at h
    by_cases hclean : var.Clean
    · have hkeep : keep (textOf var) = textOf var := keep_of_clean hshaped hclean
      have hparse := parseWriteArg_text htail hshaped hclean (Like.refl var)
      rw [hkeep, hparse] at h
      dsimp only at h
      intro other hmem
      rcases List.mem_cons.mp hmem with rfl | hmem
      · exact hclean
      · have hne : vars ≠ [] := List.ne_nil_of_mem hmem
        obtain ⟨hcomma, hrest⟩ := hmore hne
        rw [if_pos ⟨hne, hcomma⟩, hrest] at h
        refine ih (fun var hmem => hshape var (List.mem_cons_of_mem _ hmem)) ?_ other hmem
        have hreply := congrArg Prod.fst h
        have hvars := (List.cons.inj (congrArg Prod.snd h)).2
        exact Prod.ext hreply hvars
    · exfalso
      rcases parseWriteArg_keep htail hshaped hclean with hnone | hother
      · generalize parseWriteArg var (keep (textOf var) ++ tail) = result at h hnone
        obtain ⟨arg, var'⟩ := result
        dsimp only at hnone
        subst hnone
        cases congrArg Prod.fst h
      · generalize parseWriteArg var (keep (textOf var) ++ tail) = result at h hother
        obtain ⟨arg, var'⟩ := result
        refine hother ?_
        have hvars := congrArg Prod.snd h
        cases arg with
        | none => exact (List.cons.inj hvars).1
        | some arg =>
          dsimp only at hvars
          split at hvars
          · exact (List.cons.inj hvars).1
          · split at hvars
            · exact (List.cons.inj hvars).1
            · split at hvars
              · exact (List.cons.inj hvars).1
              · exact (List.cons.inj hvars).1

/-! ## The line and the print -/

/-- A line that is taken is in the buffer without its carriage returns. -/
theorem parseCommandArgs_some {size : Nat} {implicitWrite : Bool} {text : List UInt8}
    (hline : 10 ∉ text) :
    ∀ {buf buf' : List UInt8},
      parseCommandArgs size implicitWrite buf (text ++ [10]) = some buf' → buf' = buf ++ keep text := by
  induction text with
  | nil =>
    intro buf buf' h
    cases h
    exact (List.append_nil _).symm
  | cons ch text ih =>
    intro buf buf' h
    have hch : ch ≠ 10 := fun heq => hline (heq ▸ List.mem_cons_self ..)
    have hrest : 10 ∉ text := fun hmem => hline (List.mem_cons_of_mem _ hmem)
    rw [List.cons_append, parseCommandArgs, if_neg hch] at h
    split at h
    · next hreturn =>
      have hkeep : keep (ch :: text) = keep text := by simp [keep, hreturn]
      rw [hkeep]
      exact ih hrest h
    · next hother =>
      have hkeep : keep (ch :: text) = ch :: keep text := by simp [keep, hother]
      split at h
      · cases h
      · split at h
        · cases h
        · split at h
          · rw [ih hrest h, hkeep, List.append_assoc]
            rfl
          · cases h

/-- A line that fits is taken, unless it begins like the test of the command. -/
theorem parseCommandArgs_fits {size : Nat} {implicitWrite : Bool} {text : List UInt8}
    (hline : 10 ∉ text) (hreturn : 13 ∉ text) :
    ∀ {buf : List UInt8}, buf.length + text.length < size →
      (buf ≠ [] ∨ ∀ first others, text = first :: others → first ≠ 63) →
      parseCommandArgs size implicitWrite buf (text ++ [10]) = some (buf ++ text) := by
  induction text with
  | nil =>
    intro buf _ _
    rw [List.append_nil]
    rfl
  | cons ch text ih =>
    intro buf hfits hopen
    rw [List.length_cons] at hfits
    have hch : ch ≠ 10 := fun heq => hline (heq ▸ List.mem_cons_self ..)
    have hcr : ch ≠ 13 := fun heq => hreturn (heq ▸ List.mem_cons_self ..)
    have htest : ¬(buf = [] ∧ ch = 63 ∧ !implicitWrite) := fun htest =>
      hopen.elim (fun hne => hne htest.1) fun hfirst => hfirst ch text rfl htest.2.1
    have hnext : (buf ++ [ch]).length + text.length < size := by
      rw [List.length_append, List.length_singleton]
      omega
    rw [List.cons_append, parseCommandArgs, if_neg hch, if_neg hcr, if_neg htest,
      if_neg (by omega), if_pos (by omega),
      ih (fun hmem => hline (List.mem_cons_of_mem _ hmem))
        (fun hmem => hreturn (List.mem_cons_of_mem _ hmem)) hnext (Or.inl (by simp)),
      List.append_assoc]
    rfl

/-- Pieces that fit are printed one after the other. -/
theorem print_pieces {size : Nat} {texts : List (List UInt8)} :
    ∀ {buf out : List UInt8}, texts.foldlM (print size) buf = some out →
      out = buf ++ texts.flatten ∧ (texts ≠ [] → out.length < size) := by
  induction texts with
  | nil =>
    intro buf out h
    cases h
    exact ⟨(List.append_nil _).symm, fun hne => absurd rfl hne⟩
  | cons text texts ih =>
    intro buf out h
    rw [List.foldlM_cons] at h
    obtain ⟨mid, hmid, hrest⟩ := Option.bind_eq_some_iff.mp h
    unfold print at hmid
    split at hmid
    · cases hmid
    · next hroom =>
      cases hmid
      obtain ⟨hout, hlater⟩ := ih hrest
      refine ⟨by rw [hout, List.append_assoc]; rfl, fun _ => ?_⟩
      cases texts with
      | nil =>
        rw [hout]
        simp only [List.flatten_nil, List.append_nil, List.length_append]
        omega
      | cons next texts => exact hlater (List.cons_ne_nil _ _)

/-- A variable that is printed has its text in the buffer, with room for a zero behind it. -/
theorem formatVar_some {size : Nat} {buf out : List UInt8} (h : formatVar size buf var = some out) :
    out = buf ++ textOf var ∧ (textOf var ≠ [] → out.length < size) := by
  unfold formatVar at h
  obtain ⟨texts, htexts, hprint⟩ := Option.bind_eq_some_iff.mp h
  obtain ⟨hout, hroom⟩ := print_pieces hprint
  have htext : textOf var = texts.flatten := by
    unfold textOf
    rw [htexts]
    rfl
  rw [htext]
  exact ⟨hout, fun hne => hroom fun hnil => hne (by rw [hnil]; rfl)⟩

/-- What is printed for the variables of a command. -/
theorem formatReadArgs_some {size : Nat} {vars : List Variable} :
    ∀ {buf out : List UInt8}, formatReadArgs size buf vars = some out →
      out = buf ++ joined vars ∧ ((∀ var ∈ vars, textOf var ≠ []) → out.length < size) := by
  induction vars with
  | nil =>
    intro buf out h
    cases h
  | cons var vars ih =>
    intro buf out h
    cases vars with
    | nil =>
      obtain ⟨hout, hroom⟩ := formatVar_some (show formatVar size buf var = some out from h)
      exact ⟨hout, fun hsome => hroom (hsome var (List.mem_cons_self ..))⟩
    | cons next vars =>
      obtain ⟨mid, hmid, hrest⟩ := Option.bind_eq_some_iff.mp
        (show ((formatVar size buf var).bind fun buf =>
          if buf.length ≥ size then none
          else formatReadArgs size (buf ++ [44]) (next :: vars)) = some out from h)
      split at hrest
      · cases hrest
      · obtain ⟨hout, hroom⟩ := ih hrest
        refine ⟨?_, fun hsome => hroom fun var hmem => hsome var (List.mem_cons_of_mem _ hmem)⟩
        rw [hout, (formatVar_some hmid).1, joined_cons]
        simp

theorem joined_line {vars : List Variable} (hshape : ∀ var ∈ vars, var.Shaped) :
    10 ∉ joined vars ∧ ((∀ var ∈ vars, var.Clean) → 13 ∉ joined vars) := by
  induction vars with
  | nil => exact ⟨nofun, fun _ => nofun⟩
  | cons var vars ih =>
    obtain ⟨hline, hreturn⟩ := ih fun var hmem => hshape var (List.mem_cons_of_mem _ hmem)
    obtain ⟨hfirst, hfirstClean⟩ := textOf_plain (hshape var (List.mem_cons_self ..))
    cases vars with
    | nil => exact ⟨hfirst, fun hclean => (hfirstClean (hclean var (List.mem_cons_self ..))).1⟩
    | cons next vars =>
      rw [joined_cons]
      refine ⟨fun hmem => ?_, fun hclean hmem => ?_⟩
      · rcases List.mem_append.mp hmem with hmem | hmem
        · exact hfirst hmem
        · rcases List.mem_cons.mp hmem with heq | hmem
          · exact absurd heq (by decide)
          · exact hline hmem
      · rcases List.mem_append.mp hmem with hmem | hmem
        · exact (hfirstClean (hclean var (List.mem_cons_self ..))).1 hmem
        · rcases List.mem_cons.mp hmem with heq | hmem
          · exact absurd heq (by decide)
          · exact hreturn (fun var hmem => hclean var (List.mem_cons_of_mem _ hmem)) hmem

/-- **The round trip.**  The printed text of variables that fit in the buffer restores them, from
whatever data of their kind, exactly if no string holds a carriage return and no hex buffer is
without bytes. -/
theorem round_trip_iff {size : Nat} {vars : List Variable} {start text : List UInt8}
    (implicitWrite needAllVars : Bool) (hshape : ∀ var ∈ vars, var.Shaped)
    (hfits : formatReadArgs size start vars = some (start ++ text)) :
    (∀ vars', List.Forall₂ Like vars' vars →
      writeCommand size implicitWrite needAllVars vars' (text ++ [10]) = (.found, vars)) ↔
      ∀ var ∈ vars, var.Clean := by
  obtain ⟨hout, hroom⟩ := formatReadArgs_some hfits
  have htext : text = joined vars := List.append_cancel_left hout
  obtain ⟨hline, hreturn⟩ := joined_line hshape
  have hne : vars ≠ [] := fun hnil => by
    rw [hnil] at hfits
    cases hfits
  rw [htext] at hroom ⊢
  constructor
  · intro h
    have hself := h vars (List.forall₂_same.mpr fun var _ => Like.refl var)
    unfold writeCommand at hself
    split at hself
    · cases congrArg Prod.fst hself
    · next buf hbuf =>
      rw [parseCommandArgs_some hline hbuf, List.nil_append] at hself
      exact clean_of_parsed needAllVars hshape hself
  · intro hclean vars' hlike
    have hsome : ∀ var ∈ vars, textOf var ≠ [] := by
      intro var hmem hnil
      obtain ⟨-, first, others, hlist, -⟩ := (textOf_plain (hshape var hmem)).2 (hclean var hmem)
      cases hlist.symm.trans hnil
    have hlength := hroom hsome
    rw [List.length_append] at hlength
    have hopen : ∀ first others, joined vars = first :: others → first ≠ 63 := by
      intro first others hlist
      obtain ⟨var, vars, rfl⟩ := List.exists_cons_of_ne_nil hne
      obtain ⟨-, ch, chars, hfirst, htest⟩ :=
        (textOf_plain (hshape var (List.mem_cons_self ..))).2 (hclean var (List.mem_cons_self ..))
      have hhead : ∃ behind, joined (var :: vars) = ch :: behind := by
        cases vars with
        | nil => exact ⟨chars, hfirst⟩
        | cons next vars =>
          rw [joined_cons, hfirst]
          exact ⟨_, rfl⟩
      obtain ⟨behind, hbehind⟩ := hhead
      rw [hlist] at hbehind
      rw [(List.cons.inj hbehind).1]
      exact htest
    have hread := @parseCommandArgs_fits size implicitWrite (joined vars) hline (hreturn hclean) []
      (by rw [List.length_nil]; omega) (Or.inr hopen)
    unfold writeCommand
    rw [hread]
    exact parseWriteArgs_joined needAllVars hne hlike hshape hclean

/-- A port as an unsigned number, and a string of three bytes. -/
def portAndName : List Variable := [⟨.uintDec, 2, [80, 0]⟩, ⟨.bufString, 3, [65, 66, 0]⟩]

/-- `80,"AB"` behind `+X=`. -/
theorem round_trip_iff_two :
    (∀ var ∈ portAndName, var.Shaped) ∧
      formatReadArgs 64 [43, 88, 61] portAndName
        = some ([43, 88, 61] ++ [56, 48, 44, 34, 65, 66, 34]) ∧
      ((∀ vars', List.Forall₂ Like vars' portAndName →
        writeCommand 64 false true vars' ([56, 48, 44, 34, 65, 66, 34] ++ [10])
          = (.found, portAndName)) ↔ ∀ var ∈ portAndName, var.Clean) := by
  have hshape : ∀ var ∈ portAndName, var.Shaped := by
    intro var hmem
    rcases List.mem_cons.mp hmem with rfl | hmem
    · exact ⟨rfl, fun _ => rfl, nofun⟩
    · rw [List.mem_singleton.mp hmem]
      exact ⟨rfl, fun htype => by simp at htype, fun _ => by decide⟩
  have hfits : formatReadArgs 64 [43, 88, 61] portAndName
      = some ([43, 88, 61] ++ [56, 48, 44, 34, 65, 66, 34]) := by
    simp [formatReadArgs, formatVar, pieces, formatUintDecimal, formatBufferString, isNumSize,
      portAndName, unsigned, decimal, print, Cat.escape, Cat.lf]
  exact ⟨hshape, hfits, round_trip_iff false true hshape hfits⟩

/-- A string with a carriage return. -/
def returned : List Variable := [⟨.bufString, 3, [65, 13, 0]⟩]

/-- Its text is printed as it is, and read back without the carriage return. -/
theorem return_lost :
    formatReadArgs 64 [] returned = some [34, 65, 13, 34] ∧
      writeCommand 64 false true returned ([34, 65, 13, 34] ++ [10])
        = (.found, [⟨.bufString, 3, [65, 0, 0]⟩]) := by
  decide +kernel

end CatText
