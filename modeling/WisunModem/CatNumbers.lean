import Mathlib.Algebra.GroupWithZero.Nat
import Mathlib.Data.List.TakeWhile
import WisunModem.CatArguments

/-!
# Numeric arguments

The byte counts and the port of the modem are unsigned 16-bit variables that the
table of the commands declares as signed decimals.  Numerals above 32767 are
therefore turned down, negative ones are stored, and a numeral of twenty digits
and more is taken for what is left of it in 64 bits.
-/

namespace Cat

/-- The characters of an argument: the line feed ends the line. -/
abbrev ArgText := { text : List UInt8 // lf ∉ text }

/-- The globals behind the variables of the commands with a numeric argument. -/
structure Globals where
  bytesToSend : UInt16
  recvDataLength : UInt16
  connectionType : List UInt8
  connectionIp : List UInt8
  connectionPort : UInt16

/-- How a character is written inside a string argument. -/
def escape (ch : UInt8) : List UInt8 :=
  if ch = 92 ∨ ch = 34 then [92, ch] else if ch = lf then [92, 110] else [ch]

/-- The value of a string argument that a variable of `dataSize` bytes takes. -/
structure StringArg (dataSize : Nat) where
  content : List UInt8
  plain : ∀ ch ∈ content, ch ≠ 0 ∧ ch ≠ cr
  short : content.length < dataSize

/-- The argument with its quotes. -/
def StringArg.text {dataSize : Nat} (arg : StringArg dataSize) : List UInt8 :=
  34 :: (arg.content.flatMap escape ++ [34])

/-- The commands with a numeric argument; the port comes after two string arguments. -/
inductive NumericArg
  | cipsend
  | ciprecvdata
  | cipstart (type : StringArg 4) (ip : StringArg 46)

/-- `need_all_vars` of the command. -/
def NumericArg.needAllVars : NumericArg → Bool
  | cipsend => false
  | ciprecvdata => true
  | cipstart _ _ => true

/-- The variables of the command that come before the number. -/
def NumericArg.strings (g : Globals) : NumericArg → List CatVariable
  | cipsend => []
  | ciprecvdata => []
  | cipstart _ _ => [⟨.bufString, 4, g.connectionType⟩, ⟨.bufString, 46, g.connectionIp⟩]

/-- The value of the variable. -/
def NumericArg.value (g : Globals) : NumericArg → UInt16
  | cipsend => g.bytesToSend
  | ciprecvdata => g.recvDataLength
  | cipstart _ _ => g.connectionPort

/-- An integer variable of two bytes, as all three are declared. -/
def wordVariable (value : UInt16) : CatVariable := ⟨.intDec, 2, storeInt 2 value.toNat⟩

/-- The variables of the command. -/
def NumericArg.vars (arg : NumericArg) (g : Globals) : List CatVariable :=
  arg.strings g ++ [wordVariable (arg.value g)]

/-- What stands between the equals sign and the number. -/
def NumericArg.ahead : NumericArg → List UInt8
  | cipsend => []
  | ciprecvdata => []
  | cipstart type ip => type.text ++ 44 :: (ip.text ++ [44])

/-- The value of two bytes. -/
def word : List UInt8 → Nat
  | [low, high] => low.toNat + 256 * high.toNat
  | _ => 0

/-- The number in the last variable. -/
def number (vars : List CatVariable) : Option Nat :=
  vars.getLast?.map fun var => word var.data

/-- The command with `text` as its number. -/
def NumericArg.run (arg : NumericArg) (g : Globals) (text : List UInt8) :
    Reply × List CatVariable :=
  writeCommand arg.needAllVars (arg.vars g) (arg.ahead ++ text)

/-- The value of a list of digits. -/
def numeral (digits : List UInt8) : Nat :=
  digits.foldl (fun n ch => 10 * n + (ch.toNat - 48)) 0

/-- A decimal numeral of a value in 0..65535. -/
def IsWord (text : List UInt8) : Prop :=
  text ≠ [] ∧ (∀ ch ∈ text, isValidDecChar ch = true) ∧ numeral text ≤ 65535

/-- **The argument is parsed exactly**, whatever the variables held before. -/
structure ParsedExactly (arg : NumericArg) (text : List UInt8) : Prop where
  taken : IsWord text → ∀ g,
    (arg.run g text).1 = .found ∧ number (arg.run g text).2 = some (numeral text)
  refused : ¬ IsWord text → ∀ g,
    (arg.run g text).1 = .error ∧ number (arg.run g text).2 = some (arg.value g).toNat

/-- The sign in front of an argument, and what follows it. -/
def signPart : List UInt8 → Int × List UInt8
  | 45 :: rest => (-1, rest)
  | 43 :: rest => (1, rest)
  | text => (1, text)

/-- The signed numeral at the start of an argument. -/
def signedNumeral (text : List UInt8) : Int :=
  (signPart text).1 * (numeral ((signPart text).2.takeWhile isValidDecChar) : Int)

/-- The argument begins with a signed numeral, which its end, a zero or a comma follows. -/
def BeginsNumber (text : List UInt8) : Prop :=
  (signPart text).2.takeWhile isValidDecChar ≠ [] ∧
    ∀ ch ∈ ((signPart text).2.dropWhile isValidDecChar).head?, ch = 0 ∨ ch = 44

/-- The numeral is in the range of 16 signed bits, up to a multiple of 2 to the 64. -/
def InRange (text : List UInt8) : Prop :=
  -2 ^ 15 ≤ (signedNumeral text).bmod (2 ^ 64) ∧ (signedNumeral text).bmod (2 ^ 64) < 2 ^ 15

/-- What is left of the line: carriage returns are dropped. -/
def kept (text : List UInt8) : List UInt8 := text.filter (· ≠ cr)

/-- A numeral of 0..65535 is below 32768 and fits in the buffer; other text is too long for the
buffer, or is not the test of the command and does not begin with a number that passes for one
of 16 signed bits. -/
def ReadRight (arg : NumericArg) (text : List UInt8) : Prop :=
  (IsWord text → numeral text < 2 ^ 15 ∧ arg.ahead.length + text.length < atcmdBufSize) ∧
    (¬ IsWord text → arg.ahead.length + (kept text).length < atcmdBufSize →
      ¬ (arg.ahead = [] ∧ kept text = [63]) ∧
      ¬ (BeginsNumber (kept text) ∧ InRange (kept text)))

/-! ## Digits -/

theorem isValidDecChar_iff {ch : UInt8} :
    isValidDecChar ch = true ↔ 48 ≤ ch.toNat ∧ ch.toNat ≤ 57 := by
  simp [isValidDecChar, UInt8.le_iff_toNat_le]

/-- A digit is no sign and ends nothing. -/
theorem ne_of_isValidDecChar {ch : UInt8} (hdec : isValidDecChar ch = true) :
    ch ≠ 0 ∧ ch ≠ 44 ∧ ch ≠ 45 ∧ ch ≠ 43 ∧ ch ≠ cr ∧ ch ≠ 63 := by
  refine ⟨?_, ?_, ?_, ?_, ?_, ?_⟩ <;>
  · rintro rfl
    revert hdec
    decide

/-- The value of digits that follow others. -/
def numeralFrom (n : Nat) (digits : List UInt8) : Nat :=
  digits.foldl (fun n ch => 10 * n + (ch.toNat - 48)) n

theorem numeralFrom_cons (n : Nat) (ch : UInt8) (digits : List UInt8) :
    numeralFrom n (ch :: digits) = numeralFrom (10 * n + (ch.toNat - 48)) digits := by
  simp only [numeralFrom, List.foldl_cons]

/-- What the parser makes of the characters behind the digits. -/
def afterDigits (value : Int64) : List UInt8 → Option (Parsed Int64)
  | [] => some ⟨value, false, []⟩
  | ch :: rest => if ch = 0 ∨ ch = 44 then some ⟨value, ch == 44, rest⟩ else none

/-- The loop behind the first digit: the digits are added up and what follows decides. -/
theorem parseIntDecimal_digits {sign : Int64} (hsign : sign ≠ 0) (text : List UInt8) :
    ∀ n : Nat, parseIntDecimal (.ofInt n) sign true text
      = afterDigits (.ofInt (numeralFrom n (text.takeWhile isValidDecChar)) * sign)
          (text.dropWhile isValidDecChar) := by
  induction text with
  | nil =>
    intro n
    simp [parseIntDecimal, afterDigits, numeralFrom]
  | cons ch rest ih =>
    intro n
    by_cases hdec : isValidDecChar ch = true
    · obtain ⟨hzero, hcomma, -⟩ := ne_of_isValidDecChar hdec
      have hle := (isValidDecChar_iff.mp hdec).1
      have hvalue : Int64.ofInt n * 10 + .ofInt (ch.toNat - 48)
          = .ofInt ((10 * n + (ch.toNat - 48) : Nat) : Int) := by
        have hten : (10 : Int64) = .ofInt 10 := rfl
        have hint : ((10 * n + (ch.toNat - 48) : Nat) : Int) = n * 10 + (ch.toNat - 48) := by omega
        rw [hint, Int64.ofInt_add, Int64.ofInt_mul, hten]
      have hstep : parseIntDecimal (.ofInt n) sign true (ch :: rest)
          = parseIntDecimal (.ofInt n * 10 + .ofInt (ch.toNat - 48)) sign true rest := by
        simp [parseIntDecimal, hzero, hcomma, hsign, hdec]
      rw [hstep, hvalue, ih, List.takeWhile_cons_of_pos hdec, List.dropWhile_cons_of_pos hdec,
        numeralFrom_cons]
    · rw [List.takeWhile_cons_of_neg hdec, List.dropWhile_cons_of_neg hdec]
      by_cases hends : ch = 0 ∨ ch = 44
      · simp [parseIntDecimal, afterDigits, hends, numeralFrom]
      · simp [parseIntDecimal, afterDigits, hends, hsign, hdec]

/-- The loop behind a sign or at the start: there has to be a digit. -/
theorem parseIntDecimal_signed {sign : Int64} (hsign : sign ≠ 0) (text : List UInt8) :
    parseIntDecimal 0 sign false text
      = if text.takeWhile isValidDecChar = [] then none
        else afterDigits (.ofInt (numeral (text.takeWhile isValidDecChar)) * sign)
          (text.dropWhile isValidDecChar) := by
  cases text with
  | nil => simp [parseIntDecimal]
  | cons ch rest =>
    by_cases hdec : isValidDecChar ch = true
    · have hle := (isValidDecChar_iff.mp hdec).1
      have hstep : parseIntDecimal 0 sign false (ch :: rest)
          = parseIntDecimal (.ofInt ((ch.toNat - 48 : Nat) : Int)) sign true rest := by
        have hint : ((ch.toNat - 48 : Nat) : Int) = ch.toNat - 48 := by omega
        simp [parseIntDecimal, hsign, hdec, hint]
      rw [hstep, parseIntDecimal_digits hsign, List.takeWhile_cons_of_pos hdec,
        List.dropWhile_cons_of_pos hdec, if_neg (List.cons_ne_nil _ _)]
      have hnumeral : numeral (ch :: rest.takeWhile isValidDecChar)
          = numeralFrom (ch.toNat - 48) (rest.takeWhile isValidDecChar) := by
        simp [numeral, numeralFrom]
      rw [hnumeral]
    · rw [List.takeWhile_cons_of_neg hdec]
      simp [parseIntDecimal, hsign, hdec]

/-- **The parser of signed decimals.**  What it makes of any text. -/
theorem parseIntDecimal_eq (text : List UInt8) :
    parseIntDecimal 0 0 false text
      = if (signPart text).2.takeWhile isValidDecChar = [] then none
        else afterDigits (.ofInt (signedNumeral text)) ((signPart text).2.dropWhile isValidDecChar) := by
  have hone : (1 : Int64) ≠ 0 := by decide
  have hminus : (-1 : Int64) ≠ 0 := by decide
  have hvalue : ∀ n : Nat, Int64.ofInt n * 1 = .ofInt (1 * (n : Int)) := by
    intro n
    rw [Int.one_mul, Int64.mul_one]
  have hnegative : ∀ n : Nat, Int64.ofInt n * (-1) = .ofInt (-1 * (n : Int)) := by
    intro n
    have hconst : (-1 : Int64) = .ofInt (-1) := by decide
    rw [hconst, Int.mul_comm, Int64.ofInt_mul]
  cases text with
  | nil => simp [parseIntDecimal, signPart]
  | cons ch rest =>
    by_cases hsub : ch = 45
    · subst hsub
      have hstep : parseIntDecimal 0 0 false (45 :: rest) = parseIntDecimal 0 (-1) false rest := by
        simp [parseIntDecimal]
      rw [hstep, parseIntDecimal_signed hminus, hnegative]
      rfl
    by_cases hplus : ch = 43
    · subst hplus
      have hstep : parseIntDecimal 0 0 false (43 :: rest) = parseIntDecimal 0 1 false rest := by
        simp [parseIntDecimal]
      rw [hstep, parseIntDecimal_signed hone, hvalue]
      rfl
    have hsign : signPart (ch :: rest) = (1, ch :: rest) := by
      unfold signPart
      split
      · rename_i heq
        exact absurd (List.cons.inj heq).1 hsub
      · rename_i heq
        exact absurd (List.cons.inj heq).1 hplus
      · rfl
    have hstep : parseIntDecimal 0 0 false (ch :: rest) = parseIntDecimal 0 1 false (ch :: rest) := by
      by_cases hdec : isValidDecChar ch = true
      · simp [parseIntDecimal, hsub, hplus, hdec]
      · simp [parseIntDecimal, hsub, hplus, hdec]
    rw [hstep, parseIntDecimal_signed hone, hvalue, signedNumeral, hsign]

/-- A text that begins with a number is taken for its value in 64 bits. -/
theorem parseIntDecimal_begins {text : List UInt8} (hbegins : BeginsNumber text) :
    ∃ comma rest, parseIntDecimal 0 0 false text
        = some ⟨.ofInt (signedNumeral text), comma, rest⟩ ∧
      ((signPart text).2.dropWhile isValidDecChar = [] → comma = false) := by
  obtain ⟨hdigits, hend⟩ := hbegins
  rw [parseIntDecimal_eq, if_neg hdigits]
  cases htail : (signPart text).2.dropWhile isValidDecChar with
  | nil => exact ⟨false, [], rfl, fun _ => rfl⟩
  | cons ch rest =>
    rw [htail] at hend
    have hch := hend ch rfl
    refine ⟨ch == 44, rest, ?_, fun h => absurd h (List.cons_ne_nil _ _)⟩
    rw [afterDigits, if_pos hch]

/-- Other text is not taken. -/
theorem parseIntDecimal_not_begins {text : List UInt8} (hnot : ¬ BeginsNumber text) :
    parseIntDecimal 0 0 false text = none := by
  rw [parseIntDecimal_eq]
  by_cases hdigits : (signPart text).2.takeWhile isValidDecChar = []
  · rw [if_pos hdigits]
  rw [if_neg hdigits]
  cases htail : (signPart text).2.dropWhile isValidDecChar with
  | nil =>
    refine absurd ⟨hdigits, ?_⟩ hnot
    simp [htail]
  | cons ch rest =>
    by_cases hch : ch = 0 ∨ ch = 44
    · refine absurd ⟨hdigits, ?_⟩ hnot
      simpa [htail] using hch
    · rw [afterDigits, if_neg hch]

/-! ## The variable -/

/-- The two bytes of an integer in the range of 16 signed bits. -/
theorem word_storeInt (val : Int) : word (storeInt 2 val) = (val % 65536).toNat := by
  have hlow : (val % 256).toNat < 2 ^ 8 := by omega
  have hhigh : (val / 256 % 256).toNat < 2 ^ 8 := by omega
  simp only [storeInt, word, UInt8.toNat_ofNat_of_lt' hlow, UInt8.toNat_ofNat_of_lt' hhigh]
  omega

theorem word_wordVariable (value : UInt16) : word (wordVariable value).data = value.toNat := by
  have hlt := value.toNat_lt
  rw [wordVariable, word_storeInt]
  omega

/-- An integer in 64 bits. -/
theorem toInt_ofInt (n : Int) : (Int64.ofInt n).toInt = n.bmod (2 ^ 64) := by
  have hsize : Int64.size = 2 ^ 64 := rfl
  rw [Int64.toInt_ofInt, hsize]

/-- What does not begin with a number in range changes nothing. -/
theorem parseWriteArgs_refused {needAllVars : Bool} {value : UInt16} {text : List UInt8}
    (hbad : ¬ (BeginsNumber text ∧ InRange text)) :
    parseWriteArgs needAllVars [wordVariable value] text = (.error, [wordVariable value]) := by
  suffices parseWriteArg (wordVariable value) text = (none, wordVariable value) by
    rw [parseWriteArgs, this]
  by_cases hbegins : BeginsNumber text
  · obtain ⟨comma, rest, hparse, -⟩ := parseIntDecimal_begins hbegins
    have hrange : ¬ InRange text := fun h => hbad ⟨hbegins, h⟩
    have hout : (Int64.ofInt (signedNumeral text)).toInt < -2 ^ 15 ∨
        2 ^ 15 - 1 < (Int64.ofInt (signedNumeral text)).toInt := by
      rw [toInt_ofInt]
      unfold InRange at hrange
      omega
    simp only [parseWriteArg, wordVariable, hparse, validateIntRange, if_pos hout]
  · simp only [parseWriteArg, wordVariable, parseIntDecimal_not_begins hbegins]

/-- The variable after the number `val` was stored in it. -/
def storedVariable (val : Int) : CatVariable := ⟨.intDec, 2, storeInt 2 val⟩

/-- A number in range is stored, even when a comma behind it makes the command fail. -/
theorem parseWriteArgs_stored (needAllVars : Bool) (value : UInt16) {text : List UInt8}
    (hbegins : BeginsNumber text) (hrange : InRange text) :
    ∃ reply, parseWriteArgs needAllVars [wordVariable value] text
        = (reply, [storedVariable ((signedNumeral text).bmod (2 ^ 64))]) ∧
      ((signPart text).2.dropWhile isValidDecChar = [] → reply = .found) := by
  obtain ⟨comma, rest, hparse, hcomma⟩ := parseIntDecimal_begins hbegins
  have hvalue := toInt_ofInt (signedNumeral text)
  have hin : ¬ ((signedNumeral text).bmod (2 ^ 64) < -2 ^ 15 ∨
      2 ^ 15 - 1 < (signedNumeral text).bmod (2 ^ 64)) := by
    unfold InRange at hrange
    omega
  have harg : parseWriteArg (wordVariable value) text
      = (some ⟨(), comma, rest⟩, storedVariable ((signedNumeral text).bmod (2 ^ 64))) := by
    simp only [parseWriteArg, wordVariable, hparse, validateIntRange, hvalue, if_neg hin,
      storedVariable]
  refine ⟨if comma then .error else .found, ?_, ?_⟩
  · rw [parseWriteArgs, harg]
    cases comma <;> simp
  · intro hend
    rw [hcomma hend]
    rfl

/-! ## The line -/

theorem foldl_read_error (line : List UInt8) : line.foldl ArgState.read .error = .error := by
  induction line with
  | nil => rfl
  | cons ch line ih => exact ih

theorem kept_cons (ch : UInt8) (line : List UInt8) :
    kept (ch :: line) = if ch = cr then kept line else ch :: kept line := by
  by_cases hcr : ch = cr <;> simp [kept, hcr]

/-- The characters collect in the buffer as long as there is room for the zero. -/
theorem foldl_read (line : List UInt8) :
    ∀ buf : List UInt8, buf.length < atcmdBufSize →
      (buf = [] → (kept line).head? ≠ some 63) →
      line.foldl ArgState.read (.parseCommandArgs buf)
        = if buf.length + (kept line).length < atcmdBufSize then
            .parseCommandArgs (buf ++ kept line)
          else .error := by
  induction line with
  | nil =>
    intro buf hroom _
    simp [kept, hroom]
  | cons ch line ih =>
    intro buf hroom hhead
    rw [kept_cons] at hhead ⊢
    rw [List.foldl_cons]
    by_cases hcr : ch = cr
    · rw [if_pos hcr] at hhead ⊢
      rw [ArgState.read, if_pos hcr]
      exact ih buf hroom hhead
    rw [if_neg hcr] at hhead ⊢
    have htest : ¬ (buf = [] ∧ ch = 63) := by
      rintro ⟨hempty, rfl⟩
      exact hhead hempty rfl
    rw [ArgState.read, if_neg hcr, if_neg htest, if_neg (Nat.not_le_of_lt hroom), List.length_cons]
    by_cases hnext : buf.length + 1 < atcmdBufSize
    · have hlength : (buf ++ [ch]).length = buf.length + 1 := by simp
      rw [if_pos hnext, ih (buf ++ [ch]) (by rw [hlength]; exact hnext) (by simp), hlength,
        List.append_assoc, List.singleton_append, Nat.add_assoc, Nat.add_comm 1]
    · rw [if_neg hnext, foldl_read_error, if_neg (by omega)]

/-- The test form of a command, and what only begins like it. -/
theorem foldl_read_test (line : List UInt8) (hhead : (kept line).head? = some 63) :
    line.foldl ArgState.read (.parseCommandArgs [])
      = if kept line = [63] then .waitTestAcknowledge else .error := by
  have hwait : ∀ line : List UInt8, line.foldl ArgState.read .waitTestAcknowledge
      = if kept line = [] then .waitTestAcknowledge else .error := by
    intro line
    induction line with
    | nil => simp [kept]
    | cons ch line ih =>
      rw [List.foldl_cons, ArgState.read, kept_cons]
      by_cases hcr : ch = cr
      · rw [if_pos hcr, if_pos hcr, ih]
      · rw [if_neg hcr, if_neg hcr, foldl_read_error, if_neg (List.cons_ne_nil _ _)]
  induction line with
  | nil => cases hhead
  | cons ch line ih =>
    rw [kept_cons] at hhead ⊢
    rw [List.foldl_cons]
    by_cases hcr : ch = cr
    · rw [if_pos hcr] at hhead ⊢
      rw [ArgState.read, if_pos hcr]
      exact ih hhead
    · rw [if_neg hcr] at hhead ⊢
      obtain rfl : ch = 63 := by simpa using hhead
      rw [ArgState.read, if_neg hcr, if_pos ⟨rfl, rfl⟩, hwait]
      simp

/-! ## String arguments -/

/-- An escaped string up to the comma is read to its end. -/
theorem parseBufferString_inside {dataSize : Nat} (rest content : List UInt8) :
    ∀ size data, (∀ ch ∈ content, ch ≠ 0) → size + content.length < dataSize →
      ∃ data', parseBufferString dataSize .inside size data
        (content.flatMap escape ++ 34 :: 44 :: rest) = (some ⟨(), true, rest⟩, data') := by
  induction content with
  | nil =>
    intro size data _ hshort
    have hroom : ¬ size ≥ dataSize := by simpa using hshort
    exact ⟨data.set size 0, by simp [parseBufferString, hroom]⟩
  | cons ch content ih =>
    intro size data hplain hshort
    rw [List.length_cons] at hshort
    have hzero : ch ≠ 0 := hplain ch (List.mem_cons_self ..)
    have hroom : ¬ dataSize ≤ size := by omega
    have hnext := fun data => ih (size + 1) data
      (fun other hmem => hplain other (List.mem_cons_of_mem _ hmem)) (by omega)
    rw [List.flatMap_cons, List.append_assoc]
    by_cases hquote : ch = 92 ∨ ch = 34
    · obtain ⟨data', hdata'⟩ := hnext (data.set size ch)
      have hescape : escape ch = [92, ch] := by rw [escape, if_pos hquote]
      refine ⟨data', ?_⟩
      rw [hescape, ← hdata']
      rcases hquote with rfl | rfl <;> simp [parseBufferString, hroom]
    by_cases hline : ch = lf
    · obtain ⟨data', hdata'⟩ := hnext (data.set size lf)
      have hescape : escape ch = [92, 110] := by rw [escape, if_neg hquote, if_pos hline]
      refine ⟨data', ?_⟩
      rw [hescape, ← hdata']
      simp [parseBufferString, hroom]
    · obtain ⟨data', hdata'⟩ := hnext (data.set size ch)
      refine ⟨data', ?_⟩
      obtain ⟨hslash, hclose⟩ := not_or.mp hquote
      have hescape : escape ch = [ch] := by rw [escape, if_neg hquote, if_neg hline]
      rw [hescape, ← hdata']
      simp [parseBufferString, hroom, hzero, hslash, hclose]

/-- A string argument is taken whole. -/
theorem parseWriteArg_string {dataSize : Nat} (arg : StringArg dataSize) (data rest : List UInt8) :
    ∃ data', parseWriteArg ⟨.bufString, dataSize, data⟩ (arg.text ++ 44 :: rest)
      = (some ⟨(), true, rest⟩, ⟨.bufString, dataSize, data'⟩) := by
  obtain ⟨data', hdata'⟩ := parseBufferString_inside rest arg.content 0 data
    (fun ch hmem => (arg.plain ch hmem).1) (by rw [Nat.zero_add]; exact arg.short)
  refine ⟨data', ?_⟩
  have htext : arg.text ++ 44 :: rest = 34 :: (arg.content.flatMap escape ++ 34 :: 44 :: rest) := by
    simp [StringArg.text]
  rw [htext]
  simp [parseWriteArg, parseBufferString, hdata']

/-- The number of a command is parsed alone, after the strings. -/
theorem parseWriteArgs_ahead (arg : NumericArg) (g : Globals) (text : List UInt8) :
    ∃ strings, parseWriteArgs arg.needAllVars (arg.vars g) (arg.ahead ++ text)
      = ((parseWriteArgs arg.needAllVars [wordVariable (arg.value g)] text).1,
          strings ++ (parseWriteArgs arg.needAllVars [wordVariable (arg.value g)] text).2) := by
  cases arg with
  | cipsend => exact ⟨[], rfl⟩
  | ciprecvdata => exact ⟨[], rfl⟩
  | cipstart type ip =>
    obtain ⟨data, hdata⟩ := parseWriteArg_string type g.connectionType (ip.text ++ 44 :: text)
    obtain ⟨data', hdata'⟩ := parseWriteArg_string ip g.connectionIp text
    refine ⟨[⟨.bufString, 4, data⟩, ⟨.bufString, 46, data'⟩], ?_⟩
    have hline : (NumericArg.cipstart type ip).ahead ++ text
        = type.text ++ 44 :: (ip.text ++ 44 :: text) := by
      simp [NumericArg.ahead]
    rw [hline]
    simp only [NumericArg.vars, NumericArg.strings, List.cons_append, List.nil_append]
    rw [parseWriteArgs, hdata]
    simp only [ne_eq, not_false_eq_true, and_self, if_pos, List.cons_ne_nil]
    rw [parseWriteArgs, hdata']
    simp

/-- No carriage return stands before the number. -/
theorem kept_ahead (arg : NumericArg) (text : List UInt8) :
    kept (arg.ahead ++ text) = arg.ahead ++ kept text := by
  have hescape : ∀ ch, ch ≠ cr → ∀ other ∈ escape ch, other ≠ cr := by
    intro ch hch other hmem
    unfold escape at hmem
    split at hmem
    · simp only [List.mem_cons, List.not_mem_nil, or_false] at hmem
      rcases hmem with rfl | rfl
      · decide
      · exact hch
    · split at hmem
      · simp only [List.mem_cons, List.not_mem_nil, or_false] at hmem
        rcases hmem with rfl | rfl <;> decide
      · simp only [List.mem_cons, List.not_mem_nil, or_false] at hmem
        rw [hmem]
        exact hch
  have htext : ∀ {dataSize : Nat} (s : StringArg dataSize), ∀ ch ∈ s.text, ch ≠ cr := by
    intro dataSize s ch hmem
    simp only [StringArg.text, List.mem_cons, List.mem_append, List.mem_flatMap,
      List.not_mem_nil, or_false] at hmem
    rcases hmem with rfl | ⟨other, hother, hmem⟩ | rfl
    · decide
    · exact hescape other (s.plain other hother).2 ch hmem
    · decide
  have hahead : arg.ahead.filter (· ≠ cr) = arg.ahead := by
    rw [List.filter_eq_self]
    intro ch hmem
    cases arg with
    | cipsend => cases hmem
    | ciprecvdata => cases hmem
    | cipstart type ip =>
      simp only [NumericArg.ahead, List.mem_append, List.mem_cons, List.not_mem_nil,
        or_false] at hmem
      rcases hmem with hmem | rfl | hmem | rfl
      · simpa using htext type ch hmem
      · decide
      · simpa using htext ip ch hmem
      · decide
  rw [kept, List.filter_append, hahead, kept]

/-! ## The command -/

variable {arg : NumericArg} {text : List UInt8}

/-- The line starts with the quote of a string, or with the number. -/
theorem head?_ahead (hahead : arg.ahead ≠ []) : (arg.ahead ++ text).head? ≠ some 63 := by
  cases arg with
  | cipsend => exact absurd rfl hahead
  | ciprecvdata => exact absurd rfl hahead
  | cipstart type ip => simp [NumericArg.ahead, StringArg.text]

/-- A question mark in front is no number. -/
theorem not_beginsNumber_test (hhead : text.head? = some 63) : ¬ BeginsNumber text := by
  intro h
  cases text with
  | nil => cases hhead
  | cons ch rest =>
    obtain rfl : ch = 63 := by simpa using hhead
    refine h.1 ?_
    have hsign : (signPart (63 :: rest)).2 = 63 :: rest := rfl
    rw [hsign, List.takeWhile_cons_of_neg (by decide)]

/-- **A line.**  It is too long, or the test of the command, or parsed. -/
theorem run_eq (arg : NumericArg) (g : Globals) (text : List UInt8) :
    arg.run g text
      = if atcmdBufSize ≤ arg.ahead.length + (kept text).length then (.error, arg.vars g)
        else if arg.ahead = [] ∧ kept text = [63] then (.test, arg.vars g)
        else parseWriteArgs arg.needAllVars (arg.vars g) (arg.ahead ++ kept text) := by
  have hsize : ([] : List UInt8).length < atcmdBufSize := by decide
  unfold NumericArg.run writeCommand
  by_cases hhead : (kept (arg.ahead ++ text)).head? = some 63
  · rw [foldl_read_test _ hhead]
    rw [kept_ahead] at hhead ⊢
    have hnil : arg.ahead = [] := by
      by_contra hne
      exact head?_ahead hne hhead
    rw [hnil, List.nil_append] at hhead ⊢
    by_cases hone : kept text = [63]
    · rw [if_pos hone, hone, if_neg (by decide), if_pos ⟨rfl, rfl⟩]
      rfl
    · have htest : ¬ (([] : List UInt8) = [] ∧ kept text = [63]) := fun h => hone h.2
      have hvars : arg.vars g = [wordVariable (arg.value g)] := by
        cases arg with
        | cipsend => rfl
        | ciprecvdata => rfl
        | cipstart type ip => cases hnil
      rw [if_neg hone, if_neg htest, ArgState.finish, hvars,
        parseWriteArgs_refused (fun h => not_beginsNumber_test hhead h.1), ite_self]
  · rw [foldl_read _ [] hsize (fun _ => hhead)]
    rw [kept_ahead] at hhead ⊢
    rw [List.length_nil, Nat.zero_add, List.nil_append, List.length_append]
    by_cases hlong : atcmdBufSize ≤ arg.ahead.length + (kept text).length
    · rw [if_neg (Nat.not_lt_of_le hlong), if_pos hlong]
      rfl
    · have htest : ¬ (arg.ahead = [] ∧ kept text = [63]) := by
        rintro ⟨hnil, hone⟩
        rw [hnil, hone] at hhead
        exact hhead rfl
      rw [if_pos (Nat.lt_of_not_le hlong), if_neg hlong, if_neg htest]
      rfl

theorem number_append (strings : List CatVariable) (var : CatVariable) :
    number (strings ++ [var]) = some (word var.data) := by
  simp [number]

/-- The number in the variables before the command. -/
theorem number_vars (arg : NumericArg) (g : Globals) :
    number (arg.vars g) = some (arg.value g).toNat := by
  rw [NumericArg.vars, number_append, word_wordVariable]

/-- A line that is parsed and does not begin with a number in range. -/
theorem run_refused (g : Globals) (hshort : arg.ahead.length + (kept text).length < atcmdBufSize)
    (htest : ¬ (arg.ahead = [] ∧ kept text = [63]))
    (hbad : ¬ (BeginsNumber (kept text) ∧ InRange (kept text))) :
    (arg.run g text).1 = .error ∧ number (arg.run g text).2 = some (arg.value g).toNat := by
  obtain ⟨strings, hparse⟩ := parseWriteArgs_ahead arg g (kept text)
  rw [run_eq, if_neg (Nat.not_le_of_lt hshort), if_neg htest, hparse, parseWriteArgs_refused hbad]
  exact ⟨rfl, by rw [number_append, word_wordVariable]⟩

/-- A line that is parsed and begins with a number in range. -/
theorem run_stored (g : Globals) (hshort : arg.ahead.length + (kept text).length < atcmdBufSize)
    (hbegins : BeginsNumber (kept text)) (hrange : InRange (kept text)) :
    number (arg.run g text).2
        = some (((signedNumeral (kept text)).bmod (2 ^ 64)) % 65536).toNat ∧
      ((signPart (kept text)).2.dropWhile isValidDecChar = [] → (arg.run g text).1 = .found) := by
  have htest : ¬ (arg.ahead = [] ∧ kept text = [63]) := by
    rintro ⟨-, hone⟩
    rw [hone] at hbegins
    exact not_beginsNumber_test rfl hbegins
  obtain ⟨strings, hparse⟩ := parseWriteArgs_ahead arg g (kept text)
  obtain ⟨reply, hstored, hfound⟩ :=
    parseWriteArgs_stored arg.needAllVars (arg.value g) hbegins hrange
  rw [run_eq, if_neg (Nat.not_le_of_lt hshort), if_neg htest, hparse, hstored]
  refine ⟨?_, hfound⟩
  rw [number_append, storedVariable, word_storeInt]

/-- A numeral is a number without a sign that ends with the text. -/
theorem IsWord.begins (hword : IsWord text) :
    kept text = text ∧ BeginsNumber text ∧ signedNumeral text = numeral text ∧
      (signPart text).2.dropWhile isValidDecChar = [] := by
  obtain ⟨hne, hdigits, -⟩ := hword
  have hkept : kept text = text := by
    rw [kept, List.filter_eq_self]
    intro ch hmem
    have hcr := (ne_of_isValidDecChar (hdigits ch hmem)).2.2.2.2.1
    simpa using hcr
  have hsign : signPart text = (1, text) := by
    cases text with
    | nil => exact absurd rfl hne
    | cons ch rest =>
      obtain ⟨-, -, hsub, hplus, -⟩ := ne_of_isValidDecChar (hdigits ch (List.mem_cons_self ..))
      unfold signPart
      split
      · rename_i heq
        exact absurd (List.cons.inj heq).1 hsub
      · rename_i heq
        exact absurd (List.cons.inj heq).1 hplus
      · rfl
  have htake : text.takeWhile isValidDecChar = text := List.takeWhile_eq_self_iff.mpr hdigits
  have hdrop : text.dropWhile isValidDecChar = [] := List.dropWhile_eq_nil_iff.mpr hdigits
  refine ⟨hkept, ⟨?_, ?_⟩, ?_, ?_⟩
  · rw [hsign, htake]
    exact hne
  · rw [hsign, hdrop]
    intro ch hmem
    cases hmem
  · rw [signedNumeral, hsign, htake]
    exact Int.one_mul _
  · rw [hsign]
    exact hdrop

/-- **Which arguments are parsed exactly.** -/
theorem parsedExactly_iff (arg : NumericArg) (text : ArgText) :
    ParsedExactly arg text.1 ↔ ReadRight arg text.1 := by
  obtain ⟨text, -⟩ := text
  change ParsedExactly arg text ↔ ReadRight arg text
  let g (value : UInt16) : Globals := ⟨value, value, [], [], value⟩
  have hg : ∀ value, arg.value (g value) = value := by
    intro value
    cases arg <;> rfl
  by_cases hword : IsWord text
  · obtain ⟨hkept, hbegins, hvalue, hend⟩ := hword.begins
    have hbmod : (signedNumeral text).bmod (2 ^ 64) = numeral text := by
      have hle := hword.2.2
      rw [hvalue]
      exact Int.bmod_eq_of_le (by omega) (by omega)
    have hrange : InRange text ↔ numeral text < 2 ^ 15 := by
      unfold InRange
      omega
    constructor
    · refine fun h => ⟨fun _ => ?_, fun hnot => absurd hword hnot⟩
      have htaken := (h.taken hword (g 0)).1
      have hshort : arg.ahead.length + text.length < atcmdBufSize := by
        by_contra hlong
        rw [run_eq, if_pos (by rw [hkept]; omega)] at htaken
        cases htaken
      refine ⟨?_, hshort⟩
      by_contra hlarge
      have hbad : ¬ (BeginsNumber (kept text) ∧ InRange (kept text)) := by
        rw [hkept, hrange]
        exact fun h => hlarge h.2
      have htest : ¬ (arg.ahead = [] ∧ kept text = [63]) := by
        rintro ⟨-, hone⟩
        rw [hkept] at hone
        rw [hone] at hbegins
        exact not_beginsNumber_test rfl hbegins
      have hrefused := (run_refused (g 0) (by rw [hkept]; exact hshort) htest hbad).1
      rw [hrefused] at htaken
      cases htaken
    · refine fun h => ⟨fun _ g => ?_, fun hnot => absurd hword hnot⟩
      obtain ⟨hsmall, hshort⟩ := h.1 hword
      obtain ⟨hnumber, hfound⟩ := run_stored g (by rw [hkept]; exact hshort)
        (by rw [hkept]; exact hbegins) (by rw [hkept]; exact hrange.mpr hsmall)
      rw [hkept, hbmod] at hnumber
      rw [hkept] at hfound
      refine ⟨hfound hend, ?_⟩
      rw [hnumber]
      congr 1
      omega
  · constructor
    · refine fun h => ⟨fun hw => absurd hw hword, fun _ hshort => ⟨?_, ?_⟩⟩
      · intro htest
        have herror := (h.refused hword (g 0)).1
        rw [run_eq, if_neg (Nat.not_le_of_lt hshort), if_pos htest] at herror
        cases herror
      · rintro ⟨hbegins, hrange⟩
        -- one of two values is not the one that was stored
        have hzero := (h.refused hword (g 0)).2
        have hone := (h.refused hword (g 1)).2
        rw [(run_stored _ hshort hbegins hrange).1, hg] at hzero hone
        rw [hzero] at hone
        cases hone
    · refine fun h => ⟨fun hw => absurd hw hword, fun _ g => ?_⟩
      by_cases hshort : arg.ahead.length + (kept text).length < atcmdBufSize
      · obtain ⟨htest, hbad⟩ := h.2 hword hshort
        exact run_refused g hshort htest hbad
      · rw [run_eq, if_pos (Nat.le_of_not_lt hshort)]
        exact ⟨rfl, number_vars arg g⟩

/-- The port 40000 is turned down. -/
theorem not_parsedExactly :
    ¬ ∀ (arg : NumericArg) (text : ArgText), ParsedExactly arg text.1 := by
  intro h
  have hword : IsWord [52, 48, 48, 48, 48] := ⟨by decide, by decide +kernel, by decide +kernel⟩
  have hline : lf ∉ [52, 48, 48, 48, 48] := by decide +kernel
  have htaken := ((h .cipsend ⟨_, hline⟩).taken hword ⟨0, 0, [], [], 0⟩).1
  have hrefused : (NumericArg.cipsend.run ⟨0, 0, [], [], 0⟩ [52, 48, 48, 48, 48]).1 = .error := by
    decide +kernel
  rw [hrefused] at htaken
  cases htaken

end Cat
