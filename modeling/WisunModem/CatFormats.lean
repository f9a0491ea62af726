import WisunModem.CatNumbers

/-!
# The text of variables

What a read command prints for the variables of a command, and what a write command parses.  The
text is printed into the buffer of the parser behind the name of the command; a write command
collects its arguments in the same buffer.
-/

namespace CatText

open Cat (Parsed Reply)

/-- `cat_var_type` -/
inductive VarType
  | intDec
  | uintDec
  | numHex
  | bufHex
  | bufString
deriving DecidableEq, Repr

/-- A `cat_variable` that may be read and written, with the bytes at its `data`. -/
structure Variable where
  type : VarType
  dataSize : Nat
  data : List UInt8
deriving DecidableEq, Repr

/-! ## Printing -/

/-- `print_nstring_to_buf`, and `print_format_num` with the text that it prints: the terminating
zero needs room as well. -/
def print (size : Nat) (buf text : List UInt8) : Option (List UInt8) :=
  if text.length ≥ size - buf.length then none else some (buf ++ text)

/-- The number in little-endian bytes. -/
def unsigned : List UInt8 → Nat
  | [] => 0
  | byte :: bytes => byte.toNat + 256 * unsigned bytes

/-- The number in little-endian bytes, with its sign. -/
def signed (bytes : List UInt8) : Int := (unsigned bytes : Int).bmod (256 ^ bytes.length)

/-- The digits of `%u`. -/
def decimal (n : Nat) : List UInt8 :=
  if n < 10 then [.ofNat (48 + n)] else decimal (n / 10) ++ [.ofNat (48 + n % 10)]
termination_by n

/-- The text of `%d`. -/
def signedDecimal (n : Int) : List UInt8 :=
  if n < 0 then 45 :: decimal n.natAbs else decimal n.natAbs

def hexChar (n : Nat) : UInt8 := if n < 10 then .ofNat (48 + n) else .ofNat (55 + n)

/-- The digits of `%02X` and the like, for numbers that have no more digits than the width. -/
def hex : Nat → Nat → List UInt8
  | 0, _ => []
  | width + 1, n => hex width (n / 16) ++ [hexChar (n % 16)]

/-- The sizes that a number can have. -/
def isNumSize (size : Nat) : Bool := size == 1 || size == 2 || size == 4

/-- `format_int_decimal` -/
def formatIntDecimal (var : Variable) : Option (List (List UInt8)) :=
  if isNumSize var.dataSize then some [signedDecimal (signed var.data)] else none

/-- `format_uint_decimal` -/
def formatUintDecimal (var : Variable) : Option (List (List UInt8)) :=
  if isNumSize var.dataSize then some [decimal (unsigned var.data)] else none

/-- `format_num_hexadecimal` -/
def formatNumHexadecimal (var : Variable) : Option (List (List UInt8)) :=
  if isNumSize var.dataSize then
    some [48 :: 120 :: hex (2 * var.dataSize) (unsigned var.data)]
  else none

/-- `format_buffer_hexadecimal` -/
def formatBufferHexadecimal (var : Variable) : Option (List (List UInt8)) :=
  some (var.data.map fun val => hex 2 val.toNat)

/-- `format_buffer_string` -/
def formatBufferString (var : Variable) : Option (List (List UInt8)) :=
  some ([34] :: (var.data.takeWhile (· ≠ 0)).map Cat.escape ++ [[34]])

/-- What is printed for a variable, one piece after the other. -/
def pieces (var : Variable) : Option (List (List UInt8)) :=
  match var.type with
  | .intDec => formatIntDecimal var
  | .uintDec => formatUintDecimal var
  | .numHex => formatNumHexadecimal var
  | .bufHex => formatBufferHexadecimal var
  | .bufString => formatBufferString var

/-- `format_read_args` for a variable. -/
def formatVar (size : Nat) (buf : List UInt8) (var : Variable) : Option (List UInt8) :=
  (pieces var).bind fun texts => texts.foldlM (print size) buf

/-- `format_read_args` and `next_format_var_by_fsm`, which puts a comma in the last byte as well. -/
def formatReadArgs (size : Nat) : List UInt8 → List Variable → Option (List UInt8)
  | _, [] => none
  | buf, [var] => formatVar size buf var
  | buf, var :: vars =>
      (formatVar size buf var).bind fun buf =>
        if buf.length ≥ size then none else formatReadArgs size (buf ++ [44]) vars

/-! ## Parsing -/

/-- The loop of `parse_uint_decimal`. -/
def parseUintDecimal (val : UInt64) (ok : Bool) : List UInt8 → Option (Parsed UInt64)
  | [] => if ok then some ⟨val, false, []⟩ else none
  | ch :: rest =>
      if ok && (ch == 0 || ch == 44) then some ⟨val, ch == 44, rest⟩
      else if Cat.isValidDecChar ch then
        parseUintDecimal (val * 10 + (ch.toUInt64 - 48)) true rest
      else none

/-- `is_valid_hex_char` -/
def isValidHexChar (ch : UInt8) : Bool := (48 ≤ ch && ch ≤ 57) || (65 ≤ ch && ch ≤ 70)

/-- `convert_hex_char_to_value` -/
def convertHexCharToValue (ch : UInt8) : UInt8 := if 48 ≤ ch ∧ ch ≤ 57 then ch - 48 else ch - 55

def toUpper (ch : UInt8) : UInt8 := if 97 ≤ ch ∧ ch ≤ 122 then ch - 32 else ch

/-- The loop of `parse_num_hexadecimal`; with `state` 3 there is a digit. -/
def parseNumHexadecimal (val : UInt64) (state : Nat) : List UInt8 → Option (Parsed UInt64)
  | [] => if state ≥ 3 then some ⟨val, false, []⟩ else none
  | ch :: rest =>
      let ch := toUpper ch
      if state ≥ 3 ∧ (ch = 0 ∨ ch = 44) then some ⟨val, ch == 44, rest⟩
      else if state = 0 then if ch ≠ 48 then none else parseNumHexadecimal val 1 rest
      else if state = 1 then if ch ≠ 88 then none else parseNumHexadecimal val 2 rest
      else if isValidHexChar ch then
        parseNumHexadecimal (val <<< 4 + (convertHexCharToValue ch).toUInt64) 3 rest
      else none

/-- The loop of `parse_buffer_hexadecimal`; `half` says that half of a byte is there. -/
def parseBufferHexadecimal (dataSize : Nat) :
    UInt8 → Bool → Nat → List UInt8 → List UInt8 → Option (Parsed Unit) × List UInt8
  | _, half, size, data, [] =>
      if size > 0 ∧ !half then (some ⟨(), false, []⟩, data) else (none, data)
  | byte, half, size, data, ch :: rest =>
      let ch := toUpper ch
      if size > 0 ∧ !half ∧ (ch = 0 ∨ ch = 44) then (some ⟨(), ch == 44, rest⟩, data)
      else if !isValidHexChar ch then (none, data)
      else
        let byte := byte <<< 4 + convertHexCharToValue ch
        if half then
          if size ≥ dataSize then (none, data)
          else parseBufferHexadecimal dataSize 0 false (size + 1) (data.set size byte) rest
        else parseBufferHexadecimal dataSize byte true size data rest

/-- `validate_int_range`, and the assignment in it. -/
def validateIntRange (var : Variable) (val : Int64) : Option Variable :=
  if isNumSize var.dataSize then
    if val.toInt < -2 ^ (8 * var.dataSize - 1) ∨ 2 ^ (8 * var.dataSize - 1) - 1 < val.toInt then none
    else some { var with data := Cat.storeInt var.dataSize val.toInt }
  else none

/-- `validate_uint_range`, and the assignment in it. -/
def validateUintRange (var : Variable) (val : UInt64) : Option Variable :=
  if isNumSize var.dataSize then
    if val.toNat > 2 ^ (8 * var.dataSize) - 1 then none
    else some { var with data := Cat.storeInt var.dataSize val.toNat }
  else none

/-- One argument into its variable: the comma behind it and the characters that are left, if it
was taken, and the variable. -/
def parseWriteArg (var : Variable) (text : List UInt8) : Option (Parsed Unit) × Variable :=
  match var.type with
  | .intDec =>
      match Cat.parseIntDecimal 0 0 false text with
      | none => (none, var)
      | some arg =>
        match validateIntRange var arg.value with
        | none => (none, var)
        | some var => (some ⟨(), arg.comma, arg.rest⟩, var)
  | .uintDec =>
      match parseUintDecimal 0 false text with
      | none => (none, var)
      | some arg =>
        match validateUintRange var arg.value with
        | none => (none, var)
        | some var => (some ⟨(), arg.comma, arg.rest⟩, var)
  | .numHex =>
      match parseNumHexadecimal 0 0 text with
      | none => (none, var)
      | some arg =>
        match validateUintRange var arg.value with
        | none => (none, var)
        | some var => (some ⟨(), arg.comma, arg.rest⟩, var)
  | .bufHex =>
      let (arg, data) := parseBufferHexadecimal var.dataSize 0 false 0 var.data text
      (arg, { var with data })
  | .bufString =>
      let (arg, data) := Cat.parseBufferString var.dataSize .opening 0 var.data text
      (arg, { var with data })

/-- `parse_write_args` from a variable on. -/
def parseWriteArgs (needAllVars : Bool) : List Variable → List UInt8 → Reply × List Variable
  | [], _ => (.error, [])
  | var :: vars, text =>
      match parseWriteArg var text with
      | (none, var) => (.error, var :: vars)
      | (some arg, var) =>
        if vars ≠ [] ∧ arg.comma then
          let (reply, vars) := parseWriteArgs needAllVars vars arg.rest
          (reply, var :: vars)
        else if arg.comma then (.error, var :: vars)
        else if needAllVars ∧ vars ≠ [] then (.error, var :: vars)
        else (.found, var :: vars)

/-- `parse_command_args` up to the line feed: the characters in the buffer, if the line is not
turned down and is not the test of the command. -/
def parseCommandArgs (size : Nat) (implicitWrite : Bool) (buf : List UInt8) :
    List UInt8 → Option (List UInt8)
  | [] => none
  | ch :: line =>
      if ch = 10 then some buf
      else if ch = 13 then parseCommandArgs size implicitWrite buf line
      else if buf = [] ∧ ch = 63 ∧ !implicitWrite then none
      else if buf.length ≥ size then none
      else if buf.length + 1 < size then parseCommandArgs size implicitWrite (buf ++ [ch]) line
      else none

/-- A write command from the equals sign on. -/
def writeCommand (size : Nat) (implicitWrite needAllVars : Bool) (vars : List Variable)
    (line : List UInt8) : Reply × List Variable :=
  match parseCommandArgs size implicitWrite [] line with
  | none => (.error, vars)
  | some buf => parseWriteArgs needAllVars vars buf

end CatText
