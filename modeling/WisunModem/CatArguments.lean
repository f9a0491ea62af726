import Mathlib.Algebra.Group.Int.Defs
import Mathlib.Data.List.Basic
import Mathlib.Tactic.Common

/-!
# The arguments of an AT command

A write command is collected up to the line feed in the first half of the buffer,
and its arguments are parsed one after the other into the variables of the
command.  The buffer is closed by a zero behind the last character, which is where
a list of characters ends here.

A decimal argument is added up in 64 bits, whatever the number of its digits, and
its range is checked afterwards against the signed type of the variable's size,
whether or not the variable is signed.
-/

namespace Cat

/-- Carriage return and line feed. -/
def cr : UInt8 := 13
def lf : UInt8 := 10

/-- The types of variables the commands of the modem use. -/
inductive CatVarType
  | intDec
  | bufString
deriving DecidableEq, Repr

/-- A `cat_variable` that may be read and written, with the bytes at its `data`. -/
structure CatVariable where
  type : CatVarType
  dataSize : Nat
  data : List UInt8
deriving DecidableEq, Repr

/-- What a line is answered with; `found` is the start of the command's handler and `test`
the description of the variables. -/
inductive Reply
  | error
  | test
  | found
deriving DecidableEq, Repr

/-- `is_valid_dec_char`. -/
def isValidDecChar (ch : UInt8) : Bool := 48 ≤ ch && ch ≤ 57

/-- An argument was read: its value, whether a comma follows, and the characters behind. -/
structure Parsed (α : Type) where
  value : α
  comma : Bool
  rest : List UInt8
deriving DecidableEq, Repr

/-- The loop of `parse_int_decimal`; the addition and the product wrap in 64 bits. -/
def parseIntDecimal (val sign : Int64) (ok : Bool) : List UInt8 → Option (Parsed Int64)
  | [] => if ok then some ⟨val * sign, false, []⟩ else none
  | ch :: rest =>
    if ok && (ch == 0 || ch == 44) then some ⟨val * sign, ch == 44, rest⟩
    else if sign == 0 then
      if ch == 45 then parseIntDecimal val (-1) ok rest
      else if ch == 43 then parseIntDecimal val 1 ok rest
      else if isValidDecChar ch then parseIntDecimal (.ofInt (ch.toNat - 48)) 1 true rest
      else none
    else if isValidDecChar ch then parseIntDecimal (val * 10 + .ofInt (ch.toNat - 48)) sign true rest
    else none

/-- The states of `parse_buffer_string`. -/
inductive StringState
  | opening
  | inside
  | escaped
  | closed
deriving DecidableEq, Repr

/-- The loop of `parse_buffer_string` with the bytes `data` of a variable of `dataSize`, of
which `size` are written.  The bytes are also returned when the parsing fails. -/
def parseBufferString (dataSize : Nat) :
    StringState → Nat → List UInt8 → List UInt8 → Option (Parsed Unit) × List UInt8
  | .closed, size, data, [] =>
    if size ≥ dataSize then (none, data) else (some ⟨(), false, []⟩, data.set size 0)
  | _, _, data, [] => (none, data)
  | .opening, size, data, ch :: rest =>
    if ch ≠ 34 then (none, data) else parseBufferString dataSize .inside size data rest
  | .inside, size, data, ch :: rest =>
    if ch = 0 then (none, data)
    else if ch = 92 then parseBufferString dataSize .escaped size data rest
    else if ch = 34 then parseBufferString dataSize .closed size data rest
    else if size ≥ dataSize then (none, data)
    else parseBufferString dataSize .inside (size + 1) (data.set size ch) rest
  | .escaped, size, data, ch :: rest =>
    if ch = 92 ∨ ch = 34 ∨ ch = 110 then
      if size ≥ dataSize then (none, data)
      else parseBufferString dataSize .inside (size + 1)
        (data.set size (if ch = 110 then lf else ch)) rest
    else (none, data)
  | .closed, size, data, ch :: rest =>
    if ch = 0 ∨ ch = 44 then
      if size ≥ dataSize then (none, data) else (some ⟨(), ch = 44, rest⟩, data.set size 0)
    else (none, data)

/-- The bytes of an integer of `size` bytes, the lowest first. -/
def storeInt : Nat → Int → List UInt8
  | 0, _ => []
  | size + 1, val => .ofNat (val % 256).toNat :: storeInt size (val / 256)

/-- `validate_int_range`, and the assignment in it. -/
def validateIntRange (var : CatVariable) (val : Int64) : Option CatVariable :=
  match var.dataSize with
  | 1 => if val.toInt < -2 ^ 7 ∨ 2 ^ 7 - 1 < val.toInt then none
    else some { var with data := storeInt 1 val.toInt }
  | 2 => if val.toInt < -2 ^ 15 ∨ 2 ^ 15 - 1 < val.toInt then none
    else some { var with data := storeInt 2 val.toInt }
  | 4 => if val.toInt < -2 ^ 31 ∨ 2 ^ 31 - 1 < val.toInt then none
    else some { var with data := storeInt 4 val.toInt }
  | _ => none

/-- One argument into its variable: the comma behind it and the characters that are left, if
it was taken, and the variable. -/
def parseWriteArg (var : CatVariable) (text : List UInt8) : Option (Parsed Unit) × CatVariable :=
  match var.type with
  | .intDec =>
    match parseIntDecimal 0 0 false text with
    | none => (none, var)
    | some arg =>
      match validateIntRange var arg.value with
      | none => (none, var)
      | some var => (some ⟨(), arg.comma, arg.rest⟩, var)
  | .bufString =>
    let (arg, data) := parseBufferString var.dataSize .opening 0 var.data text
    (arg, { var with data })

/-- `parse_write_args` from a variable on. -/
def parseWriteArgs (needAllVars : Bool) : List CatVariable → List UInt8 → Reply × List CatVariable
  | [], _ => (.error, [])
  | var :: vars, text =>
    match parseWriteArg var text with
    | (none, var) => (.error, var :: vars)
    | (some arg, var) =>
      if vars ≠ [] ∧ arg.comma then
        let (reply, vars) := parseWriteArgs needAllVars vars arg.rest
        (reply, var :: vars)
      else if arg.comma then (.error, var :: vars)
      else if needAllVars ∧ vars ≠ [] then (.error, var :: vars)
      else (.found, var :: vars)

/-- The part of `cat_state` in which the arguments arrive, with the characters in the buffer. -/
inductive ArgState
  | parseCommandArgs (buf : List UInt8)
  | waitTestAcknowledge
  | error
deriving DecidableEq, Repr

/-- The half of `at_buf` that holds the command. -/
def atcmdBufSize : Nat := 64

/-- A character other than the line feed. -/
def ArgState.read : ArgState → UInt8 → ArgState
  | parseCommandArgs buf, ch =>
    if ch = cr then parseCommandArgs buf
    else if buf = [] ∧ ch = 63 then waitTestAcknowledge
    else if buf.length ≥ atcmdBufSize then error
    else if buf.length + 1 < atcmdBufSize then parseCommandArgs (buf ++ [ch])
    else error
  | waitTestAcknowledge, ch => if ch = cr then waitTestAcknowledge else error
  | error, _ => error

/-- The line feed. -/
def ArgState.finish (needAllVars : Bool) (vars : List CatVariable) :
    ArgState → Reply × List CatVariable
  | parseCommandArgs buf => parseWriteArgs needAllVars vars buf
  | waitTestAcknowledge => (.test, vars)
  | error => (.error, vars)

/-- A write command from the equals sign to the line feed behind `line`. -/
def writeCommand (needAllVars : Bool) (vars : List CatVariable) (line : List UInt8) :
    Reply × List CatVariable :=
  (line.foldl ArgState.read (.parseCommandArgs [])).finish needAllVars vars

end Cat
