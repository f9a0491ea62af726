import Mathlib.Algebra.GroupWithZero.Nat
import Mathlib.Data.List.Basic
import Mathlib.Logic.Function.Iterate
import Mathlib.Tactic.Common

/-!
# Matching the name of an AT command

While a name is typed, a cell of two bits for every command says whether the command may still
be meant.  The cells lie in the buffer of the parser, four in a byte; where there is no separate
buffer for unsolicited events, only its first half is set up for them.
-/

namespace CatMatch

/-- The fields of `cat_command` which the matching reads. -/
structure Command where
  name : List UInt8
  disable : Bool
  implicitWrite : Bool
deriving DecidableEq, Repr

/-- `cat_command_group` -/
structure Group where
  cmd : List Command
  disable : Bool
deriving DecidableEq, Repr

/-- `cat_descriptor`; `separate` says that there is a buffer for unsolicited events. -/
structure Descriptor where
  groups : List Group
  bufSize : Nat
  separate : Bool
deriving DecidableEq, Repr

inductive State
  | parseCommandChar
  | updateCommandState
  | searchCommand
  | commandFound
  | commandNotFound
  | error
deriving DecidableEq, Repr

/-- The fields of `cat_object` which the matching uses. -/
structure Matcher where
  buf : List UInt8
  index : Nat
  length : Nat
  currentChar : UInt8
  implicitWriteFlag : Bool
  state : State
  cmd : Option Nat
  partialCntr : Nat
deriving DecidableEq, Repr

def toUpper (ch : UInt8) : UInt8 := if 97 ≤ ch ∧ ch ≤ 122 then ch - 32 else ch

/-- `is_valid_cmd_name_char` -/
def isValidCmdNameChar (ch : UInt8) : Bool :=
  (65 ≤ ch && ch ≤ 90) || (48 ≤ ch && ch ≤ 57) || ch == 43 || ch == 35 || ch == 36 || ch == 64 ||
    ch == 95 || ch == 37 || ch == 38

namespace Descriptor

/-- `commands_num` -/
def commandsNum (d : Descriptor) : Nat := (d.groups.map fun group => group.cmd.length).sum

/-- `get_atcmd_buf_size` -/
def atcmdBufSize (d : Descriptor) : Nat := if d.separate then d.bufSize else d.bufSize >>> 1

end Descriptor

/-- The walk of `get_command_by_index` and of `is_command_disable`; `j` is the index of the first
command of the group. -/
def groupWalk (index : Nat) : Nat → List Group → Option (Bool × Command)
  | _, [] => none
  | j, group :: groups =>
      if index ≥ j + group.cmd.length then groupWalk index (j + group.cmd.length) groups
      else (group.cmd[index - j]?).map fun cmd => (group.disable || cmd.disable, cmd)

/-- `get_command_by_index` -/
def getCommandByIndex (d : Descriptor) (index : Nat) : Option Command :=
  (groupWalk index 0 d.groups).map Prod.snd

/-- `is_command_disable` -/
def isCommandDisable (d : Descriptor) (index : Nat) : Bool :=
  ((groupWalk index 0 d.groups).map Prod.fst).getD false

/-- The two bits of a command. -/
def cell (buf : List UInt8) (i : Nat) : UInt8 :=
  (buf.getD (i >>> 2) 0 >>> UInt8.ofNat ((i % 4) <<< 1)) &&& 0x03

/-- `get_cmd_state` -/
def getCmdState (d : Descriptor) (buf : List UInt8) (i : Nat) : UInt8 :=
  if isCommandDisable d i then 0 else cell buf i

/-- `set_cmd_state` -/
def setCmdState (buf : List UInt8) (i : Nat) (state : UInt8) : List UInt8 :=
  let k := UInt8.ofNat ((i % 4) <<< 1)
  buf.set (i >>> 2)
    ((buf.getD (i >>> 2) 0 &&& ~~~((0x03 : UInt8) <<< k)) ||| ((state &&& 0x03) <<< k))

/-- `prepare_parse_command`, which sets four cells in each byte to a partial match. -/
def prepareParseCommand (d : Descriptor) (s : Matcher) : Matcher :=
  { s with
    buf := List.replicate (min d.atcmdBufSize s.buf.length) 0x55 ++ s.buf.drop d.atcmdBufSize
    index := 0
    length := 0
    state := .parseCommandChar }

/-- `prepare_search_command` -/
def prepareSearchCommand (s : Matcher) : Matcher :=
  { s with index := 0, partialCntr := 0, cmd := none, state := .searchCommand }

/-- `parse_command` for a character that may belong to a name. -/
def parseCommand (s : Matcher) (ch : UInt8) : Matcher :=
  if isValidCmdNameChar (toUpper ch) then
    { s with
      currentChar := toUpper ch
      length := s.length + 1
      state := .updateCommandState }
  else { s with currentChar := toUpper ch, state := .error }

/-- The comparison in `update_command`: what becomes of a cell that is not `NOT_MATCH`, and
whether an implicit write begins. -/
def compare (cmd : Command) (length : Nat) (currentChar : UInt8) : Option (UInt8 × Bool) :=
  if length > cmd.name.length then some (0, false)
  else if toUpper (cmd.name.getD (length - 1) 0) ≠ currentChar then some (0, false)
  else if length = cmd.name.length then some (2, cmd.implicitWrite)
  else none

/-- The end of `update_command`, behind the comparison. -/
def advance (d : Descriptor) (s : Matcher) : Matcher :=
  if s.index + 1 ≥ d.commandsNum then
    if s.implicitWriteFlag = false then { s with index := 0, state := .parseCommandChar }
    else { prepareSearchCommand s with implicitWriteFlag := false }
  else { s with index := s.index + 1 }

/-- `update_command` -/
def updateCommand (d : Descriptor) (s : Matcher) : Matcher :=
  advance d (match getCommandByIndex d s.index with
    | none => s
    | some cmd =>
        if getCmdState d s.buf s.index ≠ 0 then
          match compare cmd s.length s.currentChar with
          | none => s
          | some (state, implicit) =>
              { s with
                buf := setCmdState s.buf s.index state
                implicitWriteFlag := s.implicitWriteFlag || implicit }
        else s)

/-- The state for a name that is not there. -/
def missing (s : Matcher) : State := if s.currentChar = 10 then .commandNotFound else .error

/-- The end of `search_command`, behind the look at a cell. -/
def advanceSearch (d : Descriptor) (s : Matcher) : Matcher :=
  let s := { s with index := s.index + 1 }
  if s.index ≥ d.commandsNum then
    if s.cmd = none then { s with state := missing s }
    else { s with state := if s.partialCntr = 1 then .commandFound else .commandNotFound }
  else s

/-- `search_command` -/
def searchCommand (d : Descriptor) (s : Matcher) : Matcher :=
  if getCmdState d s.buf s.index = 1 then
    if s.cmd ≠ none ∧ s.index + 1 = d.commandsNum then { s with state := missing s }
    else advanceSearch d { s with cmd := some s.index, partialCntr := s.partialCntr + 1 }
  else if getCmdState d s.buf s.index = 2 then
    { s with cmd := some s.index, state := .commandFound }
  else advanceSearch d s

/-- One call of the service in the states of the matching. -/
def service (d : Descriptor) (s : Matcher) : Matcher :=
  match s.state with
  | .updateCommandState => updateCommand d s
  | .searchCommand => searchCommand d s
  | _ => s

/-- A name is typed: after each character every command is compared.  An implicit write ends the
name. -/
def typeName (d : Descriptor) (s : Matcher) : List UInt8 → Matcher
  | [] => s
  | ch :: chars =>
      let s := (service d)^[d.commandsNum] (parseCommand s ch)
      if s.state = .parseCommandChar then typeName d s chars else s

/-- The matcher behind `AT`, with whatever is in the buffer. -/
def start (buf : List UInt8) : Matcher where
  buf := buf
  index := 0
  length := 0
  currentChar := 84
  implicitWriteFlag := false
  state := .parseCommandChar
  cmd := none
  partialCntr := 0

/-- The name and the character that ends it. -/
def lookup (d : Descriptor) (buf chars : List UInt8) (last : UInt8) : Matcher :=
  let s := typeName d (prepareParseCommand d (start buf)) chars
  let s := if s.state = .parseCommandChar then prepareSearchCommand { s with currentChar := last }
    else s
  (service d)^[d.commandsNum] s

/-- The command that was found. -/
def Matcher.chosen (s : Matcher) : Option Nat := if s.state = .commandFound then s.cmd else none

/-! ## Cells -/

/-- The byte after the bits at `k` are written. -/
def written (s state k : UInt8) : UInt8 :=
  (s &&& ~~~((0x03 : UInt8) <<< k)) ||| ((state &&& 0x03) <<< k)

/-- Two bits of a byte. -/
def bitsAt (s k : UInt8) : UInt8 := (s >>> k) &&& 0x03

theorem cell_eq (buf : List UInt8) (i : Nat) :
    cell buf i = bitsAt (buf.getD (i >>> 2) 0) (.ofNat ((i % 4) <<< 1)) := rfl

/-- Written bits are read back, the others stay. -/
theorem bitsAt_written : ∀ a b : Fin 4, ∀ s : Fin 256, ∀ full : Bool,
    bitsAt (written (.ofNat s.val) (if full then 2 else 0) (.ofNat (a.val <<< 1)))
        (.ofNat (b.val <<< 1)) =
      if a = b then (if full then 2 else 0)
      else bitsAt (.ofNat s.val) (.ofNat (b.val <<< 1)) := by
  decide +kernel

/-- Set up, every cell of a byte is a partial match. -/
theorem bitsAt_partial : ∀ a : Fin 4, bitsAt 0x55 (.ofNat (a.val <<< 1)) = 1 := by decide

@[simp] theorem length_setCmdState (buf : List UInt8) (i : Nat) (state : UInt8) :
    (setCmdState buf i state).length = buf.length := List.length_set

/-- A cell that is written, and its neighbours. -/
theorem cell_setCmdState {buf : List UInt8} {i : Nat} (h : i >>> 2 < buf.length) (full : Bool)
    (j : Nat) :
    cell (setCmdState buf i (if full then 2 else 0)) j =
      if i = j then (if full then 2 else 0) else cell buf j := by
  have hcell : ∀ byte : UInt8, ∀ i j : Nat,
      bitsAt (written byte (if full then 2 else 0) (.ofNat ((i % 4) <<< 1)))
          (.ofNat ((j % 4) <<< 1)) =
        if i % 4 = j % 4 then (if full then 2 else 0) else bitsAt byte (.ofNat ((j % 4) <<< 1)) := by
    intro byte i j
    have hbits := bitsAt_written ⟨i % 4, Nat.mod_lt _ (by decide)⟩ ⟨j % 4, Nat.mod_lt _ (by decide)⟩
      ⟨byte.toNat, byte.toNat_lt⟩ full
    simpa [Fin.ext_iff] using hbits
  have hindex : i = j ↔ i >>> 2 = j >>> 2 ∧ i % 4 = j % 4 := by
    rw [Nat.shiftRight_eq_div_pow, Nat.shiftRight_eq_div_pow]
    omega
  change bitsAt ((setCmdState buf i (if full then 2 else 0)).getD (j >>> 2) 0)
    (.ofNat ((j % 4) <<< 1)) = if i = j then _ else bitsAt (buf.getD (j >>> 2) 0) _
  by_cases hbyte : i >>> 2 = j >>> 2
  · have hset : (setCmdState buf i (if full then 2 else 0)).getD (j >>> 2) 0
        = written (buf.getD (j >>> 2) 0) (if full then 2 else 0) (.ofNat ((i % 4) <<< 1)) := by
      rw [← hbyte]
      unfold setCmdState
      rw [List.getD_eq_getElem?_getD, List.getElem?_set_self h]
      rfl
    rw [hset, hcell]
    simp only [hindex, hbyte, true_and]
  · have hset : (setCmdState buf i (if full then 2 else 0)).getD (j >>> 2) 0
        = buf.getD (j >>> 2) 0 := by
      unfold setCmdState
      rw [List.getD_eq_getElem?_getD, List.getElem?_set_ne hbyte, ← List.getD_eq_getElem?_getD]
    rw [hset, if_neg fun h => hbyte (hindex.mp h).1]

/-! ## The table -/

/-- All commands in order, with whether they are disabled. -/
def entries (groups : List Group) : List (Bool × Command) :=
  groups.flatMap fun group => group.cmd.map fun cmd => (group.disable || cmd.disable, cmd)

theorem groupWalk_eq {index j : Nat} {groups : List Group} (h : j ≤ index) :
    groupWalk index j groups = (entries groups)[index - j]? := by
  induction groups generalizing j with
  | nil => rfl
  | cons group groups ih =>
    have hentries : entries (group :: groups)
        = group.cmd.map (fun cmd => (group.disable || cmd.disable, cmd)) ++ entries groups := rfl
    unfold groupWalk
    rw [hentries]
    split
    · next hbehind =>
      rw [ih hbehind, List.getElem?_append_right (by rw [List.length_map]; omega),
        List.length_map, Nat.sub_sub]
    · rw [List.getElem?_append_left (by rw [List.length_map]; omega), List.getElem?_map]

theorem commandsNum_eq (d : Descriptor) : d.commandsNum = (entries d.groups).length := by
  unfold Descriptor.commandsNum entries
  induction d.groups with
  | nil => rfl
  | cons group groups ih =>
    rw [List.map_cons, List.sum_cons, ih, List.flatMap_cons, List.length_append, List.length_map]

/-! ## One character -/

section Pass

variable {d : Descriptor} {s : Matcher} {e : Bool × Command}

/-- The cell of an entry, as `get_cmd_state` reads it. -/
def stateOf (e : Bool × Command) (v : UInt8) : UInt8 := if e.1 then 0 else v

/-- The cell of an entry after a character. -/
def newCell (e : Bool × Command) (length : Nat) (ch v : UInt8) : UInt8 :=
  if stateOf e v ≠ 0 then ((compare e.2 length ch).map Prod.fst).getD v else v

/-- An implicit write begins. -/
def fires (e : Bool × Command) (length : Nat) (ch v : UInt8) : Bool :=
  stateOf e v ≠ 0 && ((compare e.2 length ch).map Prod.snd).getD false

/-- The matcher after the comparison with one command. -/
def compared (e : Bool × Command) (s : Matcher) : Matcher :=
  if stateOf e (cell s.buf s.index) ≠ 0 then
    match compare e.2 s.length s.currentChar with
    | none => s
    | some (state, implicit) =>
        { s with
          buf := setCmdState s.buf s.index state
          implicitWriteFlag := s.implicitWriteFlag || implicit }
  else s

theorem getCmdState_eq {i : Nat} (h : (entries d.groups)[i]? = some e) (buf : List UInt8) :
    getCmdState d buf i = stateOf e (cell buf i) := by
  unfold getCmdState isCommandDisable
  rw [groupWalk_eq (Nat.zero_le i), Nat.sub_zero, h]
  rfl

/-- The comparison with the next command, and the step to the one behind it. -/
theorem updateCommand_eq (h : (entries d.groups)[s.index]? = some e) :
    updateCommand d s = advance d (compared e s) := by
  have hcmd : getCommandByIndex d s.index = some e.2 := by
    unfold getCommandByIndex
    rw [groupWalk_eq (Nat.zero_le _), Nat.sub_zero, h]
    rfl
  unfold updateCommand
  rw [hcmd]
  dsimp only
  rw [getCmdState_eq h]
  rfl

theorem compare_state {cmd : Command} {length : Nat} {ch state : UInt8} {implicit : Bool}
    (h : compare cmd length ch = some (state, implicit)) :
    ∃ full : Bool, state = if full then 2 else 0 := by
  unfold compare at h
  split at h
  · cases h
    exact ⟨false, rfl⟩
  · split at h
    · cases h
      exact ⟨false, rfl⟩
    · split at h
      · cases h
        exact ⟨true, rfl⟩
      · cases h

/-- What the comparison changes. -/
theorem compared_spec (e : Bool × Command) (h : s.index >>> 2 < s.buf.length) :
    (compared e s).buf.length = s.buf.length ∧
      (∀ j, cell (compared e s).buf j =
        if s.index = j then newCell e s.length s.currentChar (cell s.buf j) else cell s.buf j) ∧
      (compared e s).implicitWriteFlag =
        (s.implicitWriteFlag || fires e s.length s.currentChar (cell s.buf s.index)) ∧
      compared e s = { s with
        buf := (compared e s).buf
        implicitWriteFlag := (compared e s).implicitWriteFlag } := by
  unfold compared newCell fires
  split
  · next hon =>
    cases hcompare : compare e.2 s.length s.currentChar with
    | none =>
      refine ⟨rfl, fun j => ?_, by simp, rfl⟩
      dsimp only [Option.map_none, Option.getD_none]
      rw [ite_self, ite_self]
    | some result =>
      obtain ⟨state, implicit⟩ := result
      obtain ⟨full, rfl⟩ := compare_state hcompare
      refine ⟨length_setCmdState .., fun j => ?_, by simp [hon], rfl⟩
      dsimp only [Option.map_some, Option.getD_some]
      rw [cell_setCmdState h]
      split
      · next heq => rw [← heq, if_pos hon]
      · rfl
  · next hoff =>
    refine ⟨rfl, fun j => ?_, by simp [hoff], rfl⟩
    split
    · next heq => rw [← heq, if_neg hoff]
    · rfl

/-- An implicit write begins before `k`. -/
def Fires (d : Descriptor) (s : Matcher) (k : Nat) : Prop :=
  ∃ j < k, ∃ e, (entries d.groups)[j]? = some e ∧
    fires e s.length s.currentChar (cell s.buf j) = true

/-- The commands before `k` were compared with the newest character of `s`. -/
structure Passed (d : Descriptor) (s : Matcher) (k : Nat) (s' : Matcher) : Prop where
  length : s'.buf.length = s.buf.length
  cells : ∀ j e, (entries d.groups)[j]? = some e → cell s'.buf j =
    if j < k then newCell e s.length s.currentChar (cell s.buf j) else cell s.buf j
  typed : s'.length = s.length ∧ s'.currentChar = s.currentChar
  fired : s'.implicitWriteFlag = true ↔ Fires d s k

theorem Passed.compared {k : Nat} {s' : Matcher} (h : Passed d s k s') (hat : s'.index = k)
    (hk : (entries d.groups)[k]? = some e) (hroom : k >>> 2 < s'.buf.length) :
    Passed d s (k + 1) (compared e s') := by
  obtain ⟨hlength, hcells, hflag, hrest⟩ := compared_spec e (hat ▸ hroom)
  have hsame : (CatMatch.compared e s').length = s'.length ∧
      (CatMatch.compared e s').currentChar = s'.currentChar := by
    rw [hrest]
    exact ⟨rfl, rfl⟩
  have hcell : cell s'.buf k = cell s.buf k := by
    rw [h.cells k e hk, if_neg (Nat.lt_irrefl k)]
  rw [hat, h.typed.1, h.typed.2] at hcells hflag
  rw [hcell] at hflag
  refine ⟨hlength.trans h.length, fun j f hj => ?_, ⟨hsame.1.trans h.typed.1,
    hsame.2.trans h.typed.2⟩, ?_⟩
  · rw [hcells]
    by_cases hjk : k = j
    · subst hjk
      rw [hk] at hj
      cases hj
      rw [if_pos rfl, if_pos (Nat.lt_succ_self k), hcell]
    · rw [if_neg hjk, h.cells j f hj]
      have hless : j < k + 1 ↔ j < k := by omega
      simp only [hless]
  · rw [hflag, Bool.or_eq_true, h.fired]
    constructor
    · intro hor
      rcases hor with ⟨j, hj, hfires⟩ | hfires
      · exact ⟨j, Nat.lt_succ_of_lt hj, hfires⟩
      · exact ⟨k, Nat.lt_succ_self k, e, hk, hfires⟩
    · intro hfire
      obtain ⟨j, hj, f, hf, hfires⟩ := hfire
      by_cases hjk : j = k
      · subst hjk
        rw [hk] at hf
        cases hf
        exact Or.inr hfires
      · exact Or.inl ⟨j, by omega, f, hf, hfires⟩

/-- Part of a pass: the comparison with the commands before `k`, and what `compared` does with
the next one. -/
theorem part_of_pass (hroom : d.commandsNum ≤ 4 * s.buf.length) (hindex : s.index = 0)
    (hstate : s.state = .updateCommandState) (hflag : s.implicitWriteFlag = false)
    {k : Nat} (hk : k < d.commandsNum) :
    ∃ s' e, (service d)^[k + 1] s = advance d s' ∧ (entries d.groups)[k]? = some e ∧
      Passed d s (k + 1) s' ∧ s'.index = k ∧ s'.state = .updateCommandState := by
  have hentry : ∀ k < d.commandsNum, ∃ e, (entries d.groups)[k]? = some e := fun k hk =>
    ⟨_, List.getElem?_eq_getElem (commandsNum_eq d ▸ hk)⟩
  have hbyte : ∀ k < d.commandsNum, k >>> 2 < s.buf.length := fun k hk => by
    rw [Nat.shiftRight_eq_div_pow]
    omega
  have hnext : ∀ k e (s' : Matcher), (entries d.groups)[k]? = some e → Passed d s k s' →
      s'.index = k → s'.state = .updateCommandState → k < d.commandsNum →
      service d s' = advance d (compared e s') ∧ Passed d s (k + 1) (compared e s') ∧
        (compared e s').index = k ∧ (compared e s').state = .updateCommandState := by
    intro k e s' he hpassed hat hupdate hless
    have hspec := (compared_spec e (hat ▸ hpassed.length ▸ hbyte k hless)).2.2.2
    refine ⟨?_, hpassed.compared hat he (hpassed.length ▸ hbyte k hless), ?_, ?_⟩
    · unfold service
      rw [hupdate]
      exact updateCommand_eq (hat.symm ▸ he)
    · rw [hspec]
      exact hat
    · rw [hspec]
      exact hupdate
  induction k with
  | zero =>
    obtain ⟨e, he⟩ := hentry 0 hk
    have hnone : Passed d s 0 s := by
      refine ⟨rfl, fun j e _ => (if_neg (Nat.not_lt_zero j)).symm, ⟨rfl, rfl⟩, ?_⟩
      rw [hflag]
      refine ⟨fun h => absurd h Bool.false_ne_true, fun hfires => ?_⟩
      obtain ⟨j, hj, -⟩ := hfires
      exact absurd hj (Nat.not_lt_zero j)
    obtain ⟨hservice, hrest⟩ := hnext 0 e s he hnone hindex hstate hk
    exact ⟨compared e s, e, hservice, he, hrest⟩
  | succ k ih =>
    obtain ⟨s', -, hs', -, hpassed, hat, hupdate⟩ := ih (Nat.lt_of_succ_lt hk)
    obtain ⟨e, he⟩ := hentry (k + 1) hk
    have hmore : advance d s' = { s' with index := k + 1 } := by
      unfold advance
      rw [hat, if_neg (Nat.not_le_of_lt hk)]
    have hlater : Passed d s (k + 1) { s' with index := k + 1 } :=
      ⟨hpassed.length, hpassed.cells, hpassed.typed, hpassed.fired⟩
    obtain ⟨hservice, hrest⟩ := hnext (k + 1) e { s' with index := k + 1 } he hlater rfl hupdate hk
    refine ⟨compared e { s' with index := k + 1 }, e, ?_, he, hrest⟩
    rw [Function.iterate_succ_apply', hs', hmore]
    exact hservice

/-- **A pass** over all commands. -/
theorem pass (hroom : d.commandsNum ≤ 4 * s.buf.length) (hnum : 0 < d.commandsNum)
    (hindex : s.index = 0) (hstate : s.state = .updateCommandState)
    (hflag : s.implicitWriteFlag = false) :
    ∃ s', (service d)^[d.commandsNum] s = s' ∧ s'.buf.length = s.buf.length ∧
      (∀ j e, (entries d.groups)[j]? = some e →
        cell s'.buf j = newCell e s.length s.currentChar (cell s.buf j)) ∧
      s'.length = s.length ∧ s'.currentChar = s.currentChar ∧ s'.index = 0 ∧
      s'.implicitWriteFlag = false ∧
      (¬Fires d s d.commandsNum → s'.state = .parseCommandChar) ∧
      (Fires d s d.commandsNum →
        s'.state = .searchCommand ∧ s'.cmd = none ∧ s'.partialCntr = 0) := by
  obtain ⟨last, hlast⟩ : ∃ last, d.commandsNum = last + 1 := ⟨d.commandsNum - 1, by omega⟩
  obtain ⟨s', -, hs', -, hpassed, hat, -⟩ :=
    @part_of_pass d s hroom hindex hstate hflag last (by omega)
  have hcells : ∀ j e, (entries d.groups)[j]? = some e →
      cell s'.buf j = newCell e s.length s.currentChar (cell s.buf j) := by
    intro j e hj
    have hless := (List.getElem?_eq_some_iff.mp hj).1
    rw [← commandsNum_eq, hlast] at hless
    rw [hpassed.cells j e hj, if_pos hless]
  rw [hlast, hs']
  have hfired := hpassed.fired
  unfold advance
  rw [hat, if_pos (Nat.le_of_eq hlast)]
  split
  · next hoff =>
    rw [hoff] at hfired
    refine ⟨_, rfl, hpassed.length, hcells, hpassed.typed.1, hpassed.typed.2, rfl, hoff,
      fun _ => rfl, fun hfires => ?_⟩
    exact absurd (hfired.mpr hfires) Bool.false_ne_true
  · next hon =>
    rw [Bool.not_eq_false] at hon
    exact ⟨_, rfl, hpassed.length, hcells, hpassed.typed.1, hpassed.typed.2, rfl, rfl,
      fun hfires => absurd (hfired.mp hon) hfires, fun _ => ⟨rfl, rfl, rfl⟩⟩

end Pass

end CatMatch
