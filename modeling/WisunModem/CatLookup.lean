import Mathlib.Data.Nat.Find
import WisunModem.CatMatcher

/-!
# Looking up the name of an AT command

The cells after a name was typed, and what the search makes of them, against the comparison of
the whole name with the whole table.
-/

namespace CatMatch

/-- A command for a name: the first that has it, or the only one that has it as a beginning. -/
def choose (num : Nat) (full part : Nat → Bool) : Option Nat :=
  match (List.range num).find? full with
  | some i => some i
  | none => match (List.range num).filter part with
    | [i] => some i
    | _ => none

section Direct

variable (d : Descriptor) (name : List UInt8)

/-- The name of a command in capital letters. -/
def Command.upper (cmd : Command) : List UInt8 := cmd.name.map toUpper

/-- An enabled command of this name. -/
def named (j : Nat) : Bool :=
  match (entries d.groups)[j]? with
  | some (false, cmd) => decide (name = cmd.upper)
  | _ => false

/-- An enabled command with a longer name which begins like this. -/
def begun (j : Nat) : Bool :=
  match (entries d.groups)[j]? with
  | some (false, cmd) => decide (name <+: cmd.upper ∧ name ≠ cmd.upper)
  | _ => false

/-- The comparison with the whole table. -/
def direct : Option Nat := choose d.commandsNum (named d name) (begun d name)

end Direct

variable {d : Descriptor} {s s' : Matcher} {num : Nat} {full part : Nat → Bool}

/-! ## The search -/

theorem choose_of_full {i : Nat} (hi : i < num) (hfull : full i = true)
    (hbefore : ∀ j < i, full j = false) : choose num full part = some i := by
  have hfind : (List.range num).find? full = some i := by
    refine List.find?_range_eq_some.mpr ⟨hfull, List.mem_range.mpr hi, fun j hj => ?_⟩
    rw [hbefore j hj]
    rfl
  unfold choose
  rw [hfind]

theorem choose_of_none (h : ∀ j < num, full j = false) :
    choose num full part = match (List.range num).filter part with
      | [i] => some i
      | _ => none := by
  have hfind : (List.range num).find? full = none := by
    refine List.find?_eq_none.mpr fun j hj => ?_
    rw [h j (List.mem_range.mp hj)]
    exact Bool.false_ne_true
  unfold choose
  rw [hfind]

/-- The partial matches among the first `k` commands. -/
def parts (d : Descriptor) (s : Matcher) (k : Nat) : List Nat :=
  (List.range k).filter fun j => getCmdState d s.buf j = 1

theorem parts_succ (d : Descriptor) (s : Matcher) (k : Nat) :
    parts d s (k + 1) = parts d s k ++ if getCmdState d s.buf k = 1 then [k] else [] := by
  unfold parts
  rw [List.range_succ, List.filter_append]
  by_cases hpart : getCmdState d s.buf k = 1 <;> simp [hpart]

/-- The first `k` commands were looked at, and none is a full match. -/
structure Searching (d : Descriptor) (s : Matcher) (k : Nat) (s' : Matcher) : Prop where
  buf : s'.buf = s.buf
  length : s'.length = s.length
  state : s'.state = .searchCommand
  index : s'.index = k
  none_full : ∀ j < k, getCmdState d s.buf j ≠ 2
  cmd : s'.cmd = (parts d s k).getLast?
  partialCntr : s'.partialCntr = (parts d s k).length

/-- The search is over. -/
structure Searched (d : Descriptor) (s s' : Matcher) : Prop where
  ended : s'.state ≠ .searchCommand ∧ s'.state ≠ .updateCommandState
  length : s'.length = s.length
  chosen : s'.chosen = choose d.commandsNum (fun j => getCmdState d s.buf j = 2)
    (fun j => getCmdState d s.buf j = 1)

/-- Nothing is chosen without a full match, unless there is a single partial match. -/
theorem choose_parts (h : ∀ j < d.commandsNum, getCmdState d s.buf j ≠ 2) :
    choose d.commandsNum (fun j => getCmdState d s.buf j = 2)
        (fun j => getCmdState d s.buf j = 1) =
      match parts d s d.commandsNum with
      | [i] => some i
      | _ => none :=
  choose_of_none fun j hj => decide_eq_false (h j hj)

theorem missing_over (s : Matcher) :
    missing s ≠ .searchCommand ∧ missing s ≠ .updateCommandState ∧ missing s ≠ .commandFound := by
  unfold missing
  split <;> decide

/-- The step to the next command, or to the end of the search. -/
theorem Searching.advance {k : Nat} (h : Searching d s (k + 1) { s' with index := k + 1 })
    (hat : s'.index = k) (hk : k < d.commandsNum) :
    k + 1 < d.commandsNum ∧ Searching d s (k + 1) (advanceSearch d s') ∨
      Searched d s (advanceSearch d s') := by
  unfold advanceSearch
  dsimp only
  rw [hat]
  split
  · next hlast =>
    right
    have hnum : d.commandsNum = k + 1 := Nat.le_antisymm hlast hk
    have hcmd : s'.cmd = (parts d s (k + 1)).getLast? := h.cmd
    have hcntr : s'.partialCntr = (parts d s (k + 1)).length := h.partialCntr
    have hchoose := choose_parts (hnum ▸ h.none_full)
    rw [hnum] at hchoose
    split
    · next hnone =>
      obtain ⟨hsearch, hupdate, hfound⟩ := missing_over { s' with index := k + 1 }
      refine ⟨⟨hsearch, hupdate⟩, h.length, ?_⟩
      have hempty : parts d s (k + 1) = [] :=
        List.getLast?_eq_none_iff.mp (hcmd.symm.trans hnone)
      rw [hnum, hchoose, hempty]
      exact if_neg hfound
    · next hsome =>
      refine ⟨?_, h.length, ?_⟩
      · dsimp only
        split <;> decide
      · rw [hnum, hchoose]
        unfold Matcher.chosen
        dsimp only
        match hparts : parts d s (k + 1) with
        | [] =>
          rw [hparts] at hcmd
          exact absurd hcmd hsome
        | [i] =>
          rw [hparts] at hcmd hcntr
          rw [if_pos (by rw [hcntr]; rfl)]
          exact hcmd
        | i :: j :: rest =>
          rw [hparts, List.length_cons, List.length_cons] at hcntr
          rw [if_neg]
          rw [if_neg (by omega)]
          decide
  · next hmore => exact Or.inl ⟨Nat.lt_of_not_le hmore, h⟩

/-- One look at a cell. -/
theorem Searching.service {k : Nat} (h : Searching d s k s') (hk : k < d.commandsNum) :
    k + 1 < d.commandsNum ∧ Searching d s (k + 1) (CatMatch.service d s') ∨
      Searched d s (CatMatch.service d s') := by
  have hservice : CatMatch.service d s' = searchCommand d s' := by
    unfold CatMatch.service
    rw [h.state]
  have hsucc := parts_succ d s k
  have hfull : getCmdState d s.buf k ≠ 2 → ∀ j < k + 1, getCmdState d s.buf j ≠ 2 := by
    intro hne j hj
    rcases Nat.lt_succ_iff_lt_or_eq.mp hj with hj | rfl
    · exact h.none_full j hj
    · exact hne
  rw [hservice]
  unfold searchCommand
  rw [h.buf, h.index]
  split
  · next hpart =>
    have hnot : getCmdState d s.buf k ≠ 2 := by rw [hpart]; decide
    rw [if_pos hpart] at hsucc
    split
    · next hlast =>
      right
      obtain ⟨hsearch, hupdate, hfound⟩ := missing_over s'
      refine ⟨⟨hsearch, hupdate⟩, h.length, ?_⟩
      rw [choose_parts (hlast.2 ▸ hfull hnot), ← hlast.2, hsucc]
      have hsome : parts d s k ≠ [] := fun hnone => hlast.1 (by rw [h.cmd, hnone]; rfl)
      match hparts : parts d s k with
      | [] => exact absurd hparts hsome
      | i :: rest =>
        have hlong : ∃ j tail, rest ++ [k] = j :: tail := by
          cases rest with
          | nil => exact ⟨k, [], rfl⟩
          | cons j tail => exact ⟨j, tail ++ [k], rfl⟩
        obtain ⟨j, tail, htail⟩ := hlong
        rw [List.cons_append, htail]
        exact if_neg hfound
    · refine Searching.advance ⟨rfl, h.length, h.state, rfl, hfull hnot, ?_, ?_⟩ rfl hk
      · rw [hsucc, List.getLast?_append]
        rfl
      · rw [hsucc, List.length_append]
        exact congrArg (· + 1) h.partialCntr
  · next hpart =>
    rw [if_neg hpart, List.append_nil] at hsucc
    split
    · next hhit =>
      refine Or.inr ⟨⟨nofun, nofun⟩, h.length, ?_⟩
      refine (choose_of_full hk (decide_eq_true hhit) fun j hj => ?_).symm
      exact decide_eq_false (h.none_full j hj)
    · next hnot =>
      refine Searching.advance ⟨h.buf, h.length, h.state, rfl, hfull hnot, ?_, ?_⟩ h.index hk
      · rw [hsucc]
        exact h.cmd
      · rw [hsucc]
        exact h.partialCntr

theorem Searched.service (h : Searched d s s') : Searched d s (CatMatch.service d s') := by
  have hidle : CatMatch.service d s' = s' := by
    unfold CatMatch.service
    split
    · next hstate => exact absurd hstate h.ended.2
    · next hstate => exact absurd hstate h.ended.1
    · rfl
  rw [hidle]
  exact h

/-- **The search** looks at every cell at most once. -/
theorem searched (hnum : 0 < d.commandsNum) (hstate : s.state = .searchCommand)
    (hindex : s.index = 0) (hcmd : s.cmd = none) (hcntr : s.partialCntr = 0) :
    Searched d s ((service d)^[d.commandsNum] s) := by
  have hcalls : ∀ k, k < d.commandsNum ∧ Searching d s k ((service d)^[k] s) ∨
      0 < k ∧ Searched d s ((service d)^[k] s) := by
    intro k
    induction k with
    | zero =>
      exact Or.inl ⟨hnum, rfl, rfl, hstate, hindex, fun j hj => absurd hj (Nat.not_lt_zero j),
        hcmd, hcntr⟩
    | succ k ih =>
      rw [Function.iterate_succ_apply']
      rcases ih with ⟨hk, hsearching⟩ | ⟨-, hsearched⟩
      · rcases hsearching.service hk with hmore | hdone
        · exact Or.inl hmore
        · exact Or.inr ⟨Nat.succ_pos k, hdone⟩
      · exact Or.inr ⟨Nat.succ_pos k, hsearched.service⟩
  rcases hcalls d.commandsNum with ⟨hless, -⟩ | ⟨-, hdone⟩
  · exact absurd hless (Nat.lt_irrefl _)
  · exact hdone

/-! ## The cells of a name -/

/-- The cell of an enabled command after a name was typed, from what was in it before. -/
def fate (cmd : Command) (name : List UInt8) (v : UInt8) : UInt8 :=
  if name = [] ∨ v = 0 then v
  else if name = cmd.upper then 2
  else if name <+: cmd.upper then v
  else 0

/-- One more character is the next of the command's name. -/
theorem concat_begins {name upper : List UInt8} {ch : UInt8} :
    name ++ [ch] <+: upper ↔ name <+: upper ∧ upper[name.length]? = some ch := by
  constructor
  · intro h
    obtain ⟨rest, rfl⟩ := h
    refine ⟨⟨ch :: rest, by simp⟩, ?_⟩
    rw [List.append_assoc, List.getElem?_append_right (Nat.le_refl _), Nat.sub_self]
    rfl
  · intro h
    obtain ⟨⟨rest, rfl⟩, hnext⟩ := h
    rw [List.getElem?_append_right (Nat.le_refl _), Nat.sub_self] at hnext
    cases rest with
    | nil => cases hnext
    | cons first rest =>
      cases hnext
      exact ⟨rest, by simp⟩

/-- The comparison with one character is that with the whole name. -/
theorem compare_eq {cmd : Command} {name : List UInt8} {ch : UInt8} (h : name <+: cmd.upper) :
    compare cmd (name.length + 1) ch =
      if name ++ [ch] = cmd.upper then some (2, cmd.implicitWrite)
      else if name ++ [ch] <+: cmd.upper then none
      else some (0, false) := by
  have hlength : cmd.upper.length = cmd.name.length := List.length_map ..
  unfold compare
  by_cases hlong : name.length + 1 > cmd.name.length
  · have hno : ¬name ++ [ch] <+: cmd.upper := fun hbegin => by
      have hle := hbegin.length_le
      rw [List.length_append, List.length_singleton] at hle
      omega
    have hne : name ++ [ch] ≠ cmd.upper := fun heq => hno (heq ▸ List.prefix_refl _)
    rw [if_pos hlong, if_neg hne, if_neg hno]
  · have hin : name.length < cmd.name.length := by omega
    have hchar : toUpper (cmd.name.getD (name.length + 1 - 1) 0) = ch ↔
        cmd.upper[name.length]? = some ch := by
      unfold Command.upper
      rw [Nat.add_sub_cancel, List.getElem?_map, List.getD_eq_getElem?_getD,
        List.getElem?_eq_getElem hin]
      exact ⟨fun heq => congrArg some heq, fun heq => Option.some.inj heq⟩
    rw [if_neg hlong]
    by_cases hsame : cmd.upper[name.length]? = some ch
    · have hbegin : name ++ [ch] <+: cmd.upper := concat_begins.mpr ⟨h, hsame⟩
      have hwhole : name.length + 1 = cmd.name.length ↔ name ++ [ch] = cmd.upper := by
        constructor
        · intro hlen
          refine hbegin.eq_of_length ?_
          rw [List.length_append, List.length_singleton, hlength, hlen]
        · intro heq
          rw [← hlength, ← heq, List.length_append, List.length_singleton]
      rw [if_neg (not_not.mpr (hchar.mpr hsame)), if_pos hbegin]
      simp only [hwhole]
    · have hno : ¬name ++ [ch] <+: cmd.upper := fun hbegin => hsame (concat_begins.mp hbegin).2
      have hne : name ++ [ch] ≠ cmd.upper := fun heq => hno (heq ▸ List.prefix_refl _)
      rw [if_pos (fun heq => hsame (hchar.mp heq)), if_neg hne, if_neg hno]

/-- The cell of an enabled command after one more character. -/
theorem newCell_fate (cmd : Command) (name : List UInt8) (ch v : UInt8) :
    newCell (false, cmd) (name.length + 1) ch (fate cmd name v) = fate cmd (name ++ [ch]) v ∧
      (fires (false, cmd) (name.length + 1) ch (fate cmd name v) = true ↔
        v ≠ 0 ∧ name ++ [ch] = cmd.upper ∧ cmd.implicitWrite = true) := by
  have hone : name ++ [ch] ≠ [] := by simp
  have hstate : ∀ v, stateOf (false, cmd) v = v := fun v => rfl
  unfold newCell fires
  rw [hstate]
  by_cases hzero : v = 0
  · have hold : fate cmd name v = 0 := by
      unfold fate
      rw [if_pos (Or.inr hzero), hzero]
    rw [hold, if_neg (by decide)]
    exact ⟨by unfold fate; rw [if_pos (Or.inr hzero), hzero], by simp [hzero]⟩
  have hnew : fate cmd (name ++ [ch]) v = if name ++ [ch] = cmd.upper then 2
      else if name ++ [ch] <+: cmd.upper then v else 0 := by
    unfold fate
    rw [if_neg (by simp [hzero])]
  by_cases hbegin : name <+: cmd.upper
  · have hold : fate cmd name v ≠ 0 := by
      unfold fate
      split
      · exact hzero
      · split
        · decide
        · exact hzero
    rw [if_pos hold, compare_eq hbegin, hnew]
    by_cases hwhole : name ++ [ch] = cmd.upper
    · simp [hwhole, hold, hzero]
    · by_cases hmore : name ++ [ch] <+: cmd.upper
      · -- the name so far is not the whole name, so its cell is as it was
        have hkept : fate cmd name v = v := by
          have hne : name ≠ cmd.upper := fun heq => by
            have hle := hmore.length_le
            rw [← heq, List.length_append, List.length_singleton] at hle
            omega
          unfold fate
          rw [if_neg hne, if_pos hbegin, ite_self]
        simp [hwhole, hmore, hkept]
      · simp [hwhole, hmore]
  · have hne : name ≠ [] := fun hnil => hbegin (hnil ▸ ⟨_, rfl⟩)
    have hother : name ≠ cmd.upper := fun heq => hbegin (heq ▸ List.prefix_refl _)
    have hold : fate cmd name v = 0 := by
      unfold fate
      rw [if_neg (by simp [hne, hzero]), if_neg hother, if_neg hbegin]
    have hno : ¬name ++ [ch] <+: cmd.upper := fun hmore => hbegin (concat_begins.mp hmore).1
    have hwhole : name ++ [ch] ≠ cmd.upper := fun heq => hno (heq ▸ List.prefix_refl _)
    rw [hold, if_neg (by decide), hnew, if_neg hwhole, if_neg hno]
    exact ⟨rfl, by simp [hwhole]⟩

/-- The matcher after a name, when `init` was in the cells. -/
structure Matched (d : Descriptor) (init : Nat → UInt8) (name : List UInt8) (s : Matcher) :
    Prop where
  room : d.commandsNum ≤ 4 * s.buf.length
  cells : ∀ j cmd, (entries d.groups)[j]? = some (false, cmd) →
    cell s.buf j = fate cmd name (init j)
  length : s.length = name.length
  index : s.index = 0
  flag : s.implicitWriteFlag = false

/-- The name is that of an implicit write. -/
def FiresAt (d : Descriptor) (init : Nat → UInt8) (name : List UInt8) : Prop :=
  ∃ j cmd, (entries d.groups)[j]? = some (false, cmd) ∧ init j ≠ 0 ∧ name = cmd.upper ∧
    cmd.implicitWrite = true

variable {init : Nat → UInt8} {name : List UInt8}

/-- **One character** more. -/
theorem Matched.char (h : Matched d init name s) (hnum : 0 < d.commandsNum) {ch : UInt8}
    (hvalid : isValidCmdNameChar (toUpper ch) = true) :
    Matched d init (name ++ [toUpper ch]) ((service d)^[d.commandsNum] (parseCommand s ch)) ∧
      (¬FiresAt d init (name ++ [toUpper ch]) →
        ((service d)^[d.commandsNum] (parseCommand s ch)).state = .parseCommandChar) ∧
      (FiresAt d init (name ++ [toUpper ch]) →
        ((service d)^[d.commandsNum] (parseCommand s ch)).state = .searchCommand ∧
        ((service d)^[d.commandsNum] (parseCommand s ch)).cmd = none ∧
        ((service d)^[d.commandsNum] (parseCommand s ch)).partialCntr = 0) := by
  have hparse : parseCommand s ch = { s with
      currentChar := toUpper ch
      length := s.length + 1
      state := .updateCommandState } := if_pos hvalid
  obtain ⟨s', hs', hlength, hcells, htyped, -, hindex, hflag, hquiet, hfire⟩ :=
    @pass d (parseCommand s ch) (by rw [hparse]; exact h.room) hnum (by rw [hparse]; exact h.index)
      (by rw [hparse]) (by rw [hparse]; exact h.flag)
  rw [hparse] at hlength hcells htyped hquiet hfire
  have hfires : Fires d { s with
        currentChar := toUpper ch
        length := s.length + 1
        state := .updateCommandState } d.commandsNum ↔
      FiresAt d init (name ++ [toUpper ch]) := by
    constructor
    · intro hfires
      obtain ⟨j, -, ⟨disabled, cmd⟩, hj, hfires⟩ := hfires
      cases disabled with
      | true => cases hfires
      | false =>
        dsimp only at hfires
        rw [h.cells j cmd hj, h.length] at hfires
        exact ⟨j, cmd, hj, (newCell_fate cmd name (toUpper ch) (init j)).2.mp hfires⟩
    · intro hfires
      obtain ⟨j, cmd, hj, hfires⟩ := hfires
      refine ⟨j, commandsNum_eq d ▸ (List.getElem?_eq_some_iff.mp hj).1, _, hj, ?_⟩
      dsimp only
      rw [h.cells j cmd hj, h.length]
      exact (newCell_fate cmd name (toUpper ch) (init j)).2.mpr hfires
  rw [hs', ← hfires]
  refine ⟨⟨?_, fun j cmd hj => ?_, ?_, hindex, hflag⟩, hquiet, hfire⟩
  · rw [hlength]
    exact h.room
  · rw [hcells j _ hj]
    dsimp only
    rw [h.cells j cmd hj, h.length]
    exact (newCell_fate cmd name (toUpper ch) (init j)).1
  · rw [htyped, List.length_append, List.length_singleton, ← h.length]

/-- **A name** is typed up to its end, or up to the name of an implicit write. -/
theorem Matched.typed (hnum : 0 < d.commandsNum) {chars : List UInt8}
    (hvalid : ∀ ch ∈ chars, isValidCmdNameChar (toUpper ch) = true)
    (h : Matched d init name s) (hstate : s.state = .parseCommandChar) :
    ∃ more, more <+: chars.map toUpper ∧ Matched d init (name ++ more) (typeName d s chars) ∧
      (∀ p, p ≠ [] → p <+: more → p ≠ more → ¬FiresAt d init (name ++ p)) ∧
      ((typeName d s chars).state = .parseCommandChar ∧ more = chars.map toUpper ∨
        more ≠ [] ∧ FiresAt d init (name ++ more) ∧
          (typeName d s chars).state = .searchCommand ∧ (typeName d s chars).cmd = none ∧
          (typeName d s chars).partialCntr = 0) := by
  induction chars generalizing s name with
  | nil =>
    refine ⟨[], ⟨_, rfl⟩, ?_, fun p hne hp _ => ?_, Or.inl ⟨hstate, rfl⟩⟩
    · rw [List.append_nil]
      exact h
    · exact absurd (List.prefix_nil.mp hp) hne
  | cons ch chars ih =>
    obtain ⟨hnext, hquiet, hfire⟩ := h.char hnum (hvalid ch (List.mem_cons_self ..))
    unfold typeName
    dsimp only
    by_cases hfires : FiresAt d init (name ++ [toUpper ch])
    · obtain ⟨hsearch, hcmd, hcntr⟩ := hfire hfires
      rw [if_neg (by rw [hsearch]; decide)]
      refine ⟨[toUpper ch], ⟨chars.map toUpper, rfl⟩, hnext, fun p hne hp hother => ?_,
        Or.inr ⟨by simp, hfires, hsearch, hcmd, hcntr⟩⟩
      cases p with
      | nil => exact absurd rfl hne
      | cons first p =>
        obtain ⟨rfl, hrest⟩ := List.cons_prefix_cons.mp hp
        rw [List.prefix_nil.mp hrest] at hother
        exact absurd rfl hother
    · rw [if_pos (hquiet hfires)]
      obtain ⟨more, hmore, hmatched, hearly, hend⟩ :=
        ih (fun other hmem => hvalid other (List.mem_cons_of_mem _ hmem)) hnext (hquiet hfires)
      have happend : ∀ p, name ++ [toUpper ch] ++ p = name ++ toUpper ch :: p := fun p => by simp
      rw [happend] at hmatched
      refine ⟨toUpper ch :: more, List.cons_prefix_cons.mpr ⟨rfl, hmore⟩, hmatched,
        fun p hne hp hother => ?_, ?_⟩
      · cases p with
        | nil => exact absurd rfl hne
        | cons first p =>
          obtain ⟨rfl, hrest⟩ := List.cons_prefix_cons.mp hp
          by_cases hp' : p = []
          · rw [hp']
            exact hfires
          · rw [← happend]
            exact hearly p hp' hrest fun heq => hother (congrArg _ heq)
      · rcases hend with ⟨hparse, rfl⟩ | ⟨-, hlast, hsearch⟩
        · exact Or.inl ⟨hparse, rfl⟩
        · rw [happend] at hlast
          exact Or.inr ⟨by simp, hlast, hsearch⟩

/-! ## The whole lookup -/

/-- The cells for which the buffer is set up. -/
def Descriptor.cells (d : Descriptor) : Nat := 4 * d.atcmdBufSize

/-- What is in the cells before the first character. -/
def initial (d : Descriptor) (buf : List UInt8) (j : Nat) : UInt8 :=
  if j < d.cells then 1 else cell buf j

/-- What the search reads in a cell. -/
def stateAt (d : Descriptor) (init : Nat → UInt8) (name : List UInt8) (j : Nat) : UInt8 :=
  match (entries d.groups)[j]? with
  | some (false, cmd) => fate cmd name (init j)
  | _ => 0

/-- The assertions of `cat_init`. -/
structure Descriptor.Valid (d : Descriptor) : Prop where
  some_command : 0 < d.commandsNum
  room : d.commandsNum ≤ d.bufSize * 4

theorem choose_congr {full' part' : Nat → Bool} (hfull : ∀ j < num, full j = full' j)
    (hpart : ∀ j < num, part j = part' j) : choose num full part = choose num full' part' := by
  have hfind : (List.range num).find? full = (List.range num).find? full' := by
    rw [← List.head?_filter, ← List.head?_filter,
      List.filter_congr fun j hj => hfull j (List.mem_range.mp hj)]
  have hfilter : (List.range num).filter part = (List.range num).filter part' :=
    List.filter_congr fun j hj => hpart j (List.mem_range.mp hj)
  unfold choose
  rw [hfind, hfilter]

theorem atcmdBufSize_le (d : Descriptor) : d.atcmdBufSize ≤ d.bufSize := by
  unfold Descriptor.atcmdBufSize
  rw [Nat.shiftRight_eq_div_pow]
  split <;> omega

theorem cell_prepared {buf : List UInt8} (h : buf.length = d.bufSize) (j : Nat) :
    cell (prepareParseCommand d (start buf)).buf j = initial d buf j := by
  have hsize := atcmdBufSize_le d
  have hbyte : j >>> 2 < d.atcmdBufSize ↔ j < d.cells := by
    rw [Nat.shiftRight_eq_div_pow]
    unfold Descriptor.cells
    omega
  have hmin : min d.atcmdBufSize buf.length = d.atcmdBufSize := by omega
  have hget : (List.replicate d.atcmdBufSize 0x55 ++ buf.drop d.atcmdBufSize).getD (j >>> 2) 0
      = if j < d.cells then 0x55 else buf.getD (j >>> 2) 0 := by
    rw [List.getD_eq_getElem?_getD, List.getElem?_append, List.length_replicate]
    by_cases hin : j < d.cells
    · rw [if_pos hin, if_pos (hbyte.mpr hin), List.getElem?_replicate, if_pos (hbyte.mpr hin)]
      rfl
    · rw [if_neg hin, if_neg (fun hlt => hin (hbyte.mp hlt)), List.getElem?_drop,
        List.getD_eq_getElem?_getD]
      have hsum : d.atcmdBufSize + (j >>> 2 - d.atcmdBufSize) = j >>> 2 := by
        have hbehind : ¬j >>> 2 < d.atcmdBufSize := fun hlt => hin (hbyte.mp hlt)
        omega
      rw [hsum]
  unfold prepareParseCommand start initial
  dsimp only
  rw [cell_eq, hmin, hget]
  split
  · exact bitsAt_partial ⟨j % 4, Nat.mod_lt _ (by decide)⟩
  · exact (cell_eq buf j).symm

/-- **The lookup** chooses by the cells. -/
theorem lookup_spec (hvalid : d.Valid) {buf chars : List UInt8} (last : UInt8)
    (hbuf : buf.length = d.bufSize)
    (hchars : ∀ ch ∈ chars, isValidCmdNameChar (toUpper ch) = true) :
    ∃ name, name <+: chars.map toUpper ∧ (chars ≠ [] → name ≠ []) ∧
      (lookup d buf chars last).length = name.length ∧
      (∀ p, p ≠ [] → p <+: name → p ≠ name → ¬FiresAt d (initial d buf) p) ∧
      (name = chars.map toUpper ∨ FiresAt d (initial d buf) name) ∧
      (lookup d buf chars last).state ≠ .searchCommand ∧
      (lookup d buf chars last).chosen = choose d.commandsNum
        (fun j => stateAt d (initial d buf) name j = 2)
        (fun j => stateAt d (initial d buf) name j = 1) := by
  have hnum := hvalid.some_command
  have hroom := hvalid.room
  have hsize := atcmdBufSize_le d
  have hstart : Matched d (initial d buf) [] (prepareParseCommand d (start buf)) := by
    refine ⟨?_, fun j cmd _ => ?_, rfl, rfl, rfl⟩
    · change d.commandsNum ≤ 4 * (List.replicate (min d.atcmdBufSize buf.length) 0x55 ++
        buf.drop d.atcmdBufSize).length
      rw [List.length_append, List.length_replicate, List.length_drop]
      omega
    · rw [cell_prepared hbuf]
      unfold fate
      rw [if_pos (Or.inl rfl)]
  obtain ⟨name, hname, hmatched, hearly, hend⟩ := hstart.typed hnum hchars rfl
  rw [List.nil_append] at hmatched
  simp only [List.nil_append] at hearly hend
  have hresult : ∀ s, (typeName d (prepareParseCommand d (start buf)) chars).buf = s.buf →
      s.length = name.length → Searched d s ((service d)^[d.commandsNum] s) →
      ((service d)^[d.commandsNum] s).length = name.length ∧
      ((service d)^[d.commandsNum] s).state ≠ .searchCommand ∧
      ((service d)^[d.commandsNum] s).chosen = choose d.commandsNum
        (fun j => stateAt d (initial d buf) name j = 2)
        (fun j => stateAt d (initial d buf) name j = 1) := by
    intro s hsame hlength hsearched
    have hread : ∀ j < d.commandsNum,
        getCmdState d s.buf j = stateAt d (initial d buf) name j := by
      intro j hj
      obtain ⟨e, he⟩ : ∃ e, (entries d.groups)[j]? = some e :=
        ⟨_, List.getElem?_eq_getElem (commandsNum_eq d ▸ hj)⟩
      rw [getCmdState_eq he, ← hsame]
      unfold stateAt
      rw [he]
      obtain ⟨disabled, cmd⟩ := e
      cases disabled with
      | true => rfl
      | false => exact hmatched.cells j cmd he
    refine ⟨hsearched.length.trans hlength, hsearched.ended.1, hsearched.chosen.trans ?_⟩
    refine choose_congr (fun j hj => ?_) fun j hj => ?_
    · rw [hread j hj]
    · rw [hread j hj]
  unfold lookup
  rcases hend with ⟨hparse, hwhole⟩ | ⟨hne, hfires, hsearch, hcmd, hcntr⟩
  · dsimp only
    rw [if_pos hparse]
    obtain ⟨hlength, hchosen⟩ := hresult
      (prepareSearchCommand { typeName d (prepareParseCommand d (start buf)) chars with
        currentChar := last })
      rfl hmatched.length (searched hnum rfl rfl rfl rfl)
    refine ⟨name, hname, fun hchars hnil => ?_, hlength, hearly, Or.inl hwhole, hchosen⟩
    rw [hnil] at hwhole
    exact hchars (List.map_eq_nil_iff.mp hwhole.symm)
  · dsimp only
    rw [if_neg (by rw [hsearch]; decide)]
    obtain ⟨hlength, hchosen⟩ := hresult _ rfl hmatched.length
      (searched hnum hsearch hmatched.index hcmd hcntr)
    exact ⟨name, hname, fun _ => hne, hlength, hearly, Or.inr hfires, hchosen⟩

/-- Every beginning of the name of an enabled command behind the cells is the name of an enabled
command with a cell, as far as it can be typed before an implicit write starts. -/
def Fits (d : Descriptor) : Prop :=
  ∀ i cmd name, d.cells ≤ i → (entries d.groups)[i]? = some (false, cmd) → name ≠ [] →
    (∀ ch ∈ name, isValidCmdNameChar ch = true) → name <+: cmd.upper →
    (∀ j other, j < d.cells → (entries d.groups)[j]? = some (false, other) →
      other.implicitWrite = true → other.upper ≠ [] → other.upper <+: name → other.upper = name) →
    ∃ j < d.cells, named d name j = true

theorem named_iff {j : Nat} :
    named d name j = true ↔
      ∃ cmd, (entries d.groups)[j]? = some (false, cmd) ∧ name = cmd.upper := by
  unfold named
  split
  · next cmd hj =>
    rw [decide_eq_true_eq]
    exact ⟨fun heq => ⟨cmd, hj, heq⟩, fun ⟨_, hcmd, heq⟩ => by
      rw [hj] at hcmd
      cases hcmd
      exact heq⟩
  · next hother =>
    exact ⟨fun h => absurd h Bool.false_ne_true,
      fun ⟨cmd, hcmd, _⟩ => absurd hcmd (hother cmd)⟩

/-- A command with a cell is in the state that its name asks for. -/
theorem stateAt_inside {buf : List UInt8} {j : Nat} (hj : j < d.cells) (hname : name ≠ []) :
    (stateAt d (initial d buf) name j = 2 ↔ named d name j = true) ∧
      (stateAt d (initial d buf) name j = 1 ↔ begun d name j = true) := by
  unfold stateAt named begun initial
  rw [if_pos hj]
  split
  · next cmd _ =>
    unfold fate
    rw [if_neg (by simp [hname])]
    by_cases hwhole : name = cmd.upper
    · simp [hwhole]
    · by_cases hbegin : name <+: cmd.upper <;> simp [hwhole, hbegin]
  · exact ⟨by simp, by simp⟩

/-- Where the names fit, the cells choose what the whole table does. -/
theorem Fits.choose_eq (hfits : Fits d) {buf : List UInt8} (hname : name ≠ [])
    (htyped : ∀ ch ∈ name, isValidCmdNameChar ch = true)
    (hearly : ∀ p, p ≠ [] → p <+: name → p ≠ name → ¬FiresAt d (initial d buf) p) :
    choose d.commandsNum (fun j => stateAt d (initial d buf) name j = 2)
      (fun j => stateAt d (initial d buf) name j = 1) = direct d name := by
  have hinside : ∀ j < d.cells, _ := fun j hj => @stateAt_inside d name buf j hj hname
  by_cases hthere : ∃ j, j < d.cells ∧ named d name j = true
  · -- the first command of this name has a cell
    have hfirst : ∃ i, i < d.cells ∧ named d name i = true ∧ ∀ j < i, named d name j = false := by
      obtain ⟨k, hk, hnamed⟩ := hthere
      have hex : ∃ i, named d name i = true := ⟨k, hnamed⟩
      refine ⟨Nat.find hex, Nat.lt_of_le_of_lt (Nat.find_min' hex hnamed) hk, Nat.find_spec hex,
        fun j hj => Bool.eq_false_iff.mpr (Nat.find_min hex hj)⟩
    obtain ⟨i, hi, hnamed, hbefore⟩ := hfirst
    have hless : i < d.commandsNum := by
      obtain ⟨cmd, hcmd, -⟩ := named_iff.mp hnamed
      exact commandsNum_eq d ▸ (List.getElem?_eq_some_iff.mp hcmd).1
    refine (choose_of_full hless (decide_eq_true ((hinside i hi).1.mpr hnamed))
      fun j hj => ?_).trans (choose_of_full hless hnamed hbefore).symm
    refine decide_eq_false fun hstate => ?_
    have hsame := (hinside j (Nat.lt_trans hj hi)).1.mp hstate
    rw [hbefore j hj] at hsame
    cases hsame
  · -- and where none has, no name behind the cells begins like this
    have hbehind : ∀ j cmd, d.cells ≤ j → (entries d.groups)[j]? = some (false, cmd) →
        ¬name <+: cmd.upper := by
      intro j cmd hj hcmd hbegin
      refine hthere (hfits j cmd name hj hcmd hname htyped hbegin ?_)
      intro k other hk hother himplicit hne hpart
      apply Classical.byContradiction
      intro hdiffer
      refine hearly other.upper hne hpart hdiffer ⟨k, other, hother, ?_, rfl, himplicit⟩
      unfold initial
      rw [if_pos hk]
      decide
    have hboth : ∀ j, (stateAt d (initial d buf) name j = 2 ↔ named d name j = true) ∧
        (stateAt d (initial d buf) name j = 1 ↔ begun d name j = true) := by
      intro j
      by_cases hj : j < d.cells
      · exact hinside j hj
      · unfold stateAt named begun
        split
        · next cmd hcmd =>
          have hno := hbehind j cmd (Nat.le_of_not_lt hj) hcmd
          have hne : name ≠ cmd.upper := fun heq => hno (heq ▸ List.prefix_refl _)
          have hzero : fate cmd name (initial d buf j) = 0 := by
            unfold fate
            split
            · next hor => exact hor.resolve_left hname
            · rfl
          rw [hzero]
          simp [hno, hne]
        · exact ⟨by simp, by simp⟩
    refine choose_congr (fun j _ => ?_) fun j _ => ?_
    · rw [Bool.eq_iff_iff, decide_eq_true_eq]
      exact (hboth j).1
    · rw [Bool.eq_iff_iff, decide_eq_true_eq]
      exact (hboth j).2

/-- A buffer of zeros but for one cell. -/
theorem cell_single {size i : Nat} (hi : i >>> 2 < size) (on : Bool) (j : Nat) :
    cell (setCmdState (List.replicate size 0) i (if on then 2 else 0)) j =
      if i = j then (if on then 2 else 0) else 0 := by
  have hzero : cell (List.replicate size 0) j = 0 := by
    have hget : (List.replicate size (0 : UInt8)).getD (j >>> 2) 0 = 0 := by
      rw [List.getD_eq_getElem?_getD, List.getElem?_replicate]
      split <;> rfl
    have hbits : ∀ a : Fin 4, bitsAt 0 (.ofNat (a.val <<< 1)) = 0 := by decide
    rw [cell_eq, hget]
    exact hbits ⟨j % 4, Nat.mod_lt _ (by decide)⟩
  rw [cell_setCmdState (by rw [List.length_replicate]; exact hi), hzero]

theorem toUpper_of_valid {ch : UInt8} (h : isValidCmdNameChar ch = true) : toUpper ch = ch := by
  unfold toUpper
  refine if_neg fun hsmall => ?_
  obtain ⟨hlow, hhigh⟩ := hsmall
  rw [UInt8.le_iff_toNat_le] at hlow hhigh
  simp only [isValidCmdNameChar, Bool.or_eq_true, Bool.and_eq_true, decide_eq_true_eq, beq_iff_eq,
    UInt8.le_iff_toNat_le, ← UInt8.toNat_inj, UInt8.toNat_ofNat] at h hlow hhigh
  omega

/-- Where they do not fit, what was in the buffer before decides. -/
theorem fits_of_lookup (hvalid : d.Valid)
    (h : ∀ buf chars, buf.length = d.bufSize → chars ≠ [] →
      (∀ ch ∈ chars, isValidCmdNameChar (toUpper ch) = true) →
      (lookup d buf chars 10).chosen
        = direct d ((chars.map toUpper).take (lookup d buf chars 10).length)) : Fits d := by
  intro i cmd name hi hcmd hname htyped hbegin himplicit
  apply Classical.byContradiction
  intro hnone
  have hless : i < d.commandsNum := commandsNum_eq d ▸ (List.getElem?_eq_some_iff.mp hcmd).1
  have hbyte : i >>> 2 < d.bufSize := by
    have hroom := hvalid.room
    rw [Nat.shiftRight_eq_div_pow]
    omega
  have hupper : name.map toUpper = name := by
    calc name.map toUpper = name.map id :=
          List.map_congr_left fun ch hmem => toUpper_of_valid (htyped ch hmem)
      _ = name := List.map_id name
  have hchars : ∀ ch ∈ name, isValidCmdNameChar (toUpper ch) = true := fun ch hmem => by
    rw [toUpper_of_valid (htyped ch hmem)]
    exact htyped ch hmem
  -- the cell of the command is zero or a full match, all others behind it are zero
  let buf (on : Bool) := setCmdState (List.replicate d.bufSize 0) i (if on then 2 else 0)
  have hbuf : ∀ on, (buf on).length = d.bufSize := fun on => by
    rw [length_setCmdState, List.length_replicate]
  have hinitial : ∀ on j, initial d (buf on) j =
      if j < d.cells then 1 else if i = j then (if on then 2 else 0) else 0 := fun on j => by
    unfold initial
    rw [cell_single hbyte]
  have hresult : ∀ on, direct d name = choose d.commandsNum
      (fun j => stateAt d (initial d (buf on)) name j = 2)
      (fun j => stateAt d (initial d (buf on)) name j = 1) := by
    intro on
    obtain ⟨typed, htaken, hsome, hlength, -, hend, -, hchosen⟩ :=
      lookup_spec hvalid 10 (hbuf on) hchars
    rw [hupper] at htaken hend
    have hwhole : typed = name := by
      rcases hend with heq | ⟨j, other, hother, hset, heq, hwrite⟩
      · exact heq
      · by_cases hj : j < d.cells
        · exact heq.trans (himplicit j other hj hother hwrite (heq ▸ hsome hname) (heq ▸ htaken))
        · -- the only other cell that is set is that of the command itself
          have hij : i = j := by
            rw [hinitial, if_neg hj] at hset
            apply Classical.byContradiction
            intro hne
            exact hset (if_neg hne)
          subst hij
          rw [hcmd] at hother
          cases hother
          exact htaken.eq_of_length
            (Nat.le_antisymm htaken.length_le (heq ▸ hbegin.length_le))
    have hsame := h (buf on) name (hbuf on) hname hchars
    rw [hchosen, hlength, hwhole, hupper, List.take_length] at hsame
    exact hsame.symm
  have hinside : ∀ on j, j < d.cells → stateAt d (initial d (buf on)) name j ≠ 2 := by
    intro on j hj hstate
    exact hnone ⟨j, hj, (stateAt_inside hj hname).1.mp hstate⟩
  have hbehind : ∀ on j, ¬j < d.cells → i ≠ j → stateAt d (initial d (buf on)) name j = 0 := by
    intro on j hj hne
    have hzero : initial d (buf on) j = 0 := by rw [hinitial, if_neg hj, if_neg hne]
    unfold stateAt
    split
    · unfold fate
      rw [if_pos (Or.inr hzero), hzero]
    · rfl
  have hout : ¬i < d.cells := Nat.not_lt_of_le hi
  -- with the full match the command is chosen
  have hfound : direct d name = some i := by
    rw [hresult true]
    refine choose_of_full hless (decide_eq_true ?_) fun j hj => decide_eq_false ?_
    · have hset : initial d (buf true) i = 2 := by rw [hinitial, if_neg hout, if_pos rfl]; rfl
      unfold stateAt
      rw [hcmd]
      dsimp only
      unfold fate
      rw [hset, if_neg (by simp [hname]), if_pos hbegin, ite_self]
    · by_cases hin : j < d.cells
      · exact hinside true j hin
      · rw [hbehind true j hin (Nat.ne_of_gt hj)]
        decide
  -- with the zero it is not
  have hzero : stateAt d (initial d (buf false)) name i = 0 := by
    have hset : initial d (buf false) i = 0 := by rw [hinitial, if_neg hout, if_pos rfl]; rfl
    unfold stateAt
    rw [hcmd]
    dsimp only
    unfold fate
    rw [if_pos (Or.inr hset), hset]
  rw [hresult false, choose_of_none fun j _ => decide_eq_false ?_] at hfound
  · split at hfound
    · next k hlist =>
      cases hfound
      have hmem : i ∈ (List.range d.commandsNum).filter
          fun j => stateAt d (initial d (buf false)) name j = 1 := by
        rw [hlist]
        exact List.mem_singleton.mpr rfl
      have hone := of_decide_eq_true (List.mem_filter.mp hmem).2
      rw [hzero] at hone
      exact absurd hone (by decide)
    · cases hfound
  · by_cases hin : j < d.cells
    · exact hinside false j hin
    · by_cases hij : i = j
      · rw [← hij, hzero]
        decide
      · rw [hbehind false j hin hij]
        decide

/-- Two commands, and a buffer of its own for unsolicited events. -/
def smallTable : Descriptor where
  groups := [⟨[⟨[43, 79, 78], false, false⟩, ⟨[43, 79, 70], false, false⟩], false⟩]
  bufSize := 8
  separate := true

/-- Five commands in a buffer of two bytes, one of which is for unsolicited events: there is no
cell for the last command. -/
def fiveCommands : Descriptor where
  groups := [⟨[⟨[65], false, false⟩, ⟨[66], false, false⟩, ⟨[67], false, false⟩,
    ⟨[68], false, false⟩, ⟨[69], false, false⟩], false⟩]
  bufSize := 2
  separate := false

end CatMatch
