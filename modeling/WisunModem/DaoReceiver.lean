import WisunModem.DaoPacker

/-!
# Reading a DAO

The loop of `rpl_instance_dao_received` over the options of a DAO that is not turned away,
and the one of `rpl_downward_process_targets_for_transit` over a group of targets.  Both
read through pointers; `none` stands for a read outside the options.  What the database
does with a target is left out, no pointer depends on it.
-/

namespace RplDao

/-- A transit as it is read. -/
structure Path where
  external : Bool
  pathControl : UInt8
  pathSequence : UInt8
  pathLifetime : UInt8
  parent : Option (List UInt8)
deriving DecidableEq, Repr

/-- What a transit is applied to: a prefix, or the descriptor of the prefix before. -/
inductive Heard
  | target (pfx : List UInt8) (prefixLen : Nat)
  | descriptor (bytes : List UInt8)
deriving DecidableEq, Repr

/-- `n` bytes from `i` on. -/
def bytesAt (opts : List UInt8) (i n : Nat) : Option (List UInt8) :=
  if i + n ≤ opts.length then some ((opts.drop i).take n) else none

/-- The targets from `start` to `stop`. -/
def heardFrom (opts : List UInt8) (stop start : Nat) : Option (List Heard) :=
  if start < stop then
    match opts[start]? with
    | none => none
    | some type =>
        if type = 0 then heardFrom opts stop (start + 1)
        else
          match opts[start + 1]? with
          | none => none
          | some len =>
              if type = 5 then
                match opts[start + 3]? with
                | none => none
                | some prefixLen =>
                    if prefixLen > 128 ∨ (prefixLen.toNat : Int) > ((len.toNat : Int) - 2) * 8 then
                      some []
                    else
                      match bytesAt opts (start + 4) ((prefixLen.toNat + 7) / 8) with
                      | none => none
                      | some pfx =>
                          (heardFrom opts stop (start + (2 + len.toNat))).map
                            (.target pfx prefixLen.toNat :: ·)
              else if type = 9 ∧ len = 4 then
                match bytesAt opts (start + 2) 4 with
                | none => none
                | some bytes =>
                    (heardFrom opts stop (start + (2 + len.toNat))).map (.descriptor bytes :: ·)
              else heardFrom opts stop (start + (2 + len.toNat))
  else some []
termination_by stop - start

/-- `rpl_downward_process_targets_for_transit` for the transit option at `i`: nothing is
done where the length is not that of the mode. -/
def rpl_downward_process_targets_for_transit (storing : Bool) (opts : List UInt8)
    (start stop i : Nat) : Option (List (Path × List Heard)) :=
  match opts[i + 1]? with
  | none => none
  | some len =>
      if len ≠ (if storing then 4 else 20) then some []
      else
        match opts[i + 2]?, opts[i + 3]?, opts[i + 4]?, opts[i + 5]?, bytesAt opts (i + 6) 16 with
        | some flags, some pathControl, some pathSequence, some pathLifetime, parent =>
            if !storing && parent.isNone then none
            else
              (heardFrom opts stop start).map fun heard =>
                [({ external := flags &&& 0x80 ≠ 0
                    pathControl := pathControl
                    pathSequence := pathSequence
                    pathLifetime := pathLifetime
                    parent := if storing then none else parent }, heard)]
        | _, _, _, _, _ => none

/-- The loop of `rpl_instance_dao_received` from `start` on: what each transit was applied to. -/
def received (storing : Bool) (opts : List UInt8) (targetStart targetEnd : Option Nat)
    (start : Nat) : Option (List (Path × List Heard)) :=
  if start < opts.length then
    match opts[start]? with
    | none => none
    | some type =>
        if type = 0 then received storing opts targetStart targetEnd (start + 1)
        else
          match opts[start + 1]? with
          | none => none
          | some len =>
              if type = 5 then
                received storing opts (if targetEnd.isSome then some start else targetStart) none
                  (start + (2 + len.toNat))
              else if type = 6 then
                match targetStart with
                | none => received storing opts none targetEnd (start + (2 + len.toNat))
                | some first =>
                    match rpl_downward_process_targets_for_transit storing opts first
                        (targetEnd.getD start) start with
                    | none => none
                    | some now =>
                        (received storing opts (some first) (some (targetEnd.getD start))
                          (start + (2 + len.toNat))).map (now ++ ·)
              else received storing opts targetStart targetEnd (start + (2 + len.toNat))
  else some []
termination_by opts.length - start

/-- The options of `rpl_instance_dao_received`, with the group of targets closed. -/
def rpl_instance_dao_received (mop : Mop) (opts : List UInt8) : Option (List (Path × List Heard)) :=
  if mop = .noDownward then some []
  else received (mop != .nonStoring) opts none (some 0) 0

end RplDao
