import WisunModem.RplRuns

/-!
# The records a DIO works on

`rpl_control_dio_handler` keeps using the sender's entry behind the point where it makes a
version, and reads the number of a current version that a former root no longer has.  Both
go wrong; where neither can happen, every run of an instance keeps its records.
-/

namespace Rpl

open Faults

namespace DioRecords

/-! ## Three runs that go wrong -/

def conf : Conf where
  authentication := false
  dagMaxRankIncrease := 128
  minHopRankIncrease := 128
  objectiveCodePoint := 1
  defaultLifetime := 120
  lifetimeUnit := 60

def env : Surroundings where
  joinDodag := true
  dodagRoom := true
  versionRoom := true
  neighbourRoom := true
  memory := conf
  ownDodagId := false
  newParentAdd := true
  objective := fun _ => some .mrhof

/-- A DIO of this version from this neighbour, with a configuration. -/
def dio (llAddress : Nat) (versionNumber : UInt8) : Dio where
  malformed := false
  llAddress := llAddress
  interfaceId := 1
  dodagId := 7
  versionNumber := versionNumber
  rank := 128
  gMopPrf := 0x88
  dtsn := 240
  conf := some conf
  metric := false
  timestamp := 0

/-- A neighbour moves from version 50 to version 10. -/
def newVersion : List Event := [.dio env (dio 1 50), .dio env (dio 1 10)]

/-- A former root hears of its DODAG. -/
def formerRoot : List Event := [.createRoot env 7 conf 128 0x88, .deleteRoot 0, .dio env (dio 1 240)]

/-- A root counts its version up while it knows a version of an earlier root. -/
def rootCounts : List Event :=
  [.createRoot env 7 conf 128 0x88, .dio env (dio 1 239)] ++
    List.replicate 16 (.incrementVersion 0)

/-- Four neighbours in versions of which not all are comparable. -/
def fourVersions : List Event :=
  [.dio env (dio 1 100), .dio env (dio 2 250), .dio env (dio 3 20), .dio env (dio 4 95)]

/-- The numbers of the versions behind a run. -/
def numbers (events : List Event) : Except Fault (List (List UInt8)) :=
  (fun t => t.dodags.map fun d => d.versions.map (·.number)) <$>
    (Instance.rpl_create_instance false).run events

/-- The sender's entry is used after it was freed, the version of a former root is read
through a null pointer, and a version list is neither newest first nor descending. -/
theorem newVersion_freed :
    (Instance.rpl_create_instance false).run newVersion = .error .freed ∧
      (Instance.rpl_create_instance false).run formerRoot = .error .null ∧
      numbers rootCounts = .ok [[0, 239]] ∧ rpl_seq_compare 239 0 = .greater ∧
      numbers fourVersions = .ok [[250, 95, 20, 100]] ∧ rpl_seq_compare 95 100 = .less :=
  ⟨rfl, rfl, rfl, rfl, rfl, rfl⟩

/-! ## All runs -/

/-- **Records are kept.**  In every run whose DIOs purge no sender in use, reach no former
root without a version and, if strict, put versions in their place, and whose root counts
its version up ahead of the others, no record is used that is gone, and the records are in
order in every state. -/
theorem records_kept (strict forceLeaf : Bool) (events : List Event)
    (h : Along Instance.step (fun s event => event.KeepsRecords strict s)
      (Instance.rpl_create_instance forceLeaf) events) :
    Meets (· = .divideByZero) ((Instance.rpl_create_instance forceLeaf).run events)
      (Instance.Records strict) := by
  have hstep : ∀ (s : Instance) (event : Event), s.Tidy strict (· = .divideByZero) →
      event.KeepsRecords strict s →
      Meets (· = .divideByZero) (s.step event) (Instance.Tidy strict (· = .divideByZero)) :=
    fun s event hs hc => Instance.meets_step hs (.inr hc) (.inl rfl)
  refine (meets_run hstep (Instance.rpl_create_instance_tidy forceLeaf) h).mono fun t ht => ?_
  exact ht.records.resolve_left (by decide)

/-- Two neighbours of different versions. -/
def twoVersions : List Event := [.dio env (dio 1 50), .dio env (dio 2 10)]

/-- Behind the first of them. -/
def afterFirst : Instance :=
  ((Instance.rpl_create_instance false).step (.dio env (dio 1 50))).toOption.getD
    (Instance.rpl_create_instance false)

theorem records_kept_twoVersions :
    Meets (· = .divideByZero) ((Instance.rpl_create_instance false).run twoVersions)
      (Instance.Records true) := by
  refine records_kept true false twoVersions ⟨⟨?_, ?_⟩, fun t ht => ⟨⟨?_, ?_⟩, fun _ _ => trivial⟩⟩
  · rintro - d ⟨⟩
  · rintro - d ⟨⟩
  all_goals
    have hfirst : t = afterFirst := (Except.ok.inj ht).symm
    subst hfirst
  · rintro - d ⟨⟩ ⟨⟩
  · rintro - d ⟨⟩ - - conf ⟨⟩ -
    refine fun _ _ => ⟨?_, ?_⟩
    · rintro n - ⟨⟩
    · intro _ v hv
      obtain rfl := List.mem_singleton.mp hv
      decide

end DioRecords

end Rpl
