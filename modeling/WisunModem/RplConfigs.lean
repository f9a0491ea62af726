import WisunModem.DioRecords

/-!
# The configurations a node works with

`rpl_dodag_update_config` stores the option of a DIO before `rpl_policy_join_config` looks
at it, and nothing looks at the lifetime unit.  Where no DIO stores such an option, no run
divides by zero.
-/

namespace Rpl

open Faults

namespace RplConfigs

/-! ## Three runs that go wrong -/

/-- `common_serial_number_greater_32`. -/
def serialGreater (a b : UInt32) : Bool := a ≠ b && a - b < 0x80000000

/-- The answers of `rpl_policy.c`. -/
def policy : Policy where
  mrhofMaxLinkMetric := 512
  mrhofParentSwitchThreshold := 192
  mrhofMoreSuccessors := 1
  mrhofMaxRankStretch := 64
  of0RankFactor := 1
  of0StretchOfRank := 0
  of0MaxBackupSuccessors := 1
  of0PreferenceSupersedesGrounded := false
  serialGreater := serialGreater

/-- A parent selection with good links and no candidate that is too old. -/
def select : Event := .select policy (fun _ _ => 256) (fun _ => false) 0

/-- A DIO of this neighbour with this configuration. -/
def dio (llAddress : Nat) (conf : Conf) : Event :=
  .dio DioRecords.env { DioRecords.dio llAddress 50 with conf := some conf }

/-- The first configuration has no lifetime unit. -/
def noUnit : List Event :=
  [dio 1 { DioRecords.conf with lifetimeUnit := 0 }, select, .daoUpdate false false [⟨0, 3600⟩]]

/-- The preferred parent sends a configuration without `MinHopRankIncrease`. -/
def noMinHop : List Event :=
  [dio 1 DioRecords.conf, dio 2 DioRecords.conf, select,
    dio 1 { DioRecords.conf with minHopRankIncrease := 0 }, select]

/-- It asks for authentication. -/
def authentication : Conf := { DioRecords.conf with authentication := true }

/-- The configurations behind a run. -/
def configs (events : List Event) : Except Fault (List Conf) :=
  (fun t => t.dodags.map (·.config)) <$> (Instance.rpl_create_instance false).run events

/-- Two runs divide by zero, and in a third a configuration that is rejected replaces the
one before. -/
theorem noUnit_divides :
    (Instance.rpl_create_instance false).run noUnit = .error .divideByZero ∧
      (Instance.rpl_create_instance false).run noMinHop = .error .divideByZero ∧
      configs [dio 1 DioRecords.conf, dio 1 authentication] = .ok [authentication] ∧
      rpl_policy_join_config authentication = false :=
  ⟨rfl, rfl, rfl, rfl⟩

/-! ## All runs -/

/-- **No bad arithmetic.**  In every run that stores only good configurations, save rejected
ones in DODAGs without a version, nothing is divided by zero, and in every state each DODAG
that has a version has a good configuration. -/
theorem divisions_safe (forceLeaf : Bool) (events : List Event)
    (h : Along Instance.step (fun s event => event.StoresGood s)
      (Instance.rpl_create_instance forceLeaf) events) :
    Meets (· ≠ .divideByZero) ((Instance.rpl_create_instance forceLeaf).run events)
      fun t => ∀ d ∈ t.dodags, d.versions ≠ [] → d.config.Good := by
  have hstep : ∀ (s : Instance) (event : Event), s.Tidy true (· ≠ .divideByZero) →
      event.StoresGood s →
      Meets (· ≠ .divideByZero) (s.step event) (Instance.Tidy true (· ≠ .divideByZero)) :=
    fun s event hs hc => Instance.meets_step hs (.inl ⟨by decide, by decide⟩) (.inr hc)
  refine (meets_run hstep (Instance.rpl_create_instance_tidy forceLeaf) h).mono fun t ht => ?_
  intro d hd hne
  exact (ht.configured.config d hd (ht.configured.versions d hd hne) (.inl hne)).resolve_left
    fun hallow => hallow rfl

/-- A node that joins, selects its parent and sends a DAO. -/
def joins : List Event := [dio 1 DioRecords.conf, select, .daoUpdate false false [⟨0, 3600⟩]]

theorem divisions_safe_joins :
    Meets (· ≠ .divideByZero) ((Instance.rpl_create_instance false).run joins)
      fun t => ∀ d ∈ t.dodags, d.versions ≠ [] → d.config.Good := by
  refine divisions_safe false joins ⟨?_, fun _ _ => ⟨trivial, fun _ _ => ⟨trivial, fun _ _ => trivial⟩⟩⟩
  rintro - - conf ⟨⟩ - - -
  decide

end RplConfigs

end Rpl
