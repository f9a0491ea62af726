import Mathlib.Algebra.Group.Int.Defs
import Mathlib.Algebra.GroupWithZero.Nat
import WisunModem.Runs

/-!
# Key lifetimes

`ws_pae_time.c` and what `ws_pae_key_storage.c` does to the lifetime of a stored key.  A
lifetime is stored in 16 bits: 14 bits of seconds, minutes, hours or days, and the unit.  It
counts from the reference time of the storage, and is brought up to date when the reference
time is.
-/

namespace KeyTimes

open Runs

/-- `SEC_MAXIMUM_LIFETIME`, two years of twelve months of thirty days. -/
def secMaximumLifetime : Nat := 60 * 60 * 24 * 30 * 24

/-! ## The short format -/

/-- The unit of a format, in seconds. -/
def unit : Nat → Nat
  | 0 => 1
  | 1 => 60
  | 2 => 3600
  | _ => 86400

/-- The format that is chosen for a time. -/
def formatOf (time : UInt32) : Nat :=
  if time.toNat < 0x3FFF then 0
  else if time.toNat < 0x3FFF * 60 then 1
  else if time.toNat < 0x3FFF * 3600 then 2
  else 3

/-- `ws_pae_time_to_short_convert` -/
def ws_pae_time_to_short_convert (time : UInt32) : UInt16 :=
  UInt16.ofNat (time.toNat / unit (formatOf time)) |||
    (UInt16.ofNat (formatOf time)) <<< 14

/-- `ws_pae_time_from_short_convert` -/
def ws_pae_time_from_short_convert (short : UInt16) : UInt32 :=
  UInt32.ofNat ((short &&& 0x3FFF).toNat * unit (short >>> 14).toNat)

/-- `ws_pae_time_from_short_time_compare`: the difference that passes for none depends on the
larger unit. -/
def ws_pae_time_from_short_time_compare (short1 short2 : UInt16) : Bool :=
  let time1 := (ws_pae_time_from_short_convert short1).toNat
  let time2 := (ws_pae_time_from_short_convert short2).toNat
  let difference := if time1 > time2 then time1 - time2 else time2 - time1
  let isFormat (format : UInt16) := short1 >>> 14 == format || short2 >>> 14 == format
  if isFormat 3 then difference ≤ 2 * 24 * 3600
  else if isFormat 2 then difference ≤ 2 * 3600
  else if isFormat 1 then difference ≤ 5 * 60
  else difference ≤ 10

theorem formatOf_lt (time : UInt32) : formatOf time < 4 := by
  unfold formatOf
  split_ifs <;> omega

/-- The times of a format are those whose value fits in 14 bits. -/
theorem value_lt {time : UInt32} (h : time.toNat < 2 ^ 14 * 86400) :
    time.toNat / unit (formatOf time) < 2 ^ 14 := by
  unfold formatOf
  split_ifs <;> simp only [unit] <;> omega

theorem short_toNat {time : UInt32} (h : time.toNat < 2 ^ 14 * 86400) :
    (ws_pae_time_to_short_convert time).toNat =
      time.toNat / unit (formatOf time) + formatOf time * 2 ^ 14 := by
  have hvalue := value_lt h
  have hformat := formatOf_lt time
  unfold ws_pae_time_to_short_convert
  rw [UInt16.toNat_or, UInt16.toNat_shiftLeft, UInt16.toNat_ofNat', UInt16.toNat_ofNat',
    Nat.mod_eq_of_lt (show time.toNat / unit (formatOf time) < 2 ^ 16 by omega),
    Nat.mod_eq_of_lt (show formatOf time < 2 ^ 16 by omega),
    show (14 : UInt16).toNat % 16 = 14 by rfl,
    Nat.mod_eq_of_lt (by rw [Nat.shiftLeft_eq]; omega), Nat.or_comm,
    ← Nat.shiftLeft_add_eq_or_of_lt hvalue, Nat.shiftLeft_eq]
  omega

theorem long_lt (short : UInt16) :
    (ws_pae_time_from_short_convert short).toNat < 2 ^ 14 * 86400 := by
  have hvalue : (short &&& 0x3FFF).toNat < 2 ^ 14 := by
    rw [UInt16.toNat_and, show (0x3FFF : UInt16).toNat = 2 ^ 14 - 1 by rfl,
      Nat.and_two_pow_sub_one_eq_mod]
    exact Nat.mod_lt _ (by decide)
  have hunit : unit (short >>> 14).toNat ≤ 86400 := by
    unfold unit
    split <;> omega
  unfold ws_pae_time_from_short_convert
  rw [UInt32.toNat_ofNat']
  have hprod := Nat.mul_le_mul (Nat.le_of_lt_succ hvalue) hunit
  omega

/-- What is read back is the time rounded down to the unit of its format. -/
theorem long_short {time : UInt32} (h : time.toNat < 2 ^ 14 * 86400) :
    (ws_pae_time_from_short_convert (ws_pae_time_to_short_convert time)).toNat =
      time.toNat / unit (formatOf time) * unit (formatOf time) := by
  have hvalue := value_lt h
  have hformat := formatOf_lt time
  have hshort := short_toNat h
  unfold ws_pae_time_from_short_convert
  rw [UInt32.toNat_ofNat', UInt16.toNat_and, UInt16.toNat_shiftRight, hshort,
    show (0x3FFF : UInt16).toNat = 2 ^ 14 - 1 by rfl, Nat.and_two_pow_sub_one_eq_mod,
    show (14 : UInt16).toNat % 16 = 14 by rfl, Nat.shiftRight_eq_div_pow,
    Nat.add_mul_mod_self_right, Nat.mod_eq_of_lt hvalue,
    Nat.add_mul_div_right _ _ (by decide), Nat.div_eq_of_lt hvalue, Nat.zero_add]
  exact Nat.mod_eq_of_lt (Nat.lt_of_le_of_lt (Nat.div_mul_le_self _ _) time.toNat_lt)

/-- The conversion to the short format and back. -/
def stored (time : UInt32) : Nat :=
  (ws_pae_time_from_short_convert (ws_pae_time_to_short_convert time)).toNat

/-- A stored time is no longer than the time, and shorter by less than a unit of its format. -/
def Shortens (time : UInt32) : Prop :=
  stored time ≤ time.toNat ∧ time.toNat < stored time + unit (formatOf time)

theorem unit_pos (format : Nat) : 0 < unit format := by
  unfold unit
  split <;> omega

theorem shortens {time : UInt32} (h : time.toNat < 2 ^ 14 * 86400) : Shortens time := by
  unfold Shortens stored
  rw [long_short h]
  exact ⟨Nat.div_mul_le_self _ _, Nat.lt_div_mul_add (unit_pos _)⟩

/-- The short format keeps the order of the times. -/
theorem short_mono {time1 time2 : UInt32} (h : time1 ≤ time2)
    (hmax : time2.toNat < 2 ^ 14 * 86400) :
    ws_pae_time_to_short_convert time1 ≤ ws_pae_time_to_short_convert time2 := by
  have hle : time1.toNat ≤ time2.toNat := UInt32.le_iff_toNat_le.mp h
  have hvalue1 := value_lt (Nat.lt_of_le_of_lt hle hmax)
  have hvalue2 := value_lt hmax
  rw [UInt16.le_iff_toNat_le, short_toNat (Nat.lt_of_le_of_lt hle hmax), short_toNat hmax]
  have hformat : formatOf time1 ≤ formatOf time2 := by
    unfold formatOf
    split_ifs <;> omega
  rcases Nat.eq_or_lt_of_le hformat with heq | hlt
  · have hdiv := Nat.div_le_div_right (c := unit (formatOf time2)) hle
    rw [heq]
    omega
  · generalize time1.toNat / unit (formatOf time1) = value1 at *
    generalize time2.toNat / unit (formatOf time2) = value2 at *
    omega

/-- Where the order of two times is lost on the way back: the first is near the end of a
format, the second in the first unit of the next one. -/
def Straddles (time1 time2 : UInt32) : Prop :=
  (16381 ≤ time1.toNat ∧ time1.toNat ≤ 16382 ∧ 16383 ≤ time2.toNat ∧ time2.toNat ≤ 16439) ∨
  (982860 ≤ time1.toNat ∧ time1.toNat ≤ 982979 ∧
    982980 ≤ time2.toNat ∧ time2.toNat ≤ 986399) ∨
  (58928400 ≤ time1.toNat ∧ time1.toNat ≤ 58978799 ∧
    58978800 ≤ time2.toNat ∧ time2.toNat ≤ 59011199)

theorem stored_mono_iff {time1 time2 : UInt32} (h : time1 ≤ time2)
    (hmax : time2.toNat < 2 ^ 14 * 86400) :
    stored time1 ≤ stored time2 ↔ ¬Straddles time1 time2 := by
  have hle : time1.toNat ≤ time2.toNat := UInt32.le_iff_toNat_le.mp h
  unfold stored Straddles
  rw [long_short (Nat.lt_of_le_of_lt hle hmax), long_short hmax]
  unfold formatOf
  split_ifs <;> simp only [unit] <;> omega

/-! ## Differences -/

/-- The difference as a signed number of 32 bits, and whether it is taken. -/
def boundedDifference (d : UInt64) : Option UInt32 :=
  let difference := Int.bmod d.toNat (2 ^ 32)
  if difference > secMaximumLifetime then none else some (.ofNat (difference % 2 ^ 32).toNat)

/-- `ws_pae_time_diff_calc` -/
def ws_pae_time_diff_calc (currTime compTime : UInt64) (future : Bool) : Option UInt32 :=
  if currTime < compTime then
    if !future then none else boundedDifference (compTime - currTime)
  else if future then none
  else boundedDifference (currTime - compTime)

/-- The distance of two times. -/
def distance (currTime compTime : UInt64) : Nat :=
  if currTime < compTime then compTime.toNat - currTime.toNat
  else currTime.toNat - compTime.toNat

/-- The comparison time is on the side that was asked for. -/
def OnSide (currTime compTime : UInt64) (future : Bool) : Prop :=
  future = true ↔ currTime < compTime

/-- **The condition** for a difference: one that is too large is so in 32 signed bits. -/
def Fits (d : Nat) : Prop :=
  secMaximumLifetime < d → secMaximumLifetime < d % 2 ^ 32 ∧ d % 2 ^ 32 < 2 ^ 31

/-- What `ws_pae_time_diff_calc` is for. -/
def Exact (currTime compTime : UInt64) (future : Bool) : Prop :=
  ∀ r, ws_pae_time_diff_calc currTime compTime future = some r ↔
    OnSide currTime compTime future ∧ distance currTime compTime ≤ secMaximumLifetime ∧
      r.toNat = distance currTime compTime

theorem boundedDifference_eq (d : UInt64) :
    boundedDifference d =
      if secMaximumLifetime < d.toNat % 2 ^ 32 ∧ d.toNat % 2 ^ 32 < 2 ^ 31 then none
      else some (.ofNat (d.toNat % 2 ^ 32)) := by
  have hmax : secMaximumLifetime = 62208000 := rfl
  unfold boundedDifference
  dsimp only
  by_cases hlow : d.toNat % 2 ^ 32 < 2 ^ 31
  · have hsigned : Int.bmod d.toNat (2 ^ 32) = (d.toNat % 2 ^ 32 : Nat) := by
      rw [Int.bmod_def]
      omega
    rw [hsigned, hmax]
    split_ifs
    · rfl
    · omega
    · omega
    · exact congrArg (fun n => some (UInt32.ofNat n)) (by omega)
  · have hsigned : Int.bmod d.toNat (2 ^ 32) = (d.toNat % 2 ^ 32 : Nat) - 2 ^ 32 := by
      rw [Int.bmod_def]
      omega
    rw [hsigned, hmax, if_neg (by omega), if_neg (by omega)]
    exact congrArg (fun n => some (UInt32.ofNat n)) (by omega)

theorem boundedDifference_iff (d : UInt64) :
    (∀ r, boundedDifference d = some r ↔ d.toNat ≤ secMaximumLifetime ∧ r.toNat = d.toNat) ↔
      Fits d.toNat := by
  have hmax : secMaximumLifetime = 62208000 := rfl
  rw [boundedDifference_eq]
  unfold Fits
  constructor
  · intro h hlong
    by_contra hnone
    have hsome := (h (.ofNat (d.toNat % 2 ^ 32))).mp (if_neg hnone)
    omega
  · intro h r
    split
    · rename_i hover
      refine iff_of_false (by simp) ?_
      omega
    · rename_i hover
      have hshort : d.toNat ≤ secMaximumLifetime := Nat.le_of_not_lt fun hlong => hover (h hlong)
      rw [Option.some.injEq, ← UInt32.toNat_inj, UInt32.toNat_ofNat', Nat.mod_mod,
        Nat.mod_eq_of_lt (by omega)]
      exact ⟨fun heq => ⟨hshort, heq.symm⟩, fun heq => heq.2.symm⟩

theorem exact_iff (currTime compTime : UInt64) (future : Bool) :
    Exact currTime compTime future ↔
      (OnSide currTime compTime future → Fits (distance currTime compTime)) := by
  have hcurr := currTime.toNat_lt
  have hcomp := compTime.toNat_lt
  unfold Exact OnSide ws_pae_time_diff_calc distance
  by_cases hside : currTime < compTime
  · have hlt := UInt64.lt_iff_toNat_lt.mp hside
    have hsub : (compTime - currTime).toNat = compTime.toNat - currTime.toNat :=
      UInt64.toNat_sub_of_le _ _ (UInt64.le_iff_toNat_le.mpr (by omega))
    cases future with
    | false => simp [hside]
    | true =>
        simp only [hside, if_true, true_and, forall_const, Bool.not_true,
          Bool.false_eq_true, if_false]
        rw [← hsub]
        exact boundedDifference_iff _
  · have hle : compTime ≤ currTime := UInt64.not_lt.mp hside
    have hsub : (currTime - compTime).toNat = currTime.toNat - compTime.toNat :=
      UInt64.toNat_sub_of_le _ _ hle
    cases future with
    | true => simp [hside]
    | false =>
        simp only [hside, if_false, Bool.false_eq_true, true_and,
          forall_const]
        rw [← hsub]
        exact boundedDifference_iff _

/-! ## A stored key

The lifetime of one pairwise master key: of the entry in the storage, with the reference time of
its array, and of the entry of the active supplicant while there is one.
-/

structure KeyStorage where
  currentTime : UInt64
  referenceTime : UInt64
  pmkLifetimeSet : Bool
  pmkLifetime : UInt16
  /-- The lifetime of the key at the active supplicant. -/
  active : Option UInt32

inductive Step where
  | slowTimer (seconds : UInt16)
  | write
  | read
  | delete
  | update (modified : Bool)

namespace KeyStorage

/-- The time that has passed since the reference time, where it is taken for a valid one. -/
def time_difference (s : KeyStorage) : Option UInt32 :=
  ws_pae_time_diff_calc s.currentTime s.referenceTime false

/-- `sec_prot_keys_pmk_lifetime_decrement`: the seconds are a byte. -/
def sec_prot_keys_pmk_lifetime_decrement (lifetime : UInt32) (seconds : UInt8) : Option UInt32 :=
  if lifetime > seconds.toUInt32 then some (lifetime - seconds.toUInt32)
  else if lifetime > 0 then none
  else some lifetime

/-- `ws_pae_current_time_update`, and the timer of the supplicant entry. -/
def slow_timer (seconds : UInt16) (s : KeyStorage) : KeyStorage :=
  { s with
    currentTime := s.currentTime + seconds.toUInt64
    active := s.active.bind fun lifetime =>
      sec_prot_keys_pmk_lifetime_decrement lifetime seconds.toUInt8 }

/-- The PMK lifetime in `ws_pae_key_storage_supp_write`: one that is close to the stored one
leaves the stored one as it is. -/
def supp_write (s : KeyStorage) : KeyStorage :=
  match s.time_difference with
  | none => s
  | some timeDifference =>
      match s.active with
      | none => { s with pmkLifetimeSet := false, pmkLifetime := 0 }
      | some lifetime =>
          let pmkLifetime := timeDifference + lifetime
          let shortTime := ws_pae_time_to_short_convert
            (if pmkLifetime.toNat > secMaximumLifetime then 0 else pmkLifetime)
          if !s.pmkLifetimeSet || !ws_pae_time_from_short_time_compare s.pmkLifetime shortTime then
            { s with pmkLifetimeSet := true, pmkLifetime := shortTime }
          else s

/-- `ws_pae_key_storage_array_lifetime_get` -/
def lifetime_get (timeDifference : UInt32) (short : UInt16) : Option UInt32 :=
  let lifetime := ws_pae_time_from_short_convert short
  if timeDifference ≥ lifetime then none else some (lifetime - timeDifference)

/-- The PMK lifetime in `ws_pae_key_storage_supp_read`. -/
def supp_read (s : KeyStorage) : KeyStorage :=
  { s with
    active := s.time_difference.bind fun timeDifference =>
      lifetime_get timeDifference s.pmkLifetime }

/-- `ws_pae_key_storage_array_lifetime_update` -/
def array_lifetime_update (timeDifference : UInt32) (short : UInt16) : Option UInt16 :=
  let lifetime := ws_pae_time_from_short_convert short
  if timeDifference ≥ lifetime then none
  else
    let short' := ws_pae_time_to_short_convert (lifetime - timeDifference)
    if short' = 0 then none else some short'

/-- `ws_pae_key_storage_array_time_update_entry` -/
def array_time_update_entry (timeDifference : UInt32) (s : KeyStorage) : KeyStorage :=
  if s.pmkLifetimeSet then
    match array_lifetime_update timeDifference s.pmkLifetime with
    | none => { s with pmkLifetimeSet := false, pmkLifetime := 0 }
    | some short => { s with pmkLifetime := short }
  else s

/-- `ws_pae_key_storage_array_time_check_and_update_all`: once a day when there is something to
write, else after 31 days. -/
def array_time_check_and_update_all (modified : Bool) (s : KeyStorage) : KeyStorage :=
  match s.time_difference with
  | none => s
  | some timeDifference =>
      if timeDifference.toNat < (if modified then 86400 else 60 * 60 * 24 * 30 + 86400) then s
      else { array_time_update_entry timeDifference s with referenceTime := s.currentTime }

def step (s : KeyStorage) : Step → Option KeyStorage
  | .slowTimer seconds => some (s.slow_timer seconds)
  | .write => some s.supp_write
  | .read => some s.supp_read
  | .delete => some { s with active := none }
  | .update modified => some (s.array_time_check_and_update_all modified)

/-- **The condition** for a run: the timer steps by less than a byte of seconds and the clock
does not wrap, and the storage is used where its distance from the reference time is taken
right. -/
def Timely (s : KeyStorage) : Step → Prop
  | .slowTimer seconds =>
      seconds.toNat < 256 ∧ s.currentTime.toNat + seconds.toNat < 2 ^ 64
  | .delete => True
  | _ => Fits (s.currentTime.toNat - s.referenceTime.toNat)

/-- No lifetime reaches past a given end. -/
structure EndsBy (deadline : Nat) (s : KeyStorage) : Prop where
  referenceTime : s.referenceTime ≤ s.currentTime
  unset : s.pmkLifetimeSet = false → s.pmkLifetime = 0
  stored : s.currentTime.toNat <
      s.referenceTime.toNat + (ws_pae_time_from_short_convert s.pmkLifetime).toNat →
    s.referenceTime.toNat + (ws_pae_time_from_short_convert s.pmkLifetime).toNat ≤ deadline
  active : ∀ lifetime, s.active = some lifetime → lifetime ≠ 0 →
    s.currentTime.toNat + lifetime.toNat ≤ deadline

variable {deadline : Nat} {s : KeyStorage}

theorem EndsBy.delete (h : s.EndsBy deadline) :
    EndsBy deadline { s with active := none } where
  referenceTime := h.referenceTime
  unset := h.unset
  stored := h.stored
  active := by simp

theorem EndsBy.slow_timer (h : s.EndsBy deadline) {seconds : UInt16}
    (hseconds : seconds.toNat < 256)
    (hclock : s.currentTime.toNat + seconds.toNat < 2 ^ 64) :
    (s.slow_timer seconds).EndsBy deadline := by
  have hnow : (s.currentTime + seconds.toUInt64).toNat = s.currentTime.toNat + seconds.toNat := by
    rw [UInt64.toNat_add, UInt16.toNat_toUInt64, Nat.mod_eq_of_lt hclock]
  have hbyte : seconds.toUInt8.toUInt32.toNat = seconds.toNat := by
    rw [UInt8.toNat_toUInt32, UInt16.toNat_toUInt8, Nat.mod_eq_of_lt hseconds]
  have hordered := UInt64.le_iff_toNat_le.mp h.referenceTime
  constructor
  case referenceTime =>
    refine UInt64.le_iff_toNat_le.mpr ?_
    show s.referenceTime.toNat ≤ (s.currentTime + seconds.toUInt64).toNat
    omega
  case unset => exact h.unset
  case stored =>
    intro hlong
    refine h.stored (Nat.lt_of_le_of_lt ?_ hlong)
    show s.currentTime.toNat ≤ (s.currentTime + seconds.toUInt64).toNat
    omega
  case active =>
    intro lifetime' hactive hne
    obtain ⟨lifetime, hlifetime, hdecrement⟩ := Option.bind_eq_some_iff.mp hactive
    show (s.currentTime + seconds.toUInt64).toNat + lifetime'.toNat ≤ deadline
    unfold sec_prot_keys_pmk_lifetime_decrement at hdecrement
    split_ifs at hdecrement with hlong hzero
    · have hle : seconds.toUInt8.toUInt32 ≤ lifetime := UInt32.le_of_lt hlong
      have hsub := UInt32.toNat_sub_of_le _ _ hle
      have hgt := UInt32.lt_iff_toNat_lt.mp hlong
      have hends := h.active lifetime hlifetime (by rintro rfl; simp at hgt)
      rw [← Option.some.inj hdecrement, hsub]
      omega
    · exact absurd (Option.some.inj hdecrement) fun heq => hne (by simpa [← heq] using hzero)

/-- Where the distance is taken right, a valid difference is the distance. -/
theorem EndsBy.time_difference (h : s.EndsBy deadline)
    (hfits : Fits (s.currentTime.toNat - s.referenceTime.toNat)) {timeDifference : UInt32}
    (hdiff : s.time_difference = some timeDifference) :
    s.referenceTime.toNat + timeDifference.toNat = s.currentTime.toNat ∧
      timeDifference.toNat ≤ secMaximumLifetime := by
  have hordered := UInt64.le_iff_toNat_le.mp h.referenceTime
  have hpast : ¬s.currentTime < s.referenceTime := UInt64.not_lt.mpr h.referenceTime
  have hdistance : distance s.currentTime s.referenceTime =
      s.currentTime.toNat - s.referenceTime.toNat := if_neg hpast
  have hexact := (exact_iff s.currentTime s.referenceTime false).mpr fun _ => hdistance ▸ hfits
  obtain ⟨-, hmax, heq⟩ := (hexact timeDifference).mp hdiff
  omega

/-- What is written ends with the key, rounded down; what is too long is written as nothing. -/
theorem written_le {timeDifference lifetime pmkLifetime : UInt32} {deadline now reference : Nat}
    (hnow : reference + timeDifference.toNat = now)
    (hlifetime : lifetime ≠ 0 → now + lifetime.toNat ≤ deadline)
    (hwritten : pmkLifetime = if (timeDifference + lifetime).toNat > secMaximumLifetime then 0
      else timeDifference + lifetime)
    (hlong : now < reference + stored pmkLifetime) :
    reference + stored pmkLifetime ≤ deadline := by
  have hmax : pmkLifetime.toNat ≤ 62208000 := by
    rw [hwritten]
    split_ifs with hover
    · exact Nat.zero_le _
    · exact Nat.le_of_not_gt hover
  have hstored := (shortens (show pmkLifetime.toNat < 2 ^ 14 * 86400 by omega)).1
  have hle : pmkLifetime.toNat ≤ timeDifference.toNat + lifetime.toNat := by
    rw [hwritten]
    split_ifs
    · exact Nat.zero_le _
    · rw [UInt32.toNat_add]
      exact Nat.mod_le _ _
  have hne : lifetime ≠ 0 := by
    rintro rfl
    simp only [UInt32.toNat_zero] at hle
    omega
  have := hlifetime hne
  omega

/-- The stored lifetime alone is exchanged. -/
theorem EndsBy.store (h : s.EndsBy deadline) {pmkLifetimeSet : Bool} {pmkLifetime : UInt16}
    (hunset : pmkLifetimeSet = false → pmkLifetime = 0)
    (hstored : s.currentTime.toNat <
        s.referenceTime.toNat + (ws_pae_time_from_short_convert pmkLifetime).toNat →
      s.referenceTime.toNat + (ws_pae_time_from_short_convert pmkLifetime).toNat ≤ deadline) :
    EndsBy deadline { s with pmkLifetimeSet := pmkLifetimeSet, pmkLifetime := pmkLifetime } where
  referenceTime := h.referenceTime
  unset := hunset
  stored := hstored
  active := h.active

/-- Where nothing is stored nothing reaches past the end. -/
theorem EndsBy.clear (h : s.EndsBy deadline) :
    EndsBy deadline { s with pmkLifetimeSet := false, pmkLifetime := 0 } := by
  refine h.store (fun _ => rfl) fun hlong => ?_
  have hordered := UInt64.le_iff_toNat_le.mp h.referenceTime
  have hzero : (ws_pae_time_from_short_convert 0).toNat = 0 := rfl
  omega

theorem EndsBy.supp_write (h : s.EndsBy deadline)
    (hfits : Fits (s.currentTime.toNat - s.referenceTime.toNat)) :
    s.supp_write.EndsBy deadline := by
  unfold KeyStorage.supp_write
  cases hdiff : s.time_difference with
  | none => exact h
  | some timeDifference =>
      obtain ⟨hnow, -⟩ := h.time_difference hfits hdiff
      cases hactive : s.active with
      | none =>
          have hclear := h.clear
          rw [hactive] at hclear
          exact hclear
      | some lifetime =>
          dsimp only
          generalize hpmk : (if (timeDifference + lifetime).toNat > secMaximumLifetime then 0
            else timeDifference + lifetime) = pmkLifetime
          split
          · have hstore := h.store (show true = false → _ by simp)
              (written_le hnow (h.active lifetime hactive) hpmk.symm)
            rw [hactive] at hstore
            exact hstore
          · exact h

theorem EndsBy.supp_read (h : s.EndsBy deadline)
    (hfits : Fits (s.currentTime.toNat - s.referenceTime.toNat)) :
    s.supp_read.EndsBy deadline := by
  constructor
  case referenceTime => exact h.referenceTime
  case unset => exact h.unset
  case stored => exact h.stored
  case active =>
    intro lifetime hactive hne
    obtain ⟨timeDifference, hdiff, hget⟩ := Option.bind_eq_some_iff.mp hactive
    obtain ⟨hnow, -⟩ := h.time_difference hfits hdiff
    unfold lifetime_get at hget
    dsimp only at hget
    split_ifs at hget with hexpired
    have hlt := UInt32.lt_iff_toNat_lt.mp (UInt32.not_le.mp hexpired)
    have hsub := UInt32.toNat_sub_of_le _ _ (UInt32.le_of_lt (UInt32.not_le.mp hexpired))
    have hstored := h.stored (by omega)
    show s.currentTime.toNat + lifetime.toNat ≤ deadline
    rw [← Option.some.inj hget, hsub]
    omega

/-- A lifetime that is brought up to date ends no later. -/
theorem array_lifetime_update_le {timeDifference : UInt32} {short short' : UInt16}
    (h : array_lifetime_update timeDifference short = some short') :
    timeDifference.toNat + (ws_pae_time_from_short_convert short').toNat ≤
      (ws_pae_time_from_short_convert short).toNat := by
  unfold array_lifetime_update at h
  dsimp only at h
  split_ifs at h with hexpired hzero
  have hlt := UInt32.lt_iff_toNat_lt.mp (UInt32.not_le.mp hexpired)
  have hsub := UInt32.toNat_sub_of_le _ _ (UInt32.le_of_lt (UInt32.not_le.mp hexpired))
  have hlimit := long_lt short
  have hstored : stored (ws_pae_time_from_short_convert short - timeDifference) ≤ _ :=
    (shortens (by omega)).1
  unfold stored at hstored
  rw [← Option.some.inj h]
  omega

/-- The reference time is brought up to date, with the stored lifetime. -/
theorem EndsBy.refresh (h : s.EndsBy deadline) {pmkLifetimeSet : Bool} {pmkLifetime : UInt16}
    (hunset : pmkLifetimeSet = false → pmkLifetime = 0)
    (hstored : 0 < (ws_pae_time_from_short_convert pmkLifetime).toNat →
      s.currentTime.toNat + (ws_pae_time_from_short_convert pmkLifetime).toNat ≤ deadline) :
    EndsBy deadline { s with
      pmkLifetimeSet := pmkLifetimeSet
      pmkLifetime := pmkLifetime
      referenceTime := s.currentTime } where
  referenceTime := UInt64.le_refl _
  unset := hunset
  stored := fun hlong => hstored (Nat.lt_add_right_iff_pos.mp hlong)
  active := h.active

theorem EndsBy.array_time_update_entry (h : s.EndsBy deadline) {timeDifference : UInt32}
    (hnow : s.referenceTime.toNat + timeDifference.toNat = s.currentTime.toNat) :
    EndsBy deadline { s.array_time_update_entry timeDifference with
      referenceTime := s.currentTime } := by
  have hzero : (ws_pae_time_from_short_convert 0).toNat = 0 := rfl
  unfold KeyStorage.array_time_update_entry
  split
  · split
    · have hstored : 0 < (ws_pae_time_from_short_convert 0).toNat →
          s.currentTime.toNat + (ws_pae_time_from_short_convert 0).toNat ≤ deadline := by omega
      exact h.refresh (fun _ => rfl) hstored
    · rename_i hset _ short hupdate
      have hunset : s.pmkLifetimeSet = false → short = 0 := by
        intro hunset
        simp [hunset] at hset
      have hstored : 0 < (ws_pae_time_from_short_convert short).toNat →
          s.currentTime.toNat + (ws_pae_time_from_short_convert short).toNat ≤ deadline := by
        intro hpos
        have hle := array_lifetime_update_le hupdate
        have hends := h.stored (by omega)
        omega
      exact h.refresh hunset hstored
  · rename_i hset
    have hempty := h.unset (Bool.eq_false_iff.mpr hset)
    have hstored : 0 < (ws_pae_time_from_short_convert s.pmkLifetime).toNat →
        s.currentTime.toNat + (ws_pae_time_from_short_convert s.pmkLifetime).toNat ≤ deadline := by
      rw [hempty]
      omega
    exact h.refresh h.unset hstored

theorem EndsBy.array_time_check_and_update_all (h : s.EndsBy deadline)
    (hfits : Fits (s.currentTime.toNat - s.referenceTime.toNat)) (modified : Bool) :
    (s.array_time_check_and_update_all modified).EndsBy deadline := by
  unfold KeyStorage.array_time_check_and_update_all
  cases hdiff : s.time_difference with
  | none => exact h
  | some timeDifference =>
      obtain ⟨hnow, -⟩ := h.time_difference hfits hdiff
      dsimp only
      generalize (if modified = true then 86400 else 60 * 60 * 24 * 30 + 86400) = threshold
      split
      · exact h
      · exact h.array_time_update_entry hnow

theorem EndsBy.step (h : s.EndsBy deadline) {a : Step} (ha : s.Timely a) :
    ∃ t, s.step a = some t ∧ t.EndsBy deadline := by
  cases a with
  | slowTimer seconds => exact ⟨_, rfl, h.slow_timer ha.1 ha.2⟩
  | write => exact ⟨_, rfl, h.supp_write ha⟩
  | read => exact ⟨_, rfl, h.supp_read ha⟩
  | delete => exact ⟨_, rfl, h.delete⟩
  | update modified => exact ⟨_, rfl, h.array_time_check_and_update_all ha modified⟩

/-- A key that has just been made, with the storage of its supplicant empty. -/
def fresh (now reference : UInt64) (lifetime : UInt32) : KeyStorage :=
  { currentTime := now
    referenceTime := reference
    pmkLifetimeSet := false
    pmkLifetime := 0
    active := some lifetime }

theorem fresh_endsBy {now reference : UInt64} (h : reference ≤ now) (lifetime : UInt32) :
    (fresh now reference lifetime).EndsBy (now.toNat + lifetime.toNat) where
  referenceTime := h
  unset := fun _ => rfl
  stored := by
    intro hlong
    have hordered := UInt64.le_iff_toNat_le.mp h
    have hzero : (ws_pae_time_from_short_convert 0).toNat = 0 := rfl
    exact absurd hlong (Nat.not_lt.mpr (by simpa [fresh, hzero] using hordered))
  active := by
    rintro _ ⟨⟩ -
    exact Nat.le_refl _

/-- No cycle makes the key live longer than it was made for: neither the lifetime that is
stored nor the one at the supplicant. -/
theorem run_endsBy {now reference : UInt64} (h : reference ≤ now) (lifetime : UInt32)
    {as : List Step} (hok : Meets step Timely (fresh now reference lifetime) as) :
    ∃ t, run step (fresh now reference lifetime) as = some t ∧
      t.EndsBy (now.toNat + lifetime.toNat) :=
  run_answers _ (fun _ _ hs ha => hs.step ha) (fresh_endsBy h lifetime) hok

end KeyStorage

/-! ## The property -/

/-- **Key time arithmetic.**  Differences are exact and the short format keeps the order of two
lifetimes on the way back exactly when the distance is too large in 32 signed bits as well
where it is too large, and the lifetimes do not straddle the end of a format; a lifetime is
shortened by less than a unit, and a run of cycles at such distances never makes a key live
longer. -/
theorem key_times_iff (currTime compTime : UInt64) (future : Bool) (time1 time2 : UInt32)
    (hle : time1 ≤ time2) (hmax : time2.toNat ≤ secMaximumLifetime)
    (now reference : UInt64) (hpast : reference ≤ now) (lifetime : UInt32) (as : List Step) :
    ((Exact currTime compTime future ∧ Shortens time1 ∧ Shortens time2 ∧
        ws_pae_time_to_short_convert time1 ≤ ws_pae_time_to_short_convert time2 ∧
        stored time1 ≤ stored time2) ↔
      (OnSide currTime compTime future → Fits (distance currTime compTime)) ∧
        ¬Straddles time1 time2) ∧
    (Meets KeyStorage.step KeyStorage.Timely (.fresh now reference lifetime) as →
      ∃ t, run KeyStorage.step (.fresh now reference lifetime) as = some t ∧
        t.EndsBy (now.toNat + lifetime.toNat)) := by
  have hlimit : time2.toNat < 2 ^ 14 * 86400 := Nat.lt_of_le_of_lt hmax (by decide)
  have hlimit1 : time1.toNat < 2 ^ 14 * 86400 :=
    Nat.lt_of_le_of_lt (UInt32.le_iff_toNat_le.mp hle) hlimit
  constructor
  · rw [exact_iff, stored_mono_iff hle hlimit]
    constructor
    · rintro ⟨hexact, -, -, -, hback⟩
      exact ⟨hexact, hback⟩
    · rintro ⟨hexact, hback⟩
      exact ⟨hexact, shortens hlimit1, shortens hlimit, short_mono hle hlimit, hback⟩
  · exact KeyStorage.run_endsBy hpast lifetime

theorem key_times_pair :
    ((Exact 1000 (1000 - 7) false ∧ Shortens 20000 ∧ Shortens 3000000 ∧
        ws_pae_time_to_short_convert 20000 ≤ ws_pae_time_to_short_convert 3000000 ∧
        stored 20000 ≤ stored 3000000) ↔
      (OnSide 1000 (1000 - 7) false → Fits (distance 1000 (1000 - 7))) ∧
        ¬Straddles 20000 3000000) ∧
    (Meets KeyStorage.step KeyStorage.Timely (.fresh 1000 900 20000)
        [.write, .slowTimer 100, .read] →
      ∃ t, run KeyStorage.step (.fresh 1000 900 20000)
          [.write, .slowTimer 100, .read] = some t ∧
        t.EndsBy ((1000 : UInt64).toNat + (20000 : UInt32).toNat)) :=
  key_times_iff 1000 (1000 - 7) false 20000 3000000 (by decide) (by decide) 1000 900 (by decide)
    20000 [.write, .slowTimer 100, .read]

/-- Two times that are more than a hundred years apart are five seconds apart, and a lifetime
one second longer is stored two seconds shorter. -/
theorem far_times_near :
    ¬Exact 4294967301 0 false ∧ ¬stored 16382 ≤ stored 16383 := by
  constructor
  · intro hexact
    have hfar := ((hexact 5).mp (by decide)).2.1
    exact absurd hfar (by decide)
  · decide

end KeyTimes
