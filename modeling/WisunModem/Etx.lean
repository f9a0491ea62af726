import Mathlib.Algebra.GroupWithZero.Nat
import Mathlib.Tactic.Common

/-!
# Expected transmission counts

`etx.c`: what the setters accept, and what transmissions, reports of the remote end, signal
readings, the cache timer and removals do to the ETX of one neighbour.  The moving average is
an eighth of the new sample; values have a fraction of twelve bits.

What the source does not keep is kept beside it: the true numbers of attempts and
acknowledgements of a sample and of failures, whether an ETX has been set since the neighbour
is new, and the calls of the value change callback.
-/

namespace Etx

/-! ## Configuration -/

/-- `etx_info`, as far as the estimator reads it. -/
structure EtxInfo where
  hysteresis : UInt16 := 0
  /-- The value that `hysteresis` was set from. -/
  configured : UInt16 := 0
  callback : Bool := false
  max_etx_update : UInt32 := 0
  max_etx : UInt32 := 0xffff
  init_etx_sample_count : UInt16 := 1
  etx_min_sampling_time : UInt8 := 0
  ext_storage_list_size : UInt8 := 0
  min_attempts_count : UInt8 := 0
  drop_bad_max : UInt8 := 0
  bad_link_level : UInt8 := 0
  etx_cache_storage_list : Bool := false
  cache_sample_requested : Bool := false

namespace EtxInfo

def etx_value_change_callback_register (hysteresis : UInt16) (callback : Bool)
    (info : EtxInfo) : EtxInfo :=
  if hysteresis ≠ 0 ∧ callback = true then
    { info with hysteresis := hysteresis <<< 4, configured := hysteresis, callback := true }
  else info

def etx_storage_list_allocate (etx_storage_size : UInt8) (info : EtxInfo) : EtxInfo :=
  if etx_storage_size = 0 then
    { info with
      etx_cache_storage_list := false
      cache_sample_requested := false
      ext_storage_list_size := 0 }
  else if info.ext_storage_list_size = etx_storage_size then info
  else { info with cache_sample_requested := false, ext_storage_list_size := etx_storage_size }

def etx_cached_etx_parameter_set (min_wait_time etx_min_attempts_count
    init_etx_sample_count : UInt8) (info : EtxInfo) : EtxInfo :=
  if info.ext_storage_list_size = 0 then info
  else if min_wait_time ≠ 0 ∨ etx_min_attempts_count ≠ 0 then
    if init_etx_sample_count = 0 then info
    else
      { info with
        -- a table that is there already is neither replaced nor asked for
        cache_sample_requested := info.cache_sample_requested || !info.etx_cache_storage_list
        etx_cache_storage_list := true
        min_attempts_count := etx_min_attempts_count
        etx_min_sampling_time := min_wait_time
        init_etx_sample_count := init_etx_sample_count.toUInt16 }
  else
    { info with
      cache_sample_requested := false
      etx_cache_storage_list := false
      min_attempts_count := etx_min_attempts_count
      etx_min_sampling_time := min_wait_time
      init_etx_sample_count := init_etx_sample_count.toUInt16 }

def etx_allow_drop_for_poor_measurements (bad_link_level max_allowed_drops : UInt8)
    (info : EtxInfo) : EtxInfo :=
  if info.ext_storage_list_size = 0 then info
  else if bad_link_level = 0 then { info with bad_link_level := 0, drop_bad_max := 0 }
  else if bad_link_level < 2 then info
  else if max_allowed_drops = 0 ∨ max_allowed_drops > 3 then info
  else { info with bad_link_level := bad_link_level, drop_bad_max := max_allowed_drops }

def etx_max_update_set (etx_max_update : UInt16) (info : EtxInfo) : EtxInfo :=
  if etx_max_update ≠ 0 then
    { info with max_etx_update := (etx_max_update / 128).toUInt32 <<< 9 }
  else { info with max_etx_update := 0 }

def etx_max_set (etx_max : UInt16) (info : EtxInfo) : EtxInfo :=
  if etx_max ≠ 0 then { info with max_etx := (etx_max / 128).toUInt32 <<< 12 }
  else { info with max_etx := 0xffff }

end EtxInfo

inductive Setter where
  | valueChangeCallback (hysteresis : UInt16) (callback : Bool)
  | storageList (etx_storage_size : UInt8)
  | cachedParameter (min_wait_time etx_min_attempts_count init_etx_sample_count : UInt8)
  | allowDrop (bad_link_level max_allowed_drops : UInt8)
  | maxUpdate (etx_max_update : UInt16)
  | max (etx_max : UInt16)

def EtxInfo.set (info : EtxInfo) : Setter → EtxInfo
  | .valueChangeCallback hysteresis callback =>
      info.etx_value_change_callback_register hysteresis callback
  | .storageList size => info.etx_storage_list_allocate size
  | .cachedParameter wait attempts samples =>
      info.etx_cached_etx_parameter_set wait attempts samples
  | .allowDrop level drops => info.etx_allow_drop_for_poor_measurements level drops
  | .maxUpdate m => info.etx_max_update_set m
  | .max m => info.etx_max_set m

/-- The configuration after calls of the setters. -/
def configure (setters : List Setter) : EtxInfo :=
  setters.foldl EtxInfo.set {}

/-- What every accepted configuration has. -/
structure EtxInfo.Accepted (info : EtxInfo) : Prop where
  samples : info.cache_sample_requested = true → 1 ≤ info.init_etx_sample_count.toNat
  update : info.max_etx_update = 0 ∨ 512 ≤ info.max_etx_update.toNat
  hysteresis : info.hysteresis.toNat = info.configured.toNat * 16 % 2 ^ 16
  registered : info.callback = true → info.configured ≠ 0
  callback : info.hysteresis ≠ 0 → info.callback = true

theorem EtxInfo.Accepted.set {info : EtxInfo} (h : info.Accepted) (setter : Setter) :
    (info.set setter).Accepted := by
  cases setter with
  | valueChangeCallback hysteresis callback =>
      unfold EtxInfo.set etx_value_change_callback_register
      dsimp only
      split_ifs with hset
      · refine ⟨h.samples, h.update, ?_, fun _ => hset.1, fun _ => rfl⟩
        show (hysteresis <<< 4).toNat = hysteresis.toNat * 16 % 2 ^ 16
        rw [UInt16.toNat_shiftLeft, Nat.shiftLeft_eq]
        rfl
      · exact h
  | storageList size =>
      unfold EtxInfo.set etx_storage_list_allocate
      dsimp only
      split_ifs
      · exact ⟨fun hcached => (nomatch hcached), h.update, h.hysteresis, h.registered, h.callback⟩
      · exact h
      · exact ⟨fun hcached => (nomatch hcached), h.update, h.hysteresis, h.registered, h.callback⟩
  | cachedParameter wait attempts samples =>
      unfold EtxInfo.set etx_cached_etx_parameter_set
      dsimp only
      split_ifs with _ _ hzero
      · exact h
      · exact h
      · refine ⟨fun _ => ?_, h.update, h.hysteresis, h.registered, h.callback⟩
        show 1 ≤ samples.toUInt16.toNat
        rw [UInt8.toNat_toUInt16]
        exact Nat.one_le_iff_ne_zero.mpr fun heq => hzero (UInt8.toNat_inj.mp heq)
      · exact ⟨fun hcached => (nomatch hcached), h.update, h.hysteresis, h.registered, h.callback⟩
  | allowDrop level drops =>
      unfold EtxInfo.set etx_allow_drop_for_poor_measurements
      dsimp only
      split_ifs <;> exact ⟨h.samples, h.update, h.hysteresis, h.registered, h.callback⟩
  | maxUpdate m =>
      unfold EtxInfo.set etx_max_update_set
      dsimp only
      split_ifs
      · refine ⟨h.samples, ?_, h.hysteresis, h.registered, h.callback⟩
        show (m / 128).toUInt32 <<< 9 = 0 ∨ 512 ≤ ((m / 128).toUInt32 <<< 9).toNat
        have hlt := m.toNat_lt
        rw [← UInt32.toNat_inj, UInt32.toNat_shiftLeft, Nat.shiftLeft_eq, UInt16.toNat_toUInt32,
          UInt16.toNat_div, show (9 : UInt32).toNat % 32 = 9 by rfl,
          show (128 : UInt16).toNat = 128 by rfl, show (0 : UInt32).toNat = 0 by rfl]
        omega
      · exact ⟨h.samples, Or.inl rfl, h.hysteresis, h.registered, h.callback⟩
  | max m =>
      unfold EtxInfo.set etx_max_set
      dsimp only
      split_ifs <;> exact ⟨h.samples, h.update, h.hysteresis, h.registered, h.callback⟩

theorem accepted_configure (setters : List Setter) : (configure setters).Accepted := by
  have hall : ∀ {info : EtxInfo}, info.Accepted → (setters.foldl EtxInfo.set info).Accepted := by
    induction setters with
    | nil => exact fun h => h
    | cons setter rest ih => exact fun h => ih (h.set setter)
  apply hall
  exact ⟨fun hcached => (nomatch hcached), Or.inl rfl, rfl, fun h => (nomatch h),
    fun h => absurd rfl h⟩

/-! ## Neighbours -/

/-- A call of the value change callback, with the values it is called with. -/
inductive Report where
  | change (previous_etx current_etx : UInt16)
  | removal (previous_etx : UInt16)
deriving DecidableEq

/-- `etx_storage_t` and `etx_sample_storage_t` of one neighbour. -/
structure Neighbour where
  etx : UInt16 := 0
  stored_diff_etx : UInt16 := 0
  remote_incoming_idr : UInt8 := 0
  /-- 5 bits -/
  accumulated_failures : UInt8 := 0
  tmp_etx : Bool := false
  /-- 3 bits -/
  etx_samples : UInt8 := 0
  /-- 2 bits -/
  drop_bad_count : UInt8 := 0
  attempts_count : UInt16 := 0
  etx_timer : UInt8 := 0
  received_acks : UInt8 := 0
  transition_count : UInt8 := 0
  /-- The true number of attempts of the sample. -/
  attempts : Nat := 0
  /-- The true number of its acknowledgements. -/
  acks : Nat := 0
  /-- The true number of attempts that have failed since the last success. -/
  failures : Nat := 0
  /-- An ETX has been set. -/
  known : Bool := false
  /-- The ETX that was reported last. -/
  reported : Option UInt16 := none
  /-- All reports, the latest first. -/
  reports : List Report := []

/-- `etx_current_calc`: an eighth of the failures is added. -/
def etx_current_calc (etx : UInt16) (accumulated_failures : UInt8) : UInt16 :=
  if accumulated_failures = 0 then etx
  else
    let current_etx := etx.toNat + accumulated_failures.toNat * 2 ^ 9
    if current_etx > 0xffff then 0xffff else .ofNat current_etx

def isqrtLoop : Nat → UInt32 → UInt32 → UInt32 → UInt32
  | 0, _, _, root => root
  | n + 1, place, remainder, root =>
      let (remainder, root) :=
        if remainder ≥ root + place then (remainder - root - place, root + (place <<< 1))
        else (remainder, root)
      isqrtLoop n (place >>> 2) remainder (root >>> 1)

/-- `isqrt32`: the places are the sixteen powers of four; one that is larger than the number
leaves the root at zero. -/
def isqrt32 (n : UInt32) : UInt32 :=
  isqrtLoop 16 0x40000000 n 0

/-- `etx_dbm_lqi_calc`: what the driver makes of a reading, else one from the reading. -/
def etx_dbm_lqi_calc (driver : Option UInt16) (lqi : UInt8) (dbm : Int8) : UInt16 :=
  match driver with
  | some result => result <<< 4
  | none => UInt16.ofInt (-dbm.toInt * (256 - lqi.toNat)) >>> 1 + 0x1000

namespace Neighbour

variable (info : EtxInfo)

/-- The ETX with the failures since. -/
def current_etx (n : Neighbour) : UInt16 := etx_current_calc n.etx n.accumulated_failures

/-- The ETX has gone so far from the stored one that the callback is due. -/
def changed (n : Neighbour) : Bool :=
  if n.current_etx > n.stored_diff_etx then
    n.current_etx - n.stored_diff_etx ≥ info.hysteresis ||
      (n.current_etx.toUInt32 == info.max_etx && n.stored_diff_etx.toUInt32 != info.max_etx)
  else n.current_etx < n.stored_diff_etx &&
    n.stored_diff_etx - n.current_etx ≥ info.hysteresis

def etx_value_change_callback_needed_check (n : Neighbour) : Neighbour :=
  if info.hysteresis = 0 then n
  else if n.changed info then
    { n with
      stored_diff_etx := n.current_etx
      reported := some n.current_etx
      reports := .change (n.stored_diff_etx >>> 4) (n.current_etx >>> 4) :: n.reports }
  else n

def etx_cache_entry_init (n : Neighbour) : Neighbour :=
  if info.cache_sample_requested then
    { n with
      attempts_count := 0
      transition_count := 0
      etx_timer := info.etx_min_sampling_time
      received_acks := 0
      attempts := 0
      acks := 0 }
  else n

/-- The stored value to compare with, where there is none yet. -/
def store_diff (n : Neighbour) : Neighbour :=
  if info.hysteresis ≠ 0 ∧ n.stored_diff_etx = 0 then { n with stored_diff_etx := n.etx } else n

/-- An eighth of the attempts for each acknowledgement, up to the largest update. -/
def sample (attempts : UInt16) (acks_rx : UInt8) : Nat :=
  let etx := if acks_rx = 0 then 0xffff else attempts.toNat * 2 ^ 9 / acks_rx.toNat
  if info.max_etx_update ≠ 0 ∧ etx > info.max_etx_update.toNat then info.max_etx_update.toNat
  else etx

/-- The new ETX: the first samples replace the old one where samples are cached. -/
def average (n : Neighbour) (attempts : UInt16) (acks_rx : UInt8) : Nat :=
  let etx :=
    if info.cache_sample_requested = true ∧
        n.etx_samples.toNat ≤ info.init_etx_sample_count.toNat then
      sample info attempts acks_rx * 2 ^ 3
    else sample info attempts acks_rx + (n.etx.toNat - n.etx.toNat / 2 ^ 3)
  if etx > info.max_etx.toNat then info.max_etx.toNat else etx

def etx_calculation (attempts : UInt16) (acks_rx : UInt8) (n : Neighbour) : Neighbour :=
  let enough := info.init_etx_sample_count.toNat ≤ n.etx_samples.toNat
  let n := if enough then n.store_diff info else n
  let n :=
    { n with
      tmp_etx := false
      etx := .ofNat (n.average info attempts acks_rx)
      drop_bad_count := 0
      known := true }
  if enough then (n.etx_cache_entry_init info).etx_value_change_callback_needed_check info else n

/-- The timer of `etx_update_possible`. -/
def count_down (time_update : UInt16) (n : Neighbour) : Neighbour :=
  if n.etx_timer ≠ 0 ∧ time_update ≠ 0 then
    { n with
      etx_timer :=
        if time_update ≥ n.etx_timer.toUInt16 then 0 else n.etx_timer - time_update.toUInt8 }
  else n

/-- The answer of `etx_update_possible`. -/
def update_possible (time_update : UInt16) (n : Neighbour) : Bool :=
  if n.etx_samples.toNat = info.init_etx_sample_count.toNat ∧ time_update = 0 then true
  else if n.etx_samples.toNat > info.init_etx_sample_count.toNat ∧
      (n.etx_timer = 0 ∨ n.attempts_count = 0xffff ∨ n.received_acks = 0xff) then
    n.transition_count ≥ info.min_attempts_count || n.transition_count != n.received_acks
  else false

def etx_cache_sample_update (attempts : UInt8) (ack_rx : Bool) (n : Neighbour) : Neighbour :=
  { n with
    attempts_count := n.attempts_count + attempts.toUInt16
    transition_count := n.transition_count + 1
    received_acks := if ack_rx then n.received_acks + 1 else n.received_acks
    attempts := n.attempts + attempts.toNat
    acks := if ack_rx then n.acks + 1 else n.acks }

/-- `etx_drop_bad_sample`, where it drops one. -/
def etx_drop_bad_sample (attempts : UInt8) (success : Bool) (n : Neighbour) : Bool :=
  info.bad_link_level ≠ 0 && success && attempts ≥ info.bad_link_level &&
    n.drop_bad_count < info.drop_bad_max

/-- The samples that a transmission counts up to. -/
def samples_next (n : Neighbour) : UInt8 :=
  if n.etx_samples < 7 then n.etx_samples + 1 else n.etx_samples

/-- A transmission where samples are cached. -/
def cached_update (attempts : UInt8) (success : Bool) (n : Neighbour) : Neighbour :=
  let n :=
    { n.etx_cache_sample_update attempts success with accumulated_failures := 0, failures := 0 }
  let n := n.count_down 0
  if n.update_possible info 0 then n.etx_calculation info n.attempts_count n.received_acks
  else n

/-- A transmission where they are not: failures are added up until there is a success or there
are too many. -/
def direct_update (attempts : UInt8) (success : Bool) (n : Neighbour) : Neighbour :=
  if !success && n.accumulated_failures.toNat + attempts.toNat < 32 then
    { n with
      accumulated_failures :=
        .ofNat ((n.accumulated_failures.toNat + attempts.toNat) % 2 ^ 5)
      failures := n.failures + attempts.toNat }
  else
    let count := attempts.toUInt16 + n.accumulated_failures.toUInt16
    let n := { n with accumulated_failures := 0, failures := 0 }
    if n.etx ≠ 0 then n.etx_calculation info count 1 else n

def etx_transm_attempts_update (attempts : UInt8) (success : Bool) (n : Neighbour) :
    Neighbour :=
  if n.etx_samples < 7 ∧ n.etx_drop_bad_sample info attempts success = true then
    { n with drop_bad_count := n.drop_bad_count + 1 }
  else
    let n := { n with etx_samples := n.samples_next }
    if info.cache_sample_requested then n.cached_update info attempts success
    else n.direct_update info attempts success

/-- An eighth of what the remote end has seen. -/
def remote_average (remote_incoming_idr : UInt8) (n : Neighbour) : Nat :=
  let remote_etx := remote_incoming_idr.toNat * remote_incoming_idr.toNat * 2 ^ 2
  let etx := n.etx.toNat - n.etx.toNat / 2 ^ 3 + remote_etx / 2 ^ 3
  if etx > 0xffff then 0xffff else etx

def etx_remote_incoming_idr_update (remote_incoming_idr : UInt8) (n : Neighbour) : Neighbour :=
  let n :=
    if n.etx ≠ 0 then
      let n := n.store_diff info
      { n with etx := .ofNat (n.remote_average remote_incoming_idr) }
        |>.etx_value_change_callback_needed_check info
    else n
  { n with remote_incoming_idr := remote_incoming_idr }

/-- The first ETX of a neighbour, from a signal reading. -/
def signal_etx (etx : UInt16) (n : Neighbour) : Neighbour :=
  if n.etx = 0 then
    { n with
      etx := etx
      stored_diff_etx := etx
      tmp_etx := true
      known := true
      reported := if info.callback then some etx else n.reported
      reports := if info.callback then .change 0 (etx >>> 4) :: n.reports else n.reports }
  else n

/-- An ETX with the incoming rate of the remote end. -/
def folded (etx : UInt16) (remote_incoming_idr : UInt8) : Nat :=
  ((isqrt32 (etx.toUInt32 <<< 16) >>> 2) * (remote_incoming_idr.toUInt32 <<< 7)).toNat / 2 ^ 12

/-- `etx_lqi_dbm_update` -/
def etx_lqi_dbm_update (driver : Option UInt16) (lqi : UInt8) (dbm : Int8) (n : Neighbour) :
    Neighbour :=
  let n := n.signal_etx info (etx_dbm_lqi_calc driver lqi dbm)
  if n.remote_incoming_idr ≠ 0 ∧ n.tmp_etx = true then
    { n with tmp_etx := false, etx := .ofNat (folded n.etx n.remote_incoming_idr) }
      |>.etx_value_change_callback_needed_check info
  else n

/-- `etx_neighbor_remove`: where no callback is registered the neighbour is kept. -/
def etx_neighbor_remove (n : Neighbour) : Neighbour :=
  if info.callback then
    let previous : UInt16 :=
      if n.stored_diff_etx >>> 4 = 0 then 0xffff else n.stored_diff_etx >>> 4
    { reports := if n.etx ≠ 0 then .removal previous :: n.reports else n.reports }
  else n

/-- `etx_cache_timer` for one neighbour of the list. -/
def etx_cache_timer (seconds_update : UInt16) (n : Neighbour) : Neighbour :=
  if info.cache_sample_requested = true ∧ n.tmp_etx = false then
    let n := n.count_down seconds_update
    if n.update_possible info seconds_update then
      n.etx_calculation info n.attempts_count n.received_acks
    else n
  else n

end Neighbour

/-! ## Runs -/

inductive Event where
  | transmission (attempts : UInt8) (success : Bool)
  | remote (remote_incoming_idr : UInt8)
  | signal (driver : Option UInt16) (lqi : UInt8) (dbm : Int8)
  | timer (seconds_update : UInt16)
  | remove

def Neighbour.step (info : EtxInfo) (n : Neighbour) : Event → Neighbour
  | .transmission attempts success => n.etx_transm_attempts_update info attempts success
  | .remote idr => n.etx_remote_incoming_idr_update info idr
  | .signal driver lqi dbm => n.etx_lqi_dbm_update info driver lqi dbm
  | .timer seconds => n.etx_cache_timer info seconds
  | .remove => n.etx_neighbor_remove info

/-- The neighbours by their attribute index; an index beyond the table is not looked at. -/
def step (info : EtxInfo) (table : UInt8 → Neighbour) (a : UInt8 × Event) :
    Option (UInt8 → Neighbour) :=
  if a.1 < info.ext_storage_list_size then
    some fun i => if i = a.1 then (table i).step info a.2 else table i
  else some table

end Etx
