import WisunModem.Etx
import WisunModem.Runs

/-!
# The ETX estimator

What every run of `etx.c` keeps for each neighbour, where its calls meet a condition:

* `Estimated` — the ETX is in its range, the counters are exact, the reports are a chain and
  the value is near the one reported last;
* `Kept` — the invariant, with one lemma for each call;
* `run_estimated` — the runs of a table of neighbours.
-/

namespace Etx

open Runs

/-! ## What an estimate keeps -/

/-- Each report takes up the value of the one before, as long as the neighbour stays. -/
def Report.Follows (previous_etx : UInt16) : List Report → Prop
  | .change _ current_etx :: _ => previous_etx = current_etx
  | _ => True

def Report.Chained : List Report → Prop
  | [] => True
  | .change previous_etx _ :: rest => Follows previous_etx rest ∧ Chained rest
  | .removal previous_etx :: rest => Follows previous_etx rest ∧ Chained rest

/-- From 1.0 to the configured maximum. -/
def EtxInfo.InRange (info : EtxInfo) (etx : Nat) : Prop :=
  0x1000 ≤ etx ∧ etx ≤ info.max_etx.toNat

/-- The two values differ by less than the configured hysteresis. -/
def EtxInfo.Near (info : EtxInfo) (etx1 etx2 : UInt16) : Prop :=
  etx1.toNat < etx2.toNat + info.configured.toNat * 16 ∧
    etx2.toNat < etx1.toNat + info.configured.toNat * 16

/-- What an estimator is to keep for a neighbour. -/
structure Neighbour.Estimated (info : EtxInfo) (n : Neighbour) : Prop where
  range : n.known = true → info.InRange n.etx.toNat
  attempts : n.attempts_count.toNat = n.attempts
  acks : n.received_acks.toNat = n.acks
  failures : n.accumulated_failures.toNat = n.failures
  chained : Report.Chained n.reports
  near : ∀ etx, n.reported = some etx → info.Near n.current_etx etx

/-- **The condition** for a step.  A transmission has at least one attempt and the counters of a
cached sample take it; where samples are not cached but changes are reported, it is not added to
the failures and is one of enough samples.  What the remote end has seen, or a signal reading
that gives the first ETX, is itself in the range. -/
def Neighbour.Allowed (info : EtxInfo) (n : Neighbour) : Event → Prop
  | .transmission attempts success =>
      (n.etx_samples < 7 ∧ n.etx_drop_bad_sample info attempts success = true) ∨
        1 ≤ attempts.toNat ∧
        (info.cache_sample_requested = true →
          n.attempts_count.toNat + attempts.toNat ≤ 0xffff ∧
            (success = true → n.received_acks.toNat < 0xff)) ∧
        (info.cache_sample_requested = false → info.callback = true →
          (success = true ∨ 32 ≤ n.accumulated_failures.toNat + attempts.toNat) ∧
            info.init_etx_sample_count.toNat ≤ n.samples_next.toNat)
  | .remote idr =>
      n.etx ≠ 0 → 0x1000 ≤ idr.toNat * idr.toNat * 2 ^ 2 ∧
        (idr.toNat * idr.toNat * 2 ^ 2 ≤ info.max_etx.toNat ∨ info.max_etx = 0xffff)
  | .signal driver lqi dbm =>
      (n.etx = 0 → info.InRange (etx_dbm_lqi_calc driver lqi dbm).toNat) ∧
        (n.remote_incoming_idr ≠ 0 →
          (n.signal_etx info (etx_dbm_lqi_calc driver lqi dbm)).tmp_etx = true →
          info.InRange (folded (n.signal_etx info (etx_dbm_lqi_calc driver lqi dbm)).etx
            n.remote_incoming_idr))
  | .timer _ => True
  | .remove => True

instance (info : EtxInfo) (etx : Nat) : Decidable (info.InRange etx) :=
  inferInstanceAs (Decidable (_ ∧ _))

instance (info : EtxInfo) (n : Neighbour) : ∀ e, Decidable (n.Allowed info e)
  | .transmission .. => inferInstanceAs (Decidable (_ ∨ _))
  | .remote _ => inferInstanceAs (Decidable (_ → _))
  | .signal .. => inferInstanceAs (Decidable (_ ∧ _))
  | .timer _ => isTrue trivial
  | .remove => isTrue trivial

/-- The part of the invariant that does not speak of the ETX itself. -/
structure Neighbour.Ledger (info : EtxInfo) (n : Neighbour) : Prop where
  attempts : n.attempts_count.toNat = n.attempts
  acks : n.received_acks.toNat = n.acks
  failures : n.accumulated_failures.toNat = n.failures
  acks_le : n.acks ≤ n.attempts
  quiet : info.cache_sample_requested = true ∨ info.callback = true → n.accumulated_failures = 0
  stored : ∀ etx, n.reported = some etx →
    n.stored_diff_etx = etx ∧ 0x1000 ≤ etx.toNat ∧ info.callback = true
  chained : Report.Chained n.reports
  follows : ∀ etx, (∀ last, n.reported = some last → etx = last >>> 4) →
    Report.Follows etx n.reports

/-- The invariant: an ETX that is known is in the range and near what was reported, and with
enough cached samples it is known. -/
structure Neighbour.Kept (info : EtxInfo) (n : Neighbour) : Prop extends n.Ledger info where
  range : n.known = true → info.InRange n.etx.toNat
  unknown : n.known = false → n.etx = 0 ∧ n.reported = none
  settled : info.cache_sample_requested = true →
    info.init_etx_sample_count.toNat ≤ n.etx_samples.toNat → n.known = true
  near : ∀ etx, n.reported = some etx → info.Near n.current_etx etx

/-- The maximum is from 1.0 to the largest ETX of 16 bits. -/
def EtxInfo.Calibrated (info : EtxInfo) : Prop :=
  0x1000 ≤ info.max_etx.toNat ∧ info.max_etx.toNat ≤ 0xffff

namespace Neighbour

variable {info : EtxInfo} {n : Neighbour}

theorem Kept.estimated (h : n.Kept info) : n.Estimated info :=
  ⟨h.range, h.attempts, h.acks, h.failures, h.chained, h.near⟩

theorem Kept.known (h : n.Kept info) (hetx : n.etx ≠ 0) : n.known = true := by
  cases hknown : n.known with
  | true => rfl
  | false => exact absurd (h.unknown hknown).1 hetx

theorem Kept.unreported (h : n.Kept info) (hetx : n.etx = 0) :
    n.known = false ∧ n.reported = none := by
  cases hknown : n.known with
  | true =>
      have hlow := (h.range hknown).1
      rw [hetx] at hlow
      exact absurd hlow (by decide)
  | false => exact ⟨rfl, (h.unknown hknown).2⟩

theorem ofNat_toNat (hinfo : info.Calibrated) {etx : Nat} (h : info.InRange etx) :
    (UInt16.ofNat etx).toNat = etx := by
  have hmax := hinfo.2
  have hle := h.2
  rw [UInt16.toNat_ofNat', Nat.mod_eq_of_lt (by omega)]

theorem le_current (h : 0x1000 ≤ n.etx.toNat) : 0x1000 ≤ n.current_etx.toNat := by
  unfold current_etx etx_current_calc
  dsimp only
  split_ifs
  · exact h
  · decide
  · rw [UInt16.toNat_ofNat', Nat.mod_eq_of_lt (by omega)]
    omega

/-! ### New values -/

theorem le_sample (haccepted : info.Accepted) {attempts : UInt16} {acks_rx : UInt8}
    (h : acks_rx.toNat ≤ attempts.toNat) : 2 ^ 9 ≤ sample info attempts acks_rx := by
  have hupdate := haccepted.update
  have hshare : 2 ^ 9 ≤ if acks_rx = 0 then 0xffff else attempts.toNat * 2 ^ 9 / acks_rx.toNat := by
    split_ifs with hzero
    · decide
    · have hpos : 0 < acks_rx.toNat :=
        Nat.pos_of_ne_zero fun heq => hzero (UInt8.toNat_inj.mp heq)
      rw [Nat.le_div_iff_mul_le hpos, Nat.mul_comm]
      exact Nat.mul_le_mul_right _ h
  unfold sample
  dsimp only
  split_ifs at hshare ⊢ with _ hlimit hlimit
  · exact hupdate.resolve_left hlimit.1
  · exact hshare
  · exact hupdate.resolve_left hlimit.1
  · exact hshare

theorem average_range (haccepted : info.Accepted) (hinfo : info.Calibrated) {attempts : UInt16}
    {acks_rx : UInt8} (h : acks_rx.toNat ≤ attempts.toNat)
    (hold : info.cache_sample_requested = true ∧
      n.etx_samples.toNat ≤ info.init_etx_sample_count.toNat ∨ 0x1000 ≤ n.etx.toNat) :
    info.InRange (n.average info attempts acks_rx) := by
  have hmin := hinfo.1
  have hsample := le_sample haccepted h
  unfold average EtxInfo.InRange
  dsimp only
  split_ifs with hfirst hover hover
  · omega
  · omega
  · omega
  · have hetx := hold.resolve_left hfirst
    omega

theorem remote_range (hinfo : info.Calibrated) {idr : UInt8} (hetx : info.InRange n.etx.toNat)
    (hlow : 0x1000 ≤ idr.toNat * idr.toNat * 2 ^ 2)
    (hhigh : idr.toNat * idr.toNat * 2 ^ 2 ≤ info.max_etx.toNat ∨ info.max_etx = 0xffff) :
    info.InRange (n.remote_average idr) := by
  obtain ⟨hmin, hmax⟩ := hetx
  have hlimit := hinfo.2
  unfold remote_average EtxInfo.InRange
  generalize idr.toNat * idr.toNat * 2 ^ 2 = remote at *
  dsimp only
  rcases hhigh with hhigh | hall
  · split_ifs <;> omega
  · have hfull : info.max_etx.toNat = 0xffff := by
      rw [hall]
      rfl
    split_ifs <;> omega

/-! ### The callback -/

theorem near_self (haccepted : info.Accepted) (hcallback : info.callback = true) (etx : UInt16) :
    info.Near etx etx := by
  have hne := mt UInt16.toNat_inj.mp (haccepted.registered hcallback)
  have hpos : 0 < info.configured.toNat := Nat.pos_of_ne_zero hne
  exact ⟨by omega, by omega⟩

/-- Values that do not call for a report are near. -/
theorem near_of_not_changed (haccepted : info.Accepted) (hhysteresis : info.hysteresis ≠ 0)
    (h : n.changed info = false) : info.Near n.current_etx n.stored_diff_etx := by
  have hshift := haccepted.hysteresis
  have hne := mt UInt16.toNat_inj.mp hhysteresis
  have hpos : 0 < info.hysteresis.toNat := Nat.pos_of_ne_zero hne
  have hle : info.hysteresis.toNat ≤ info.configured.toNat * 16 :=
    hshift ▸ Nat.mod_le _ _
  unfold EtxInfo.Near
  unfold changed at h
  split_ifs at h with hup
  · have hlt := UInt16.lt_iff_toNat_lt.mp hup
    have hsub := UInt16.toNat_sub_of_le _ _ (UInt16.le_of_lt hup)
    have hsmall : n.current_etx - n.stored_diff_etx < info.hysteresis := by
      simpa using (Bool.or_eq_false_iff.mp h).1
    have hsmall' := UInt16.lt_iff_toNat_lt.mp hsmall
    omega
  · by_cases hdown : n.current_etx < n.stored_diff_etx
    · have hlt := UInt16.lt_iff_toNat_lt.mp hdown
      have hsub := UInt16.toNat_sub_of_le _ _ (UInt16.le_of_lt hdown)
      have hsmall : n.stored_diff_etx - n.current_etx < info.hysteresis := by
        simpa [hdown] using h
      have hsmall' := UInt16.lt_iff_toNat_lt.mp hsmall
      omega
    · have heq := UInt16.le_antisymm (UInt16.not_lt.mp hup) (UInt16.not_lt.mp hdown)
      rw [heq]
      omega

/-- **The check** leaves the value near the reported one, and its report follows the last. -/
theorem Ledger.check (h : n.Ledger info) (haccepted : info.Accepted) (hknown : n.known = true)
    (hrange : info.InRange n.etx.toNat) :
    (n.etx_value_change_callback_needed_check info).Kept info := by
  unfold etx_value_change_callback_needed_check
  split_ifs with hnone hchanged
  · refine ⟨h, fun _ => hrange, fun hno => (nomatch hknown.symm.trans hno), fun _ _ => hknown, ?_⟩
    intro etx hreported
    have hcallback := (h.stored etx hreported).2.2
    have hne := mt UInt16.toNat_inj.mp (haccepted.registered hcallback)
    have hshift := haccepted.hysteresis
    have hlt := n.current_etx.toNat_lt
    have hlt' := etx.toNat_lt
    rw [hnone] at hshift
    have hwide : 2 ^ 16 ≤ info.configured.toNat * 16 := by
      have hzero : (0 : UInt16).toNat = 0 := rfl
      have hpos : 0 < info.configured.toNat := Nat.pos_of_ne_zero hne
      omega
    exact ⟨by omega, by omega⟩
  · have hcallback := haccepted.callback hnone
    refine ⟨⟨h.attempts, h.acks, h.failures, h.acks_le, h.quiet, ?_, ⟨?_, h.chained⟩, ?_⟩,
      fun _ => hrange, fun hno => (nomatch hknown.symm.trans hno), fun _ _ => hknown, ?_⟩
    · intro etx hetx
      cases hetx
      exact ⟨rfl, le_current hrange.1, hcallback⟩
    · exact h.follows _ fun last hlast => by rw [(h.stored last hlast).1]
    · exact fun etx hlast => hlast _ rfl
    · intro etx hetx
      cases hetx
      exact near_self haccepted hcallback _
  · refine ⟨h, fun _ => hrange, fun hno => (nomatch hknown.symm.trans hno), fun _ _ => hknown, ?_⟩
    intro etx hreported
    rw [← (h.stored etx hreported).1]
    exact near_of_not_changed haccepted hnone (Bool.eq_false_iff.mpr hchanged)

/-! ### Steps -/

theorem Ledger.store_diff (h : n.Ledger info) : (n.store_diff info).Ledger info := by
  unfold Neighbour.store_diff
  split_ifs with hempty
  · refine ⟨h.attempts, h.acks, h.failures, h.acks_le, h.quiet, ?_, h.chained, h.follows⟩
    intro etx hreported
    obtain ⟨hstored, hlow, -⟩ := h.stored etx hreported
    rw [← hstored, hempty.2] at hlow
    exact absurd hlow (by decide)
  · exact h

theorem Ledger.cache_entry_init (h : n.Ledger info) :
    (n.etx_cache_entry_init info).Ledger info := by
  unfold etx_cache_entry_init
  split_ifs
  · exact ⟨rfl, rfl, h.failures, Nat.le_refl _, h.quiet, h.stored, h.chained, h.follows⟩
  · exact h

theorem cache_entry_init_etx :
    (n.etx_cache_entry_init info).etx = n.etx ∧
      (n.etx_cache_entry_init info).known = n.known := by
  unfold etx_cache_entry_init
  split_ifs <;> exact ⟨rfl, rfl⟩

theorem store_diff_average (attempts : UInt16) (acks_rx : UInt8) :
    (n.store_diff info).average info attempts acks_rx = n.average info attempts acks_rx := by
  unfold Neighbour.store_diff
  split_ifs <;> rfl

/-- **A new average** keeps the invariant, where it is checked or nothing is reported. -/
theorem Ledger.calculation (h : n.Ledger info) (haccepted : info.Accepted)
    (hinfo : info.Calibrated) {attempts : UInt16} {acks_rx : UInt8}
    (hacks : acks_rx.toNat ≤ attempts.toNat)
    (hold : info.cache_sample_requested = true ∧
      n.etx_samples.toNat ≤ info.init_etx_sample_count.toNat ∨ 0x1000 ≤ n.etx.toNat)
    (henough : info.callback = true →
      info.init_etx_sample_count.toNat ≤ n.etx_samples.toNat) :
    (n.etx_calculation info attempts acks_rx).Kept info := by
  have hrange := average_range haccepted hinfo hacks hold
  have hetx := ofNat_toNat hinfo hrange
  unfold etx_calculation
  dsimp only
  split_ifs with hchecked
  · rw [store_diff_average]
    have hstore := h.store_diff
    have hset : Ledger info { n.store_diff info with
        tmp_etx := false
        etx := .ofNat (n.average info attempts acks_rx)
        drop_bad_count := 0
        known := true } :=
      ⟨hstore.attempts, hstore.acks, hstore.failures, hstore.acks_le, hstore.quiet,
        hstore.stored, hstore.chained, hstore.follows⟩
    refine hset.cache_entry_init.check haccepted ?_ ?_
    · rw [cache_entry_init_etx.2]
    · rw [cache_entry_init_etx.1, hetx]
      exact hrange
  · have hsilent : info.callback ≠ true := fun hcallback => hchecked (henough hcallback)
    refine ⟨⟨h.attempts, h.acks, h.failures, h.acks_le, h.quiet, h.stored, h.chained, h.follows⟩,
      fun _ => hetx.symm ▸ hrange, fun hno => (nomatch hno), fun _ _ => rfl, ?_⟩
    exact fun etx hreported => absurd (h.stored etx hreported).2.2 hsilent

theorem count_down_eq (time_update : UInt16) :
    ∃ timer, n.count_down time_update = { n with etx_timer := timer } := by
  unfold count_down
  split
  · exact ⟨_, rfl⟩
  · exact ⟨n.etx_timer, rfl⟩

theorem update_possible_samples {time_update : UInt16}
    (h : n.update_possible info time_update = true) :
    info.init_etx_sample_count.toNat ≤ n.etx_samples.toNat := by
  unfold update_possible at h
  split_ifs at h with hequal hmore
  · exact Nat.le_of_eq hequal.1.symm
  · exact Nat.le_of_lt hmore.1

theorem Kept.cache_timer (h : n.Kept info) (haccepted : info.Accepted)
    (hinfo : info.Calibrated) (seconds_update : UInt16) :
    (n.etx_cache_timer info seconds_update).Kept info := by
  obtain ⟨timer, htimer⟩ := count_down_eq (n := n) seconds_update
  have hcounted : Kept info { n with etx_timer := timer } :=
    ⟨⟨h.attempts, h.acks, h.failures, h.acks_le, h.quiet, h.stored, h.chained, h.follows⟩,
      h.range, h.unknown, h.settled, h.near⟩
  unfold etx_cache_timer
  split_ifs with hcached
  · rw [htimer]
    dsimp only
    split_ifs with hpossible
    · have hsamples := update_possible_samples hpossible
      have hknown := h.settled hcached.1 hsamples
      refine hcounted.toLedger.calculation haccepted hinfo ?_ (Or.inr (h.range hknown).1)
        fun _ => hsamples
      rw [hcounted.attempts, hcounted.acks]
      exact h.acks_le
    · exact hcounted
  · exact h

/-- A neighbour that is new has nothing to keep but the old reports. -/
theorem kept_new (haccepted : info.Accepted) {reports : List Report}
    (hchained : Report.Chained reports) (hfollows : ∀ etx, Report.Follows etx reports) :
    Kept info { reports := reports } := by
  refine ⟨⟨rfl, rfl, rfl, Nat.le_refl _, fun _ => rfl, fun _ hno => (nomatch hno), hchained,
    fun etx _ => hfollows etx⟩, fun hno => (nomatch hno), fun _ => ⟨rfl, rfl⟩, ?_,
    fun _ hno => (nomatch hno)⟩
  intro hcached hsamples
  have hone := haccepted.samples hcached
  exact absurd hsamples (Nat.not_le.mpr hone)

theorem Kept.neighbor_remove (h : n.Kept info) (haccepted : info.Accepted) :
    (n.etx_neighbor_remove info).Kept info := by
  unfold etx_neighbor_remove
  cases hcallback : info.callback with
  | false => exact h
  | true =>
      dsimp only
      by_cases hetx : n.etx = 0
      · have hsilent := (h.unreported hetx).2
        rw [if_pos rfl, if_neg (not_not_intro hetx)]
        refine kept_new haccepted h.chained fun etx => h.follows etx ?_
        exact fun last hlast => (nomatch hsilent.symm.trans hlast)
      · rw [if_pos rfl, if_pos hetx]
        refine kept_new haccepted ⟨h.follows _ ?_, h.chained⟩ fun _ => trivial
        intro last hlast
        obtain ⟨hstored, hlow, -⟩ := h.stored last hlast
        rw [hstored, if_neg]
        intro hzero
        have hshift := congrArg UInt16.toNat hzero
        rw [UInt16.toNat_shiftRight, Nat.shiftRight_eq_div_pow] at hshift
        have hdiv : last.toNat / 2 ^ 4 = 0 := hshift
        omega

theorem Kept.remote_update (h : n.Kept info) (haccepted : info.Accepted)
    (hinfo : info.Calibrated) {idr : UInt8} (hok : n.Allowed info (.remote idr)) :
    (n.etx_remote_incoming_idr_update info idr).Kept info := by
  have hframe : ∀ {m : Neighbour}, m.Kept info → Kept info { m with remote_incoming_idr := idr } :=
    fun hm => ⟨⟨hm.attempts, hm.acks, hm.failures, hm.acks_le, hm.quiet, hm.stored, hm.chained,
      hm.follows⟩, hm.range, hm.unknown, hm.settled, hm.near⟩
  unfold etx_remote_incoming_idr_update
  apply hframe
  split
  · rename_i hetx
    have hknown := h.known hetx
    have hstore := h.toLedger.store_diff
    have hsame : (n.store_diff info).etx = n.etx ∧ (n.store_diff info).known = n.known := by
      unfold Neighbour.store_diff
      split <;> exact ⟨rfl, rfl⟩
    obtain ⟨hlow, hhigh⟩ := hok hetx
    have hrange : info.InRange ((n.store_diff info).remote_average idr) :=
      remote_range hinfo (hsame.1.symm ▸ h.range hknown) hlow hhigh
    have hset : Ledger info
        { n.store_diff info with etx := .ofNat ((n.store_diff info).remote_average idr) } :=
      ⟨hstore.attempts, hstore.acks, hstore.failures, hstore.acks_le, hstore.quiet,
        hstore.stored, hstore.chained, hstore.follows⟩
    refine hset.check haccepted (hsame.2.trans hknown) ?_
    rw [ofNat_toNat hinfo hrange]
    exact hrange
  · exact h

theorem Kept.signal_etx (h : n.Kept info) (haccepted : info.Accepted) {etx : UInt16}
    (hetx : n.etx = 0 → info.InRange etx.toNat) : (n.signal_etx info etx).Kept info := by
  unfold Neighbour.signal_etx
  split
  · rename_i hzero
    obtain ⟨-, hsilent⟩ := h.unreported hzero
    have hrange := hetx hzero
    have hfollows : ∀ etx, Report.Follows etx n.reports :=
      fun etx => h.follows etx fun last hlast => (nomatch hsilent.symm.trans hlast)
    cases hcallback : info.callback with
    | true =>
        have hquiet := h.quiet (Or.inr hcallback)
        refine ⟨⟨h.attempts, h.acks, h.failures, h.acks_le, h.quiet, ?_,
          ⟨hfollows 0, h.chained⟩, fun _ hlast => hlast _ rfl⟩, fun _ => hrange,
          fun hno => (nomatch hno), fun _ _ => rfl, ?_⟩
        · intro last hlast
          cases hlast
          exact ⟨rfl, hrange.1, hcallback⟩
        · intro last hlast
          cases hlast
          have hcurrent : etx_current_calc etx n.accumulated_failures = etx := if_pos hquiet
          show info.Near (etx_current_calc etx n.accumulated_failures) etx
          rw [hcurrent]
          exact near_self haccepted hcallback etx
    | false =>
        refine ⟨⟨h.attempts, h.acks, h.failures, h.acks_le, h.quiet, ?_, h.chained, h.follows⟩,
          fun _ => hrange, fun hno => (nomatch hno), fun _ _ => rfl, ?_⟩
        · exact fun last hlast => (nomatch hsilent.symm.trans hlast)
        · exact fun last hlast => (nomatch hsilent.symm.trans hlast)
  · exact h

theorem signal_etx_ne {etx : UInt16} (hetx : n.etx = 0 → info.InRange etx.toNat) :
    (n.signal_etx info etx).etx ≠ 0 := by
  unfold Neighbour.signal_etx
  split
  · rename_i hzero
    intro heq
    have hlow : 0x1000 ≤ etx.toNat := (hetx hzero).1
    have hgone : etx = 0 := heq
    rw [hgone] at hlow
    exact absurd hlow (by decide)
  · assumption

theorem signal_etx_remote (etx : UInt16) :
    (n.signal_etx info etx).remote_incoming_idr = n.remote_incoming_idr := by
  unfold Neighbour.signal_etx
  split <;> rfl

theorem Kept.lqi_dbm_update (h : n.Kept info) (haccepted : info.Accepted)
    (hinfo : info.Calibrated) {driver : Option UInt16} {lqi : UInt8} {dbm : Int8}
    (hok : n.Allowed info (.signal driver lqi dbm)) :
    (n.etx_lqi_dbm_update info driver lqi dbm).Kept info := by
  obtain ⟨hfirst, hfold⟩ := hok
  have hsignal := h.signal_etx haccepted hfirst
  unfold etx_lqi_dbm_update
  dsimp only
  split
  · rename_i hremote
    rw [signal_etx_remote] at hremote ⊢
    have hrange := hfold hremote.1 hremote.2
    have hknown := hsignal.known (signal_etx_ne hfirst)
    refine Ledger.check ⟨hsignal.attempts, hsignal.acks, hsignal.failures, hsignal.acks_le,
      hsignal.quiet, hsignal.stored, hsignal.chained, hsignal.follows⟩ haccepted hknown ?_
    rw [ofNat_toNat hinfo hrange]
    exact hrange
  · exact hsignal

theorem samples_next_le : n.etx_samples.toNat ≤ n.samples_next.toNat ∧
    n.samples_next.toNat ≤ n.etx_samples.toNat + 1 := by
  unfold samples_next
  split_ifs with hmore
  · have hlt := UInt8.lt_iff_toNat_lt.mp hmore
    have hseven : (7 : UInt8).toNat = 7 := rfl
    have hnext : (n.etx_samples + 1).toNat = n.etx_samples.toNat + 1 := by
      rw [UInt8.toNat_add, show (1 : UInt8).toNat = 1 by rfl, Nat.mod_eq_of_lt (by omega)]
    omega
  · omega

/-- A cached sample takes a transmission. -/
theorem Ledger.sample_update (h : n.Ledger info) {attempts : UInt8} {success : Bool}
    (hattempts : 1 ≤ attempts.toNat)
    (hroom : n.attempts_count.toNat + attempts.toNat ≤ 0xffff)
    (hacks : success = true → n.received_acks.toNat < 0xff) :
    Ledger info { n.etx_cache_sample_update attempts success with
      accumulated_failures := 0
      failures := 0 } := by
  have hle := h.acks_le
  refine ⟨?_, ?_, rfl, ?_, fun _ => rfl, h.stored, h.chained, h.follows⟩
  · show (n.attempts_count + attempts.toUInt16).toNat = n.attempts + attempts.toNat
    rw [UInt16.toNat_add, UInt8.toNat_toUInt16, Nat.mod_eq_of_lt (by omega), h.attempts]
  · show (if success then n.received_acks + 1 else n.received_acks).toNat =
      if success then n.acks + 1 else n.acks
    cases success with
    | true =>
        have hlt := hacks rfl
        rw [if_pos rfl, if_pos rfl, UInt8.toNat_add, show (1 : UInt8).toNat = 1 by rfl,
          Nat.mod_eq_of_lt (by omega), h.acks]
    | false => exact h.acks
  · show (if success then n.acks + 1 else n.acks) ≤ n.attempts + attempts.toNat
    split_ifs <;> omega

/-- The ledger does not look at the number of samples. -/
theorem Ledger.samples (h : n.Ledger info) (etx_samples : UInt8) :
    Ledger info { n with etx_samples := etx_samples } :=
  ⟨h.attempts, h.acks, h.failures, h.acks_le, h.quiet, h.stored, h.chained, h.follows⟩

theorem Kept.cached_update (h : n.Kept info) (haccepted : info.Accepted)
    (hinfo : info.Calibrated) (hcached : info.cache_sample_requested = true) {attempts : UInt8}
    {success : Bool} (hattempts : 1 ≤ attempts.toNat)
    (hroom : n.attempts_count.toNat + attempts.toNat ≤ 0xffff)
    (hacks : success = true → n.received_acks.toNat < 0xff) :
    (Neighbour.cached_update info attempts success
      { n with etx_samples := n.samples_next }).Kept info := by
  have hledger := (h.toLedger.samples n.samples_next).sample_update hattempts hroom hacks
  have hquiet := h.quiet (Or.inl hcached)
  unfold Neighbour.cached_update
  generalize hm : ({ etx_cache_sample_update attempts success
    { n with etx_samples := n.samples_next } with accumulated_failures := 0, failures := 0 } :
      Neighbour) = m at hledger
  have hetx : m.etx = n.etx ∧ m.known = n.known ∧ m.reported = n.reported ∧
      m.etx_samples = n.samples_next ∧ m.accumulated_failures = 0 := by
    rw [← hm]
    exact ⟨rfl, rfl, rfl, rfl, rfl⟩
  obtain ⟨hetx, hknown, hreported, hsamples, hempty⟩ := hetx
  obtain ⟨timer, htimer⟩ := count_down_eq (n := m) 0
  dsimp only
  rw [htimer]
  have hnext := samples_next_le (n := n)
  have hbefore : info.init_etx_sample_count.toNat < n.samples_next.toNat → n.known = true :=
    fun hmore => h.settled hcached (by omega)
  have htimed : Ledger info { m with etx_timer := timer } :=
    ⟨hledger.attempts, hledger.acks, hledger.failures, hledger.acks_le, hledger.quiet,
      hledger.stored, hledger.chained, hledger.follows⟩
  split_ifs with hpossible
  · have henough := update_possible_samples hpossible
    refine htimed.calculation haccepted hinfo ?_ ?_ fun _ => henough
    · show m.received_acks.toNat ≤ m.attempts_count.toNat
      rw [hledger.attempts, hledger.acks]
      exact hledger.acks_le
    · show _ ∧ m.etx_samples.toNat ≤ _ ∨ 0x1000 ≤ m.etx.toNat
      rw [hsamples, hetx]
      rcases Nat.lt_or_ge info.init_etx_sample_count.toNat n.samples_next.toNat with hmore | hfirst
      · exact Or.inr (h.range (hbefore hmore)).1
      · exact Or.inl ⟨hcached, hfirst⟩
  · have hlater : m.etx_samples.toNat ≠ info.init_etx_sample_count.toNat := by
      intro hequal
      exact hpossible (if_pos ⟨hequal, rfl⟩)
    refine ⟨htimed, ?_, ?_, ?_, ?_⟩
    · show m.known = true → info.InRange m.etx.toNat
      rw [hknown, hetx]
      exact h.range
    · show m.known = false → m.etx = 0 ∧ m.reported = none
      rw [hknown, hetx, hreported]
      exact h.unknown
    · show _ → info.init_etx_sample_count.toNat ≤ m.etx_samples.toNat → m.known = true
      rw [hknown]
      rw [hsamples] at hlater ⊢
      exact fun _ hle => hbefore (Nat.lt_of_le_of_ne hle (Ne.symm hlater))
    · show ∀ etx, m.reported = some etx → info.Near m.current_etx etx
      have hcurrent : m.current_etx = n.current_etx := by
        unfold current_etx
        rw [hetx, hempty, hquiet]
      rw [hreported, hcurrent]
      exact h.near

theorem Kept.direct_update (h : n.Kept info) (haccepted : info.Accepted)
    (hinfo : info.Calibrated) (hdirect : info.cache_sample_requested = false) {attempts : UInt8}
    {success : Bool} (hattempts : 1 ≤ attempts.toNat)
    (hok : info.callback = true →
      (success = true ∨ 32 ≤ n.accumulated_failures.toNat + attempts.toNat) ∧
        info.init_etx_sample_count.toNat ≤ n.samples_next.toNat) :
    (Neighbour.direct_update info attempts success
      { n with etx_samples := n.samples_next }).Kept info := by
  have hnocache : info.cache_sample_requested ≠ true := by simp [hdirect]
  unfold Neighbour.direct_update
  dsimp only
  split
  · rename_i hfailed
    rw [Bool.and_eq_true, Bool.not_eq_true', decide_eq_true_eq] at hfailed
    have hsilent : info.callback ≠ true := by
      intro hcallback
      obtain ⟨hsuccess | hmany, -⟩ := hok hcallback
      · exact (nomatch hfailed.1.symm.trans hsuccess)
      · omega
    have hnone : ∀ etx, n.reported ≠ some etx :=
      fun etx hreported => hsilent (h.stored etx hreported).2.2
    refine ⟨⟨h.attempts, h.acks, ?_, h.acks_le, fun hor => ?_, h.stored, h.chained, h.follows⟩,
      h.range, h.unknown, fun hcached => absurd hcached hnocache,
      fun etx hreported => absurd hreported (hnone etx)⟩
    · show (UInt8.ofNat ((n.accumulated_failures.toNat + attempts.toNat) % 2 ^ 5)).toNat =
        n.failures + attempts.toNat
      have hsum := h.failures
      rw [UInt8.toNat_ofNat']
      omega
    · exact absurd hor (not_or.mpr ⟨hnocache, hsilent⟩)
  · have hclear : Ledger info { n with
        etx_samples := n.samples_next
        accumulated_failures := 0
        failures := 0 } :=
      ⟨h.attempts, h.acks, rfl, h.acks_le, fun _ => rfl, h.stored, h.chained, h.follows⟩
    split
    · rename_i hetx
      have hknown := h.known hetx
      refine hclear.calculation haccepted hinfo ?_ (Or.inr (h.range hknown).1)
        fun hcallback => (hok hcallback).2
      have hsmall := n.accumulated_failures.toNat_lt
      have hfew := attempts.toNat_lt
      rw [UInt16.toNat_add, UInt8.toNat_toUInt16, UInt8.toNat_toUInt16,
        Nat.mod_eq_of_lt (by omega), show (1 : UInt8).toNat = 1 by rfl]
      omega
    · rename_i hzero
      obtain ⟨hunknown, hsilent⟩ := h.unreported (not_not.mp hzero)
      exact ⟨hclear, h.range, h.unknown, fun hcached => absurd hcached hnocache,
        fun etx hreported => (nomatch hsilent.symm.trans hreported)⟩

theorem Kept.transm_attempts_update (h : n.Kept info) (haccepted : info.Accepted)
    (hinfo : info.Calibrated) {attempts : UInt8} {success : Bool}
    (hok : n.Allowed info (.transmission attempts success)) :
    (n.etx_transm_attempts_update info attempts success).Kept info := by
  unfold etx_transm_attempts_update
  split
  · exact ⟨⟨h.attempts, h.acks, h.failures, h.acks_le, h.quiet, h.stored, h.chained, h.follows⟩,
      h.range, h.unknown, h.settled, h.near⟩
  · rename_i hkept
    obtain ⟨hattempts, hcache, hdirect⟩ := hok.resolve_left hkept
    dsimp only
    cases hcached : info.cache_sample_requested with
    | true =>
        obtain ⟨hroom, hacks⟩ := hcache hcached
        exact h.cached_update haccepted hinfo hcached hattempts hroom hacks
    | false => exact h.direct_update haccepted hinfo hcached hattempts (hdirect hcached)

theorem Kept.step (h : n.Kept info) (haccepted : info.Accepted) (hinfo : info.Calibrated)
    {e : Event} (hok : n.Allowed info e) : (n.step info e).Kept info := by
  cases e with
  | transmission attempts success => exact h.transm_attempts_update haccepted hinfo hok
  | remote idr => exact h.remote_update haccepted hinfo hok
  | signal driver lqi dbm => exact h.lqi_dbm_update haccepted hinfo hok
  | timer seconds => exact h.cache_timer haccepted hinfo seconds
  | remove => exact h.neighbor_remove haccepted

end Neighbour

/-! ## The property -/

/-- The condition for a call about one neighbour of the table. -/
def Allowed (info : EtxInfo) (table : UInt8 → Neighbour) (a : UInt8 × Event) : Prop :=
  a.1 < info.ext_storage_list_size → (table a.1).Allowed info a.2

instance (info : EtxInfo) (table : UInt8 → Neighbour) (a : UInt8 × Event) :
    Decidable (Allowed info table a) :=
  inferInstanceAs (Decidable (_ → _))

/-- **The estimator.**  Where the configured maximum is from 1.0 to 16 bits, every run of calls
that meet the condition, about any neighbours in any order, keeps every estimate in the range,
its counters exact, its reports a chain and its value near the one reported last. -/
theorem run_estimated (setters : List Setter) (hinfo : (configure setters).Calibrated)
    (as : List (UInt8 × Event))
    (hok : Meets (step (configure setters)) (Allowed (configure setters)) (fun _ => {}) as) :
    ∃ table, run (step (configure setters)) (fun _ => {}) as = some table ∧
      ∀ i, (table i).Estimated (configure setters) := by
  have haccepted := accepted_configure setters
  generalize configure setters = info at *
  have hstart : ∀ _ : UInt8, Neighbour.Kept info {} :=
    fun _ => Neighbour.kept_new haccepted trivial fun _ => trivial
  have hstep : ∀ (table : UInt8 → Neighbour) a, (∀ i, (table i).Kept info) →
      Allowed info table a → ∃ t, step info table a = some t ∧ ∀ i, (t i).Kept info := by
    intro table a hkept hallowed
    unfold step
    split
    · rename_i hindex
      refine ⟨_, rfl, fun i => ?_⟩
      split
      · rename_i heq
        rw [heq]
        exact (hkept a.1).step haccepted hinfo (hallowed hindex)
      · exact hkept i
    · exact ⟨table, rfl, hkept⟩
  obtain ⟨table, hrun, hkept⟩ := run_answers (fun table => ∀ i, (table i).Kept info) hstep hstart hok
  exact ⟨table, hrun, fun i => (hkept i).estimated⟩

theorem run_estimated_cached :
    ∃ table, run
        (step (configure [.storageList 4, .cachedParameter 60 4 1, .maxUpdate 1024, .max 1024,
          .valueChangeCallback 128 true]))
        (fun _ => {})
        [(0, .transmission 3 true), (1, .transmission 2 false), (0, .transmission 1 true),
          (0, .remote 40), (0, .timer 60), (0, .remove)] = some table ∧
      ∀ i, (table i).Estimated
        (configure [.storageList 4, .cachedParameter 60 4 1, .maxUpdate 1024, .max 1024,
          .valueChangeCallback 128 true]) :=
  run_estimated [.storageList 4, .cachedParameter 60 4 1, .maxUpdate 1024, .max 1024,
      .valueChangeCallback 128 true] (by unfold EtxInfo.Calibrated; decide)
    [(0, .transmission 3 true), (1, .transmission 2 false), (0, .transmission 1 true),
      (0, .remote 40), (0, .timer 60), (0, .remove)] (by decide)

/-- With a maximum of 16.0 one transmission without an acknowledgement makes the ETX zero. -/
theorem maximum_wraps :
    ∃ table, run (step (configure [.storageList 4, .cachedParameter 60 4 1, .max 2048]))
        (fun _ => {}) [(0, .transmission 1 false)] = some table ∧
      ¬(table 0).Estimated (configure [.storageList 4, .cachedParameter 60 4 1, .max 2048]) := by
  refine ⟨_, rfl, fun h => ?_⟩
  have hlow := (h.range (by decide)).1
  exact absurd hlow (by decide)

end Etx
