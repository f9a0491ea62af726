import WisunModem.KeyStorage
import Mathlib.Tactic.Common

/-!
# One counter, one message

A PMK is in several places at a time: in the entry of a supplicant, in the storage arrays and in
their files.  Only the entry of the supplicant counts on; the copies have to be good enough to
go on from when it is gone.

* `carry_counted` — a handshake sends above everything sent before;
* `drop_counted`, `take_counted` — a supplicant leaves its counter behind in the copies, and
  another one of the same address goes on from there;
* `powerCycle_counted` — a restart begins a block of counters of its own;
* `run_fresh` — no counter of a PMK is used twice as long as the copies are good.
-/

namespace Pae

namespace Auth

/-- No two messages under one PMK have the same replay counter. -/
def Fresh (sent : List (Option Pmk × KeyFrame)) : Prop :=
  sent.Pairwise fun m m' =>
    m.1 ≠ none → m.1 = m'.1 → m.2.replayCounter ≠ m'.2.replayCounter

/-! ## Copies -/

/-- This entry stands at this place, in an array with this reference. -/
def At (arrays : List StorageArray) (slot : Slot) (ref : Nat) (e : KeyStorage) : Prop :=
  ∃ a, arrays[slot.1]? = some a ∧ a.referenceRestartCnt = ref ∧
    a.entries[slot.2]? = some (some e)

/-- This entry is in a file with this reference. -/
def FileAt (files : Nat → Option StorageFile) (ref : Nat) (e : KeyStorage) : Prop :=
  ∃ i file, files i = some file ∧ file.referenceRestartCnt = ref ∧ some e ∈ file.entries

/-- This entry is in RAM or in a file. -/
def Copy (s : Auth) (ref : Nat) (e : KeyStorage) : Prop :=
  (∃ slot, At s.arrays slot ref e) ∨ FileAt s.files ref e

/-- The entry has the counter of these keys. -/
def UpToDate (keys : SecKeys) (e : KeyStorage) : Prop :=
  e.pmkKeyReplayCntSet = keys.pmkKeyReplayCntSet ∧
    e.pmkKeyReplayCnt.toNat = keys.pmkKeyReplayCnt % 2 ^ 16

/-- Every copy in RAM of the PMK of a supplicant, but for one place, has its counter. -/
def Stowed (but : Option Slot) (eui64 : Eui64) (s : Auth) : Prop :=
  ∀ supp, s.supps eui64 = some supp → ∀ slot ref e, some slot ≠ but →
    At s.arrays slot ref e → e.pmk ≠ none → e.pmk = supp.secKeys.pmk → UpToDate supp.secKeys e

/-- Nobody has this PMK, and no message was sent under it. -/
def NewPmk (pmk : Pmk) (s : Auth) : Prop :=
  (∀ eui64 supp, s.supps eui64 = some supp → supp.secKeys.pmk ≠ some pmk) ∧
    (∀ ref e, Copy s ref e → e.pmk ≠ some pmk) ∧ ∀ f, (some pmk, f) ∉ s.sent

/-- What is written fits: the upper half of the counter does not exceed the restarts since the
reference of the array, and where the PMK is given up, the other copies have its counter. -/
def WriteFits (cfg : AuthCfg) (env : WriteEnv) (eui64 : Eui64) (s : Auth) : Prop :=
  ∀ supp slot s', s.supps eui64 = some supp →
    s.slotToWrite cfg env.memory eui64 supp.secKeys = some (slot, s') → env.timeError = false →
    (supp.secKeys.pmk ≠ none → ∀ a, s'.arrays[slot.1]? = some a →
      a.referenceRestartCnt + supp.secKeys.pmkKeyReplayCnt / 2 ^ 32 ≤ s.restartCnt) ∧
    (nearLimit supp.secKeys = true → Stowed (slotFor eui64 s.arrays) eui64 s)

/-- Of all copies of its PMK, the entry that is read stands in the array with the youngest
reference. -/
def ReadsYoungest (eui64 : Eui64) (s : Auth) : Prop :=
  ∀ slot ref e, slotFor eui64 s.arrays = some slot → At s.arrays slot ref e → e.pmk ≠ none →
    ∀ ref' e', Copy s ref' e' → e'.pmk = e.pmk → ref' ≤ ref

/-- The files tell how often the authenticator was restarted and which PMKs were used. -/
def FilesFit (s : Auth) : Prop :=
  (∃ i, s.files i ≠ none) →
    s.restartFile = some s.restartCnt ∧ s.restartCnt + 1 < 2 ^ 32 ∧
      ∀ ref e pmk f, FileAt s.files ref e → e.pmk = some pmk → (some pmk, f) ∈ s.sent →
        e.pmkKeyReplayCntSet = true

/-- The copies that a step leaves behind, or goes on from, are good. -/
def KeepsCounters (cfg : AuthCfg) (s : Auth) : Act → Prop
  | .tlsFinished eui64 pmk => Stowed none eui64 s ∧ NewPmk pmk s
  | .pmkExpired eui64 => Stowed none eui64 s
  | .purge eui64 => Stowed none eui64 s
  | .storeTimeout eui64 env => WriteFits cfg env eui64 s
  | .toInactive eui64 env =>
      ∀ supp, s.supps eui64 = some supp →
        if supp.accessRevoked || env.timeError then Stowed none eui64 s
        else WriteFits cfg env eui64 s ∧ Stowed (slotFor eui64 s.arrays) eui64 s
  | .incoming eui64 memory lifetimes =>
      s.supps eui64 = none → memory = true → lifetimes.pmk ≠ none → ReadsYoungest eui64 s
  | .powerCycle _ => FilesFit s
  | _ => True

/-! ## What holds between two steps -/

/-- `own` says which node a PMK was agreed with. -/
structure Counted (own : Pmk → Eui64) (s : Auth) : Prop where
  fresh : Fresh s.sent
  arrays : ∀ a ∈ s.arrays, a.referenceRestartCnt ≤ s.restartCnt
  files : ∀ i file, s.files i = some file → file.referenceRestartCnt ≤ s.restartCnt
  ownSupp : ∀ x supp p, s.supps x = some supp → supp.secKeys.pmk = some p → own p = x
  ownCopy : ∀ ref e p, Copy s ref e → e.pmk = some p → own p = e.ptkEui64
  low : ∀ x supp, s.supps x = some supp → supp.secKeys.pmkKeyReplayCnt % 2 ^ 32 < 2 ^ 16
  held : ∀ x supp p f, s.supps x = some supp → supp.secKeys.pmk = some p →
    (some p, f) ∈ s.sent → supp.secKeys.pmkKeyReplayCntSet = true ∧
      f.replayCounter ≤ supp.secKeys.pmkKeyReplayCnt
  epoch : ∀ x supp p ref e, s.supps x = some supp → supp.secKeys.pmk = some p →
    Copy s ref e → e.pmk = some p →
      ref + supp.secKeys.pmkKeyReplayCnt / 2 ^ 32 ≤ s.restartCnt
  past : ∀ p f ref e, (some p, f) ∈ s.sent → Copy s ref e → e.pmk = some p →
    ref + f.replayCounter / 2 ^ 32 ≤ s.restartCnt
  rest : ∀ p f slot ref e, (some p, f) ∈ s.sent →
    (∀ x supp, s.supps x = some supp → supp.secKeys.pmk ≠ some p) →
    At s.arrays slot ref e → e.pmk = some p → e.pmkKeyReplayCntSet = true ∧
      f.replayCounter + ref * 2 ^ 32 ≤ s.restartCnt * 2 ^ 32 + e.pmkKeyReplayCnt.toNat

theorem init_counted (cfg : AuthCfg) (own : Pmk → Eui64) : Counted own (init cfg) where
  fresh := .nil
  arrays := fun _ hmem => by cases hmem
  files := fun _ _ h => by cases h
  ownSupp := fun _ _ _ h => by cases h
  ownCopy := by
    rintro ref e p (⟨slot, a, ha, -⟩ | ⟨i, file, hfile, -⟩)
    · simp [init] at ha
    · cases hfile
  low := fun _ _ h => by cases h
  held := fun _ _ _ _ h => by cases h
  epoch := fun _ _ _ _ _ h => by cases h
  past := fun _ _ _ _ h => by cases h
  rest := fun _ _ _ _ _ h => by cases h

variable {cfg : AuthCfg} {own : Pmk → Eui64} {s s' : Auth} {x : Eui64}

/-- What the counters are concerned with is the same in both entries. -/
def Alike (e e' : KeyStorage) : Prop :=
  e.pmk = e'.pmk ∧ e.ptkEui64 = e'.ptkEui64 ∧ e.pmkKeyReplayCntSet = e'.pmkKeyReplayCntSet ∧
    e.pmkKeyReplayCnt = e'.pmkKeyReplayCnt

theorem Alike.refl (e : KeyStorage) : Alike e e := ⟨rfl, rfl, rfl, rfl⟩

/-- Copies may disappear, move to a file or lose their PMK. -/
theorem Counted.shrink (h : Counted own s) (hsupps : s'.supps = s.supps)
    (hsent : s'.sent = s.sent) (hrestart : s'.restartCnt = s.restartCnt)
    (harrays : ∀ a ∈ s'.arrays, a.referenceRestartCnt ≤ s.restartCnt)
    (hfiles : ∀ i file, s'.files i = some file → file.referenceRestartCnt ≤ s.restartCnt)
    (hat : ∀ slot ref e, At s'.arrays slot ref e → e.pmk ≠ none →
      ∃ slot' e', At s.arrays slot' ref e' ∧ Alike e e')
    (hfile : ∀ ref e, FileAt s'.files ref e → e.pmk ≠ none → Copy s ref e) :
    Counted own s' := by
  have hcopy : ∀ ref e p, Copy s' ref e → e.pmk = some p →
      ∃ e', Copy s ref e' ∧ Alike e e' := by
    rintro ref e p (⟨slot, hslot⟩ | hf) hp
    · obtain ⟨slot', e', hat', halike⟩ := hat slot ref e hslot (by simp [hp])
      exact ⟨e', .inl ⟨slot', hat'⟩, halike⟩
    · exact ⟨e, hfile ref e hf (by simp [hp]), .refl e⟩
  refine ⟨?_, ?_, ?_, ?_, ?_, ?_, ?_, ?_, ?_, ?_⟩
  · rw [hsent]
    exact h.fresh
  · rw [hrestart]
    exact harrays
  · rw [hrestart]
    exact hfiles
  · rw [hsupps]
    exact h.ownSupp
  · intro ref e p hc hp
    obtain ⟨e', hc', hpmk, heui64, -⟩ := hcopy ref e p hc hp
    rw [heui64]
    exact h.ownCopy ref e' p hc' (hpmk ▸ hp)
  · rw [hsupps]
    exact h.low
  · rw [hsupps, hsent]
    exact h.held
  · rw [hsupps, hrestart]
    intro x supp p ref e hx hpmk hc hp
    obtain ⟨e', hc', hpmk', -⟩ := hcopy ref e p hc hp
    exact h.epoch x supp p ref e' hx hpmk hc' (hpmk' ▸ hp)
  · rw [hsent, hrestart]
    intro p f ref e hf hc hp
    obtain ⟨e', hc', hpmk', -⟩ := hcopy ref e p hc hp
    exact h.past p f ref e' hf hc' (hpmk' ▸ hp)
  · rw [hsent, hsupps, hrestart]
    intro p f slot ref e hf hnone hslot hp
    obtain ⟨slot', e', hat', hpmk', -, hset, hcnt⟩ := hat slot ref e hslot (by simp [hp])
    rw [hset, hcnt]
    exact h.rest p f slot' ref e' hf hnone hat' (hpmk' ▸ hp)

/-! ## Supplicants -/

theorem setSupp_apply (x y : Eui64) (v : Option SuppEntry) (s : Auth) :
    (s.setSupp x v).supps y = if y = x then v else s.supps y :=
  Function.update_apply ..

/-- **A handshake** sends above everything that was sent under its PMK. -/
theorem carry_counted (h : Counted own s) {supp supp' : SuppEntry} {fs : List KeyFrame}
    (hx : s.supps x = some supp) (hnum : Numbered supp.secKeys supp'.secKeys fs) :
    Counted own { s.setSupp x (some supp') with
      sent := s.sent ++ fs.map fun f => (supp.secKeys.pmk, f) } := by
  -- whoever had a PMK still has it, and the counter has not fallen
  have hback : ∀ y t, (s.setSupp x (some supp')).supps y = some t →
      ∃ t₀, s.supps y = some t₀ ∧ t.secKeys.pmk = t₀.secKeys.pmk ∧
        t₀.secKeys.pmkKeyReplayCnt ≤ t.secKeys.pmkKeyReplayCnt ∧
        t.secKeys.pmkKeyReplayCnt / 2 ^ 16 = t₀.secKeys.pmkKeyReplayCnt / 2 ^ 16 ∧
        (t₀.secKeys.pmkKeyReplayCntSet = true → t.secKeys.pmkKeyReplayCntSet = true) := by
    intro y t hy
    rw [setSupp_apply] at hy
    split at hy
    · rename_i heq
      subst heq
      cases hy
      exact ⟨supp, hx, hnum.pmk, hnum.le, hnum.block, hnum.set⟩
    · exact ⟨t, hy, rfl, le_rfl, rfl, id⟩
  have hnew : ∀ {p f}, (some p, f) ∈ (fs.map fun f => (supp.secKeys.pmk, f)) →
      f ∈ fs ∧ supp.secKeys.pmk = some p := by
    intro p f hmem
    obtain ⟨f', hmem', heq⟩ := List.mem_map.mp hmem
    obtain ⟨hpmk, rfl⟩ := Prod.mk.inj heq
    exact ⟨hmem', hpmk⟩
  refine ⟨?_, h.arrays, h.files, ?_, h.ownCopy, ?_, ?_, ?_, ?_, ?_⟩
  · refine List.pairwise_append.mpr ⟨h.fresh, ?_, ?_⟩
    · refine List.pairwise_map.mpr (hnum.rising.imp ?_)
      intro f f' hlt _ _
      exact Nat.ne_of_lt hlt
    · rintro ⟨pmk, f⟩ hmem m hmem' hne heq
      obtain ⟨p, rfl⟩ := Option.ne_none_iff_exists'.mp hne
      obtain ⟨f', hnewest, rfl⟩ := List.mem_map.mp hmem'
      obtain ⟨hset, hle⟩ := h.held x supp p f hx heq.symm hmem
      obtain ⟨-, -, -, hlt⟩ := hnum.sent f' hnewest
      exact Nat.ne_of_lt (lt_of_le_of_lt hle (hlt hset))
  · intro y t p hy hp
    obtain ⟨t₀, hy₀, hpmk, -⟩ := hback y t hy
    exact h.ownSupp y t₀ p hy₀ (hpmk ▸ hp)
  · intro y t hy
    obtain ⟨t₀, hy₀, -, -, hblock, -⟩ := hback y t hy
    have := h.low y t₀ hy₀
    omega
  · intro y t p f hy hp hmem
    obtain ⟨t₀, hy₀, hpmk, hle, -, hset⟩ := hback y t hy
    rcases List.mem_append.mp hmem with hmem | hmem
    · obtain ⟨hset₀, hle₀⟩ := h.held y t₀ p f hy₀ (hpmk ▸ hp) hmem
      exact ⟨hset hset₀, hle₀.trans hle⟩
    · obtain ⟨hnewest, hsupp⟩ := hnew hmem
      obtain rfl : y = x := by rw [← h.ownSupp y t₀ p hy₀ (hpmk ▸ hp), h.ownSupp x supp p hx hsupp]
      have hy : (s.setSupp y (some supp')).supps y = some t := hy
      simp only [setSupp_apply, if_true, Option.some.injEq] at hy
      subst hy
      obtain ⟨hset, -, hle, -⟩ := hnum.sent f hnewest
      exact ⟨hset, hle⟩
  · intro y t p ref e hy hp hc he
    obtain ⟨t₀, hy₀, hpmk, -, hblock, -⟩ := hback y t hy
    have := h.epoch y t₀ p ref e hy₀ (hpmk ▸ hp) hc he
    show ref + t.secKeys.pmkKeyReplayCnt / 2 ^ 32 ≤ s.restartCnt
    omega
  · intro p f ref e hmem hc he
    rcases List.mem_append.mp hmem with hmem | hmem
    · exact h.past p f ref e hmem hc he
    · obtain ⟨hmem, hsupp⟩ := hnew hmem
      obtain ⟨-, -, hle, -⟩ := hnum.sent f hmem
      have := h.epoch x supp p ref e hx hsupp hc he
      have := hnum.block
      show ref + f.replayCounter / 2 ^ 32 ≤ s.restartCnt
      omega
  · intro p f slot ref e hmem hnone hat he
    have hnone₀ : ∀ y t, s.supps y = some t → t.secKeys.pmk ≠ some p := by
      intro y t hy
      by_cases heq : y = x
      · subst heq
        rw [hx] at hy
        cases hy
        rw [← hnum.pmk]
        exact hnone y supp' (by simp [setSupp_apply])
      · exact hnone y t (by simpa [setSupp_apply, heq] using hy)
    rcases List.mem_append.mp hmem with hmem | hmem
    · exact h.rest p f slot ref e hmem hnone₀ hat he
    · exact (hnone₀ x supp hx (hnew hmem).2).elim

/-- Changes that leave the PMK and its counter alone. -/
theorem keep_counted (h : Counted own s) {supp supp' : SuppEntry} (hx : s.supps x = some supp)
    (hpmk : supp'.secKeys.pmk = supp.secKeys.pmk)
    (hcnt : supp'.secKeys.pmkKeyReplayCnt = supp.secKeys.pmkKeyReplayCnt)
    (hset : supp'.secKeys.pmkKeyReplayCntSet = supp.secKeys.pmkKeyReplayCntSet) :
    Counted own (s.setSupp x (some supp')) := by
  have hsame : { s.setSupp x (some supp') with
      sent := s.sent ++ ([] : List KeyFrame).map fun f => (supp.secKeys.pmk, f) } =
      s.setSupp x (some supp') := by
    simp [setSupp]
  exact hsame ▸ carry_counted h hx (.quiet hpmk hcnt hset)

/-- **A supplicant goes**, and its PMK is used no more until a copy of it is read. -/
theorem drop_counted (h : Counted own s) (hstowed : Stowed none x s) :
    Counted own (s.setSupp x none) := by
  have hback : ∀ y t, (s.setSupp x none).supps y = some t → s.supps y = some t := by
    intro y t hy
    rw [setSupp_apply] at hy
    split at hy
    · cases hy
    · exact hy
  refine ⟨h.fresh, h.arrays, h.files, fun y t p hy => h.ownSupp y t p (hback y t hy), h.ownCopy,
    fun y t hy => h.low y t (hback y t hy), fun y t p f hy => h.held y t p f (hback y t hy),
    fun y t p ref e hy => h.epoch y t p ref e (hback y t hy), h.past, ?_⟩
  intro p f slot ref e hmem hnone hat he
  by_cases hsupp : ∃ supp, s.supps x = some supp ∧ supp.secKeys.pmk = some p
  · obtain ⟨supp, hx, hp⟩ := hsupp
    obtain ⟨hset, hcnt⟩ := hstowed supp hx slot ref e (by simp) hat (by simp [he]) (he.trans hp.symm)
    obtain ⟨hset₀, hle⟩ := h.held x supp p f hx hp hmem
    have hepoch := h.epoch x supp p ref e hx hp (.inl ⟨slot, hat⟩) he
    have hlow := h.low x supp hx
    refine ⟨hset.trans hset₀, ?_⟩
    show f.replayCounter + ref * 2 ^ 32 ≤ s.restartCnt * 2 ^ 32 + e.pmkKeyReplayCnt.toNat
    omega
  · refine h.rest p f slot ref e hmem ?_ hat he
    intro y t hy hp
    by_cases heq : y = x
    · exact hsupp ⟨t, heq ▸ hy, hp⟩
    · exact hnone y t (by simpa [setSupp_apply, heq] using hy) hp

/-- **A supplicant comes** with a counter that nothing sent under its PMK exceeds. -/
theorem take_counted (h : Counted own s) {supp : SuppEntry} (hx : s.supps x = none)
    (hlow : supp.secKeys.pmkKeyReplayCnt % 2 ^ 32 < 2 ^ 16)
    (hpmk : ∀ p, supp.secKeys.pmk = some p → own p = x ∧
      (∀ f, (some p, f) ∈ s.sent → supp.secKeys.pmkKeyReplayCntSet = true ∧
        f.replayCounter ≤ supp.secKeys.pmkKeyReplayCnt) ∧
      ∀ ref e, Copy s ref e → e.pmk = some p →
        ref + supp.secKeys.pmkKeyReplayCnt / 2 ^ 32 ≤ s.restartCnt) :
    Counted own (s.setSupp x (some supp)) := by
  have hback : ∀ y t, (s.setSupp x (some supp)).supps y = some t →
      (y = x ∧ t = supp) ∨ s.supps y = some t := by
    intro y t hy
    rw [setSupp_apply] at hy
    split at hy
    · rename_i heq
      cases hy
      exact .inl ⟨heq, rfl⟩
    · exact .inr hy
  refine ⟨h.fresh, h.arrays, h.files, ?_, h.ownCopy, ?_, ?_, ?_, h.past, ?_⟩
  · intro y t p hy hp
    rcases hback y t hy with ⟨rfl, rfl⟩ | hy
    · exact (hpmk p hp).1
    · exact h.ownSupp y t p hy hp
  · intro y t hy
    rcases hback y t hy with ⟨rfl, rfl⟩ | hy
    · exact hlow
    · exact h.low y t hy
  · intro y t p f hy hp hmem
    rcases hback y t hy with ⟨rfl, rfl⟩ | hy
    · exact (hpmk p hp).2.1 f hmem
    · exact h.held y t p f hy hp hmem
  · intro y t p ref e hy hp hc he
    rcases hback y t hy with ⟨rfl, rfl⟩ | hy
    · exact (hpmk p hp).2.2 ref e hc he
    · exact h.epoch y t p ref e hy hp hc he
  · intro p f slot ref e hmem hnone hat he
    refine h.rest p f slot ref e hmem ?_ hat he
    intro y t hy
    have hne : y ≠ x := by
      rintro rfl
      rw [hx] at hy
      cases hy
    exact hnone y t (by simpa [setSupp_apply, hne] using hy)

/-- A PMK nobody has can be agreed with anyone. -/
theorem NewPmk.counted {p : Pmk} (hnew : NewPmk p s) (h : Counted own s) :
    Counted (Function.update own p x) s := by
  obtain ⟨hsupps, hcopies, -⟩ := hnew
  refine ⟨h.fresh, h.arrays, h.files, ?_, ?_, h.low, h.held, h.epoch, h.past, h.rest⟩
  · intro y t q hy hq
    have hne : q ≠ p := by
      rintro rfl
      exact hsupps y t hy hq
    rw [Function.update_of_ne hne]
    exact h.ownSupp y t q hy hq
  · intro ref e q hc hq
    have hne : q ≠ p := by
      rintro rfl
      exact hcopies ref e hc hq
    rw [Function.update_of_ne hne]
    exact h.ownCopy ref e q hc hq

theorem setSupp_setSupp (v v' : Option SuppEntry) :
    (s.setSupp x v).setSupp x v' = s.setSupp x v' := by
  simp [setSupp]

/-- The PMK of a supplicant is deleted. -/
theorem forget_counted (h : Counted own s) (hstowed : Stowed none x s) {supp : SuppEntry}
    (hpmk : supp.secKeys.pmk = none) (hcnt : supp.secKeys.pmkKeyReplayCnt = 0) :
    Counted own (s.setSupp x (some supp)) := by
  have hdropped := drop_counted h hstowed
  rw [← setSupp_setSupp none (some supp)]
  refine take_counted hdropped (by simp [setSupp_apply]) (by simp [hcnt]) ?_
  intro p hp
  rw [hpmk] at hp
  cases hp

/-! ## Places -/

theorem slotOf_some {p : Option KeyStorage → Bool} {arrays : List StorageArray} {slot : Slot}
    (h : slotOf p arrays = some slot) :
    ∃ a e, arrays[slot.1]? = some a ∧ a.entries[slot.2]? = some e ∧ p e = true := by
  induction arrays generalizing slot with
  | nil => cases h
  | cons a as ih =>
      unfold slotOf at h
      split at h
      · rename_i j hfind
        cases h
        obtain ⟨hlt, hp, -⟩ := List.findIdx?_eq_some_iff_getElem.mp hfind
        exact ⟨a, a.entries[j], rfl, by simp [hlt], hp⟩
      · obtain ⟨slot', hslot', rfl⟩ := Option.map_eq_some_iff.mp h
        exact ih hslot'

theorem slotOf_none {p : Option KeyStorage → Bool} {arrays : List StorageArray}
    (h : slotOf p arrays = none) : ∀ a ∈ arrays, ∀ e ∈ a.entries, p e = false := by
  induction arrays with
  | nil =>
      intro a hmem
      cases hmem
  | cons a as ih =>
      unfold slotOf at h
      split at h
      · cases h
      · rename_i hfind
        intro a' hmem e he
        rcases List.mem_cons.mp hmem with rfl | hmem
        · simpa using List.findIdx?_eq_none_iff.mp hfind e he
        · exact ih (Option.map_eq_none_iff.mp h) a' hmem e he

/-- The entry that is found for an address is of that address. -/
theorem slotFor_at {arrays : List StorageArray} {slot : Slot} {ref : Nat} {e : KeyStorage}
    (h : slotFor x arrays = some slot) (hat : At arrays slot ref e) : e.ptkEui64 = x := by
  obtain ⟨a, e', ha, he, hp⟩ := slotOf_some h
  obtain ⟨a', ha', -, he'⟩ := hat
  obtain rfl : a = a' := Option.some.inj (ha.symm.trans ha')
  obtain rfl : e' = some e := Option.some.inj (he.symm.trans he')
  simpa using hp

theorem slotFor_none {arrays : List StorageArray} (h : slotFor x arrays = none) {slot : Slot}
    {ref : Nat} {e : KeyStorage} (hat : At arrays slot ref e) : e.ptkEui64 ≠ x := by
  obtain ⟨a, ha, -, he⟩ := hat
  have := slotOf_none h a (List.mem_of_getElem? ha) (some e) (List.mem_of_getElem? he)
  simpa using this

theorem slotFree_at {arrays : List StorageArray} {slot : Slot} {ref : Nat} {e : KeyStorage}
    (h : slotFree arrays = some slot) : ¬At arrays slot ref e := by
  rintro ⟨a', ha', -, he'⟩
  obtain ⟨a, e', ha, he, hp⟩ := slotOf_some h
  obtain rfl : a = a' := Option.some.inj (ha.symm.trans ha')
  obtain rfl : e' = some e := Option.some.inj (he.symm.trans he')
  cases hp

/-- One array changes, and keeps its reference. -/
theorem at_modify {arrays : List StorageArray} {i : Nat} {f : StorageArray → StorageArray}
    {slot : Slot} {ref : Nat} {e : KeyStorage}
    (hf : ∀ a, (f a).referenceRestartCnt = a.referenceRestartCnt)
    (h : At (arrays.modify i f) slot ref e) :
    ∃ a, arrays[slot.1]? = some a ∧ a.referenceRestartCnt = ref ∧
      (if slot.1 = i then f a else a).entries[slot.2]? = some (some e) := by
  obtain ⟨a, ha, href, he⟩ := h
  rw [List.getElem?_modify] at ha
  obtain ⟨a₀, ha₀, hfa⟩ := Option.map_eq_some_iff.mp ha
  by_cases hi : i = slot.1
  · rw [if_pos hi] at hfa
    subst hfa
    exact ⟨a₀, ha₀, (hf a₀).symm.trans href, by rw [if_pos hi.symm]; exact he⟩
  · rw [if_neg hi] at hfa
    subst hfa
    exact ⟨a₀, ha₀, href, by rw [if_neg (Ne.symm hi)]; exact he⟩

theorem at_reserve {slot slot' : Slot} {ref : Nat} {e : KeyStorage}
    (h : At (s.reserve slot').arrays slot ref e) : At s.arrays slot ref e := by
  obtain ⟨a, ha, href, he⟩ :=
    at_modify (f := fun a => { a with reserved := true }) (fun _ => rfl) h
  refine ⟨a, ha, href, ?_⟩
  split at he
  · exact he
  · exact he

/-- After an entry is set, everything stands where it stood, or is that entry. -/
theorem at_set {arrays : List StorageArray} {slot slot' : Slot} {ref : Nat} {e : KeyStorage}
    {f : StorageArray → StorageArray} {g : StorageArray → Option KeyStorage}
    (hf : ∀ a, (f a).referenceRestartCnt = a.referenceRestartCnt)
    (hset : ∀ a, (f a).entries = a.entries.set slot'.2 (g a))
    (h : At (arrays.modify slot'.1 f) slot ref e) :
    (slot = slot' ∧ ∃ a, arrays[slot.1]? = some a ∧ a.referenceRestartCnt = ref ∧
      g a = some e) ∨ (slot ≠ slot' ∧ At arrays slot ref e) := by
  obtain ⟨a, ha, href, he⟩ := at_modify hf h
  by_cases hi : slot.1 = slot'.1
  · rw [if_pos hi, hset, List.getElem?_set] at he
    split at he
    · rename_i hj
      split at he
      · exact .inl ⟨Prod.ext hi hj.symm, a, ha, href, Option.some.inj he⟩
      · cases he
    · rename_i hj
      refine .inr ⟨?_, a, ha, href, he⟩
      rintro rfl
      exact hj rfl
  · rw [if_neg hi] at he
    refine .inr ⟨?_, a, ha, href, he⟩
    rintro rfl
    exact hi rfl

theorem at_append {arrays : List StorageArray} {a : StorageArray} {slot : Slot} {ref : Nat}
    {e : KeyStorage} (hempty : some e ∉ a.entries) (h : At (arrays ++ [a]) slot ref e) :
    At arrays slot ref e := by
  obtain ⟨a', ha', href, he⟩ := h
  rw [List.getElem?_append] at ha'
  split at ha'
  · exact ⟨a', ha', href, he⟩
  · obtain rfl := List.mem_singleton.mp (List.mem_of_getElem? ha')
    exact (hempty (List.mem_of_getElem? he)).elim

/-- The state differs in its arrays only, and these hold nothing new. -/
structure Thinned (s s' : Auth) : Prop where
  supps : s'.supps = s.supps
  sent : s'.sent = s.sent
  restartCnt : s'.restartCnt = s.restartCnt
  files : s'.files = s.files
  refs : ∀ a ∈ s'.arrays,
    a.referenceRestartCnt = s.restartCnt ∨ ∃ a₀ ∈ s.arrays, a.referenceRestartCnt = a₀.referenceRestartCnt
  at_ : ∀ slot ref e, At s'.arrays slot ref e → At s.arrays slot ref e

theorem Thinned.refl (s : Auth) : Thinned s s where
  supps := rfl
  sent := rfl
  restartCnt := rfl
  files := rfl
  refs := fun a hmem => .inr ⟨a, hmem, rfl⟩
  at_ := fun _ _ _ h => h

theorem Thinned.trans {s'' : Auth} (h : Thinned s s') (h' : Thinned s' s'') : Thinned s s'' where
  supps := h'.supps.trans h.supps
  sent := h'.sent.trans h.sent
  restartCnt := h'.restartCnt.trans h.restartCnt
  files := h'.files.trans h.files
  refs := by
    intro a hmem
    rcases h'.refs a hmem with heq | ⟨a₁, hmem₁, heq₁⟩
    · exact .inl (heq.trans h.restartCnt)
    · rw [heq₁]
      exact h.refs a₁ hmem₁
  at_ := fun slot ref e hat => h.at_ slot ref e (h'.at_ slot ref e hat)

theorem Thinned.counted (ht : Thinned s s') (h : Counted own s) : Counted own s' := by
  refine h.shrink ht.supps ht.sent ht.restartCnt ?_ ?_ ?_ ?_
  · intro a hmem
    rcases ht.refs a hmem with heq | ⟨a₀, hmem₀, heq⟩
    · exact heq.le
    · exact heq.le.trans (h.arrays a₀ hmem₀)
  · rw [ht.files]
    exact h.files
  · intro slot ref e hat _
    exact ⟨slot, e, ht.at_ slot ref e hat, .refl e⟩
  · intro ref e hfile _
    exact .inr (ht.files ▸ hfile)

/-- An array is replaced by one with its reference. -/
theorem thinned_modify {i : Nat} {f : StorageArray → StorageArray}
    (hf : ∀ a, (f a).referenceRestartCnt = a.referenceRestartCnt)
    (hat : ∀ slot ref e, At (s.arrays.modify i f) slot ref e → At s.arrays slot ref e) :
    Thinned s { s with arrays := s.arrays.modify i f } where
  supps := rfl
  sent := rfl
  restartCnt := rfl
  files := rfl
  refs := by
    intro a hmem
    obtain ⟨j, hj⟩ := List.mem_iff_getElem?.mp hmem
    rw [List.getElem?_modify] at hj
    obtain ⟨a₀, ha₀, rfl⟩ := Option.map_eq_some_iff.mp hj
    refine .inr ⟨a₀, List.mem_of_getElem? ha₀, ?_⟩
    split
    · exact hf a₀
    · rfl
  at_ := hat

theorem reserve_thinned (slot : Slot) (s : Auth) : Thinned s (s.reserve slot) :=
  thinned_modify (fun _ => rfl) fun _ _ _ => at_reserve

theorem at_setSlot {arrays : List StorageArray} {slot slot' : Slot} {ref : Nat}
    {e : KeyStorage} (h : At (setSlot slot' none arrays) slot ref e) :
    slot ≠ slot' ∧ At arrays slot ref e := by
  rcases at_set (f := fun a => { a with entries := a.entries.set slot'.2 none })
      (g := fun _ => none) (fun _ => rfl) (fun _ => rfl) h with ⟨-, _, -, -, hnone⟩ | hat
  · cases hnone
  · exact hat

theorem setSlot_thinned (slot : Slot) (s : Auth) :
    Thinned s { s with arrays := setSlot slot none s.arrays } :=
  thinned_modify (fun _ => rfl) fun _ _ _ hat => (at_setSlot hat).2

theorem replace_spec {slot : Slot} (h : s.replace = some (slot, s')) :
    Thinned s s' ∧ ∀ ref e, ¬At s'.arrays slot ref e := by
  have hwiped : ∀ (slot : Slot) (n : Nat),
      Thinned s { s with arrays := setSlot slot none s.arrays, replaceIndex := n } := by
    intro slot n
    obtain ⟨hsupps, hsent, hrestart, hfiles, hrefs, hat⟩ := setSlot_thinned slot s
    exact ⟨hsupps, hsent, hrestart, hfiles, hrefs, hat⟩
  unfold replace at h
  split at h
  · cases h
    exact ⟨hwiped _ _, fun ref e hat => (at_setSlot hat).1 rfl⟩
  · split at h
    · cases h
    · rename_i heq
      cases h
      exact ⟨heq ▸ hwiped (0, 0) 1, fun ref e hat => (at_setSlot hat).1 rfl⟩

/-- **The place to write to** is the one of the address, or holds nothing. -/
theorem slotToWrite_spec {memory : Bool} {keys : SecKeys} {slot : Slot}
    (h : s.slotToWrite cfg memory x keys = some (slot, s')) :
    Thinned s s' ∧ (∀ slot', slotFor x s.arrays = some slot' → slot = slot') ∧
      ∀ ref e, At s'.arrays slot ref e → e.ptkEui64 = x := by
  unfold slotToWrite at h
  split at h
  · rename_i slot' hfor
    cases h
    refine ⟨reserve_thinned slot s, ?_, fun ref e hat => slotFor_at hfor (at_reserve hat)⟩
    intro slot' hfor'
    exact Option.some.inj (hfor.symm.trans hfor')
  · rename_i hfor
    have hnot : ∀ slot', slotFor x s.arrays = some slot' → slot = slot' := by
      intro slot' hfor'
      rw [hfor] at hfor'
      cases hfor'
    have hfree : ∀ {t : Auth} {slot : Slot}, slotFree t.arrays = some slot →
        ∀ ref e, At (t.reserve slot).arrays slot ref e → e.ptkEui64 = x :=
      fun hfree ref e hat => (slotFree_at hfree (at_reserve hat)).elim
    split at h
    · cases h
    · split at h
      · rename_i hslot
        cases h
        exact ⟨reserve_thinned slot s, hnot, hfree hslot⟩
      · dsimp only at h
        generalize hgrown : (if (decide (0 < s.storagesEmpty) && memory) = true then
          { s with
            arrays := s.arrays ++ [storageAllocate s.restartCnt cfg.entries true]
            storagesEmpty := s.storagesEmpty - 1 }
          else s) = t at h
        have hthin : Thinned s t := by
          subst hgrown
          split
          · refine ⟨rfl, rfl, rfl, rfl, ?_, fun _ _ _ => at_append (by simp [storageAllocate])⟩
            intro a hmem
            rcases List.mem_append.mp hmem with hmem | hmem
            · exact .inr ⟨a, hmem, rfl⟩
            · obtain rfl := List.mem_singleton.mp hmem
              exact .inl rfl
          · exact .refl s
        split at h
        · rename_i hslot
          cases h
          exact ⟨hthin.trans (reserve_thinned slot t), hnot, hfree hslot⟩
        · obtain ⟨hwiped, hempty⟩ := replace_spec h
          exact ⟨hthin.trans hwiped, hnot, fun ref e hat => (hempty ref e hat).elim⟩

theorem slotToWrite_none {memory : Bool} {keys : SecKeys}
    (h : s.slotToWrite cfg memory x keys = none) : slotFor x s.arrays = none := by
  unfold slotToWrite at h
  split at h
  · cases h
  · rename_i hfor
    exact hfor

/-! ## Writing and reading -/

theorem write_upToDate (e : KeyStorage) (keys : SecKeys) : UpToDate keys (e.write keys) := by
  refine ⟨rfl, ?_⟩
  show (if _ then BitVec.ofNat 16 keys.pmkKeyReplayCnt else e.pmkKeyReplayCnt).toNat = _
  split
  · exact BitVec.toNat_ofNat _ _
  · rename_i hsame
    have heq : e.pmkKeyReplayCnt.toNat = keys.pmkKeyReplayCnt := by
      by_contra hne
      exact hsame (by simp [hne])
    have := e.pmkKeyReplayCnt.isLt
    omega

/-- What stands in the arrays after an entry was written. -/
theorem at_writeEntry {other : Bool} {keys : SecKeys} {slot slot' : Slot} {ref : Nat}
    {arrays : List StorageArray} {e : KeyStorage} (hslot : ∀ ref e, At arrays slot ref e → e.ptkEui64 = x)
    (h : At (writeEntry other x keys slot arrays) slot' ref e) :
    (slot' = slot ∧ (∃ a, arrays[slot.1]? = some a ∧ a.referenceRestartCnt = ref) ∧
      e.pmk = keys.pmk ∧ e.ptkEui64 = x ∧ UpToDate keys e) ∨
    (slot' ≠ slot ∧ At arrays slot' ref e) := by
  let old (a : StorageArray) : Option KeyStorage := (a.entries[slot.2]?).join
  let new (a : StorageArray) : KeyStorage := ((old a).getD (.zero x)).write keys
  rcases at_set (g := fun a => some (new a))
      (f := fun a => { a with
        entries := a.entries.set slot.2 (some (new a))
        modified := a.modified || (old a).isNone || ((old a).getD (.zero x)).modifiedBy keys ||
          other })
      (fun _ => rfl) (fun _ => rfl) h with ⟨rfl, a, ha, href, he⟩ | hat
  · obtain rfl := Option.some.inj he
    refine .inl ⟨rfl, ⟨a, ha, href⟩, rfl, ?_, write_upToDate _ _⟩
    show (((a.entries[slot'.2]?).join).getD (.zero x)).ptkEui64 = x
    cases hold : (a.entries[slot'.2]?).join with
    | none => rfl
    | some old => exact hslot ref old ⟨a, ha, href, Option.join_eq_some_iff.mp hold⟩
  · exact .inr hat

/-- The arrays keep their references. -/
theorem writeEntry_refs {other : Bool} {keys : SecKeys} {slot : Slot}
    {arrays : List StorageArray} : ∀ a ∈ writeEntry other x keys slot arrays,
      ∃ a₀ ∈ arrays, a.referenceRestartCnt = a₀.referenceRestartCnt := by
  intro a hmem
  obtain ⟨j, hj⟩ := List.mem_iff_getElem?.mp hmem
  unfold writeEntry at hj
  rw [List.getElem?_modify] at hj
  obtain ⟨a₀, ha₀, rfl⟩ := Option.map_eq_some_iff.mp hj
  refine ⟨a₀, List.mem_of_getElem? ha₀, ?_⟩
  split <;> rfl

/-- An entry is written for a supplicant that keeps its keys. -/
theorem writeEntry_counted (h : Counted own s) {supp : SuppEntry} {slot : Slot} (other : Bool)
    (hx : s.supps x = some supp) (hslot : ∀ ref e, At s.arrays slot ref e → e.ptkEui64 = x)
    (hfits : supp.secKeys.pmk ≠ none → ∀ a, s.arrays[slot.1]? = some a →
      a.referenceRestartCnt + supp.secKeys.pmkKeyReplayCnt / 2 ^ 32 ≤ s.restartCnt) :
    Counted own { s with arrays := writeEntry other x supp.secKeys slot s.arrays } := by
  have hcopy : ∀ ref e, Copy { s with arrays := writeEntry other x supp.secKeys slot s.arrays } ref e →
      (e.pmk = supp.secKeys.pmk ∧ e.ptkEui64 = x ∧ (supp.secKeys.pmk ≠ none →
        ref + supp.secKeys.pmkKeyReplayCnt / 2 ^ 32 ≤ s.restartCnt)) ∨ Copy s ref e := by
    rintro ref e (⟨slot', hat⟩ | hfile)
    · rcases at_writeEntry hslot hat with ⟨-, ⟨a, ha, rfl⟩, hpmk, heui64, -⟩ | ⟨-, hat⟩
      · exact .inl ⟨hpmk, heui64, fun hne => hfits hne a ha⟩
      · exact .inr (.inl ⟨slot', hat⟩)
    · exact .inr (.inr hfile)
  refine ⟨h.fresh, ?_, h.files, h.ownSupp, ?_, h.low, h.held, ?_, ?_, ?_⟩
  · intro a hmem
    obtain ⟨a₀, hmem₀, heq⟩ := writeEntry_refs a hmem
    exact heq.le.trans (h.arrays a₀ hmem₀)
  · intro ref e p hc hp
    rcases hcopy ref e hc with ⟨hpmk, heui64, -⟩ | hc
    · rw [heui64]
      exact h.ownSupp x supp p hx (hpmk ▸ hp)
    · exact h.ownCopy ref e p hc hp
  · intro y t p ref e hy hp hc he
    rcases hcopy ref e hc with ⟨hpmk, -, hepoch⟩ | hc
    · have hsupp : supp.secKeys.pmk = some p := hpmk ▸ he
      obtain rfl : y = x := (h.ownSupp y t p hy hp).symm.trans (h.ownSupp x supp p hx hsupp)
      obtain rfl : supp = t := Option.some.inj (hx.symm.trans hy)
      exact hepoch (by simp [hsupp])
    · exact h.epoch y t p ref e hy hp hc he
  · intro p f ref e hmem hc he
    rcases hcopy ref e hc with ⟨hpmk, -, hepoch⟩ | hc
    · have hsupp : supp.secKeys.pmk = some p := hpmk ▸ he
      have := hepoch (by simp [hsupp])
      obtain ⟨-, hle⟩ := h.held x supp p f hx hsupp hmem
      show ref + f.replayCounter / 2 ^ 32 ≤ s.restartCnt
      omega
    · exact h.past p f ref e hmem hc he
  · intro p f slot' ref e hmem hnone hat he
    rcases at_writeEntry hslot hat with ⟨-, -, hpmk, -, -⟩ | ⟨-, hat⟩
    · exact (hnone x supp hx (hpmk ▸ he)).elim
    · exact h.rest p f slot' ref e hmem hnone hat he

theorem keysToWrite_eq (keys : SecKeys) :
    (nearLimit keys = false ∧ keysToWrite keys = keys) ∨
      (nearLimit keys = true ∧ (keysToWrite keys).pmk = none ∧
        (keysToWrite keys).pmkKeyReplayCnt = 0) := by
  unfold keysToWrite
  cases nearLimit keys
  · exact .inl ⟨rfl, rfl⟩
  · exact .inr ⟨rfl, rfl, rfl⟩

theorem setKeys_eq {supp : SuppEntry} (hx : s.supps x = some supp) (f : SecKeys → SecKeys) :
    s.setKeys x f = s.setSupp x (some { supp with secKeys := f supp.secKeys }) := by
  simp [setKeys, hx]

/-- A PMK belongs to one node, so its other copies are where no entry of the node is. -/
theorem Counted.eui64_of_pmk (h : Counted own s) {supp : SuppEntry} {slot : Slot} {ref : Nat}
    {e : KeyStorage} (hx : s.supps x = some supp) (hat : At s.arrays slot ref e)
    (hne : e.pmk ≠ none) (heq : e.pmk = supp.secKeys.pmk) : e.ptkEui64 = x := by
  obtain ⟨p, hp⟩ := Option.ne_none_iff_exists'.mp hne
  rw [← h.ownCopy ref e p (.inl ⟨slot, hat⟩) hp]
  exact h.ownSupp x supp p hx (heq ▸ hp)

/-- What a write comes down to. -/
theorem suppWrite_cases (cfg : AuthCfg) (env : WriteEnv) {supp : SuppEntry} (hx : s.supps x = some supp) :
    (slotFor x s.arrays = none ∧ s.suppWrite cfg env x = s) ∨
      ∃ slot t, s.slotToWrite cfg env.memory x supp.secKeys = some (slot, t) ∧
        ((env.timeError = true ∧ s.suppWrite cfg env x = t) ∨
          (env.timeError = false ∧ s.suppWrite cfg env x =
            { t with
              arrays := writeEntry env.otherChanged x (keysToWrite supp.secKeys) slot t.arrays
              }.setSupp x (some { supp with secKeys := keysToWrite supp.secKeys }))) := by
  cases hslot : s.slotToWrite cfg env.memory x supp.secKeys with
  | none => exact .inl ⟨slotToWrite_none hslot, by simp [suppWrite, hx, hslot]⟩
  | some place =>
      obtain ⟨slot, t⟩ := place
      refine .inr ⟨slot, t, rfl, ?_⟩
      cases htime : env.timeError with
      | true => exact .inl ⟨rfl, by simp [suppWrite, hx, hslot, htime]⟩
      | false =>
          refine .inr ⟨rfl, ?_⟩
          obtain ⟨hthin, -⟩ := slotToWrite_spec hslot
          have hxt : t.supps x = some supp := by rw [hthin.supps, hx]
          simp [suppWrite, hx, hslot, htime, setKeys, hxt]

/-- **A write** keeps the counters. -/
theorem suppWrite_counted {env : WriteEnv} (h : Counted own s)
    (hfits : WriteFits cfg env x s) : Counted own (s.suppWrite cfg env x) := by
  cases hx : s.supps x with
  | none => simpa [suppWrite, hx] using h
  | some supp =>
      rcases suppWrite_cases cfg env hx with
        ⟨-, hsame⟩ | ⟨slot, t, hslot, ⟨-, hdone⟩ | ⟨htime, hdone⟩⟩
      · rw [hsame]
        exact h
      · rw [hdone]
        exact (slotToWrite_spec hslot).1.counted h
      · obtain ⟨hthin, hsame, heui64⟩ := slotToWrite_spec hslot
        obtain ⟨hepoch, hlimit⟩ := hfits supp slot t hx hslot htime
        have ht := hthin.counted h
        have hxt : t.supps x = some supp := by rw [hthin.supps, hx]
        rw [hdone]
        rcases keysToWrite_eq supp.secKeys with ⟨-, hkeys⟩ | ⟨hnear, hpmk, hcnt⟩
        · rw [hkeys]
          have hwritten := writeEntry_counted ht env.otherChanged hxt heui64
            (by rw [hthin.restartCnt]; exact hepoch)
          exact keep_counted (x := x) hwritten hxt rfl rfl rfl
        · have hwritten : Counted own { t with
              arrays := writeEntry env.otherChanged x (keysToWrite supp.secKeys) slot t.arrays } := by
            refine ht.shrink rfl rfl rfl ?_ ht.files ?_ fun ref e hfile _ => .inr hfile
            · intro a hmem
              obtain ⟨a₀, hmem₀, heq⟩ := writeEntry_refs a hmem
              exact heq.le.trans (ht.arrays a₀ hmem₀)
            · intro slot' ref e hat hne
              rcases at_writeEntry heui64 hat with ⟨-, -, heq, -⟩ | ⟨-, hat⟩
              · exact (hne (heq.trans hpmk)).elim
              · exact ⟨slot', e, hat, .refl e⟩
          have hstowed : Stowed none x { t with
              arrays := writeEntry env.otherChanged x (keysToWrite supp.secKeys) slot t.arrays } := by
            intro supp' hx' slot' ref e _ hat hne heq
            obtain rfl : supp = supp' := Option.some.inj (hxt.symm.trans hx')
            rcases at_writeEntry heui64 hat with ⟨-, -, heq', -⟩ | ⟨hne', hat⟩
            · exact (hne (heq'.trans hpmk)).elim
            · refine hlimit hnear supp hx slot' ref e ?_ (hthin.at_ slot' ref e hat) hne heq
              exact fun hfor => hne' (hsame slot' hfor.symm).symm
          exact forget_counted hwritten hstowed hpmk hcnt

/-- After a write all copies have the counter of the supplicant, if all but the one that was
written had it before. -/
theorem suppWrite_stowed {env : WriteEnv} {supp : SuppEntry} (h : Counted own s)
    (hx : s.supps x = some supp)
    (hstowed : Stowed (if env.timeError then none else slotFor x s.arrays) x s) :
    Stowed none x (s.suppWrite cfg env x) := by
  rcases suppWrite_cases cfg env hx with
    ⟨hfor, hsame⟩ | ⟨slot, t, hslot, ⟨htime, hdone⟩ | ⟨htime, hdone⟩⟩
  · rw [hsame]
    intro supp' hx' slot ref e _ hat hne heq
    exact (slotFor_none hfor hat (h.eui64_of_pmk hx' hat hne heq)).elim
  · obtain ⟨hthin, -⟩ := slotToWrite_spec hslot
    rw [htime, if_pos rfl] at hstowed
    rw [hdone]
    intro supp' hx' slot' ref e hne hat
    exact hstowed supp' (hthin.supps ▸ hx') slot' ref e hne (hthin.at_ slot' ref e hat)
  · obtain ⟨hthin, hsame, heui64⟩ := slotToWrite_spec hslot
    rw [htime, if_neg (by simp)] at hstowed
    rw [hdone]
    intro supp' hx' slot' ref e _ hat hne heq
    simp only [setSupp_apply, if_true, Option.some.injEq] at hx'
    subst hx'
    rcases at_writeEntry heui64 hat with ⟨-, -, -, -, hup⟩ | ⟨hne', hat⟩
    · exact hup
    · rcases keysToWrite_eq supp.secKeys with ⟨-, hkeys⟩ | ⟨-, hpmk, -⟩
      · dsimp only at heq ⊢
        rw [hkeys] at heq ⊢
        refine hstowed supp hx slot' ref e ?_ (hthin.at_ slot' ref e hat) hne heq
        exact fun hfor => hne' (hsame slot' hfor.symm).symm
      · exact (hne (heq.trans hpmk)).elim

/-- The entry that a read finds, if there is one. -/
theorem suppRead_cases (memory : Bool) (lifetimes : Lifetimes) :
    (s.suppRead memory lifetimes x).1 = none ∧
        (s.suppRead memory lifetimes x).2 = s ∨
      ∃ slot ref e, slotFor x s.arrays = some slot ∧ At s.arrays slot ref e ∧
        (s.suppRead memory lifetimes x).1 =
          (if memory then some (e.read s.restartCnt ref lifetimes) else none) ∧
        (s.suppRead memory lifetimes x).2 = s.reserve slot := by
  unfold suppRead
  split
  · exact .inl ⟨rfl, rfl⟩
  · rename_i slot hfor
    split
    · exact .inl ⟨rfl, rfl⟩
    · rename_i a ha
      split
      · exact .inl ⟨rfl, rfl⟩
      · rename_i e he
        exact .inr ⟨slot, _, e, hfor, ⟨a, ha, rfl, Option.join_eq_some_iff.mp he⟩, rfl, rfl⟩

/-- The counter of what is read is in the block of the restarts since the reference. -/
theorem read_counter {e : KeyStorage} {restartCnt ref : Nat} {lifetimes : Lifetimes} {p : Pmk}
    (href : ref ≤ restartCnt) (hp : (e.read restartCnt ref lifetimes).pmk = some p) :
    lifetimes.pmk ≠ none ∧ e.pmk = some p ∧
      (e.read restartCnt ref lifetimes).pmkKeyReplayCntSet = e.pmkKeyReplayCntSet ∧
      (e.read restartCnt ref lifetimes).pmkKeyReplayCnt =
        if e.pmkKeyReplayCntSet then e.pmkKeyReplayCnt.toNat + (restartCnt - ref) * 2 ^ 32
        else 0 := by
  unfold KeyStorage.read at hp ⊢
  cases hpmk : lifetimes.pmk with
  | none =>
      rw [hpmk] at hp
      cases hp
  | some pmkLifetime =>
      rw [hpmk] at hp
      cases hptk : lifetimes.ptk <;> simp only [hptk] at hp <;> simp [hp, href]

theorem read_low (e : KeyStorage) (restartCnt ref : Nat) (lifetimes : Lifetimes) :
    (e.read restartCnt ref lifetimes).pmkKeyReplayCnt % 2 ^ 32 < 2 ^ 16 := by
  have hcnt : (e.read restartCnt ref lifetimes).pmkKeyReplayCnt = 0 ∨
      ∃ diff, (e.read restartCnt ref lifetimes).pmkKeyReplayCnt =
        e.pmkKeyReplayCnt.toNat + diff * 2 ^ 32 := by
    unfold KeyStorage.read
    cases lifetimes.pmk with
    | none => exact .inl rfl
    | some pmkLifetime =>
        cases e.pmkKeyReplayCntSet with
        | false => exact .inl (by cases lifetimes.ptk <;> rfl)
        | true => exact .inr ⟨_, by cases lifetimes.ptk <;> rfl⟩
  have := e.pmkKeyReplayCnt.isLt
  rcases hcnt with hcnt | ⟨diff, hcnt⟩ <;> omega

/-- **A supplicant comes back** and goes on from the copy that is read. -/
theorem incomingInd_counted {memory : Bool} {lifetimes : Lifetimes} (h : Counted own s)
    (hyoungest : s.supps x = none → memory = true → lifetimes.pmk ≠ none → ReadsYoungest x s) :
    Counted own (s.incomingInd memory lifetimes x) := by
  unfold incomingInd
  split
  · exact h
  · rename_i hx
    dsimp only
    rcases suppRead_cases memory lifetimes with ⟨hkeys, hsame⟩ | ⟨slot, ref, e, hfor, hat, hkeys, hsame⟩
    · rw [hkeys, hsame]
      exact take_counted h hx (by decide) (fun p hp => by cases hp)
    · rw [hkeys, hsame]
      have hreserved := (reserve_thinned slot s).counted h
      cases memory with
      | false =>
          exact take_counted hreserved hx (Nat.two_pow_pos 16) (fun p hp => by cases hp)
      | true =>
          have href : ref ≤ s.restartCnt := by
            obtain ⟨a, ha, rfl, -⟩ := hat
            exact h.arrays a (List.mem_of_getElem? ha)
          refine take_counted hreserved hx (read_low e _ _ _) ?_
          intro p hp
          obtain ⟨hlifetime, he, hset, hcnt⟩ := read_counter href hp
          have hown : own p = x :=
            (h.ownCopy ref e p (.inl ⟨slot, hat⟩) he).trans (slotFor_at hfor hat)
          -- nobody else has the PMK, so the copy is good for everything sent
          have hnone : ∀ y t, s.supps y = some t → t.secKeys.pmk ≠ some p := by
            intro y t hy hp'
            obtain rfl : y = x := (h.ownSupp y t p hy hp').symm.trans hown
            rw [hx] at hy
            cases hy
          refine ⟨hown, ?_, ?_⟩
          · intro f hmem
            obtain ⟨hes, hle⟩ := h.rest p f slot ref e hmem hnone hat he
            show (e.read s.restartCnt ref lifetimes).pmkKeyReplayCntSet = true ∧
              f.replayCounter ≤ (e.read s.restartCnt ref lifetimes).pmkKeyReplayCnt
            rw [hset, hcnt, if_pos hes]
            exact ⟨hes, by omega⟩
          · intro ref' e' hc he'
            have hc : Copy s ref' e' := by
              rcases hc with ⟨slot', hat'⟩ | hfile
              · exact .inl ⟨slot', at_reserve hat'⟩
              · exact .inr hfile
            have hyoung := hyoungest hx rfl hlifetime slot ref e hfor hat (by simp [he]) ref' e' hc
              (he'.trans he.symm)
            show ref' + (e.read s.restartCnt ref lifetimes).pmkKeyReplayCnt / 2 ^ 32 ≤ s.restartCnt
            have hlt := e.pmkKeyReplayCnt.isLt
            rw [hcnt]
            split <;> omega

/-! ## Files -/

/-- Access revoked: no copy in RAM is left. -/
theorem accessRevoke_counted (h : Counted own s) : Counted own (s.accessRevoke x) := by
  have hat : ∀ slot ref e, At (suppDelete x s).arrays slot ref e →
      e.ptkEui64 ≠ x ∧ At s.arrays slot ref e := by
    rintro slot ref e ⟨a, ha, href, he⟩
    simp only [suppDelete, List.getElem?_map, Option.map_eq_some_iff] at ha
    obtain ⟨a₀, ha₀, rfl⟩ := ha
    simp only [List.getElem?_map, Option.map_eq_some_iff] at he
    obtain ⟨e₀, he₀, hkept⟩ := he
    split at hkept
    · cases hkept
    · rename_i hnot
      subst hkept
      exact ⟨by simpa using hnot, a₀, ha₀, href, he₀⟩
  have hdeleted : Counted own (suppDelete x s) := by
    refine h.shrink rfl rfl rfl ?_ h.files ?_ fun ref e hfile _ => .inr hfile
    · intro a hmem
      obtain ⟨a₀, hmem₀, rfl⟩ := List.mem_map.mp hmem
      exact h.arrays a₀ hmem₀
    · intro slot ref e hs _
      exact ⟨slot, e, (hat slot ref e hs).2, .refl e⟩
  cases hx : s.supps x with
  | none =>
      have hsame : s.accessRevoke x = suppDelete x s := by simp [accessRevoke, hx]
      rw [hsame]
      exact hdeleted
  | some supp =>
      have hsame : s.accessRevoke x = (suppDelete x s).setSupp x
          (some { secKeys := supp.secKeys.pmkDelete.ptkDelete, accessRevoked := true }) := by
        simp [accessRevoke, hx, suppDelete, setSupp]
      rw [hsame]
      refine forget_counted hdeleted ?_ rfl rfl
      intro supp' hx' slot ref e _ hs hne heq
      obtain ⟨hnot, hs⟩ := hat slot ref e hs
      exact (hnot (h.eui64_of_pmk hx' hs hne heq)).elim

theorem timeCheck_refs {a : StorageArray} {c : TimeCheck} {n : Nat}
    (h : a.referenceRestartCnt ≤ n) : (timeCheck n a c).referenceRestartCnt ≤ n := by
  cases c
  · exact le_rfl
  · exact h
  · exact h

theorem timeCheck_entries {a : StorageArray} {c : TimeCheck} {n j : Nat} {e : KeyStorage}
    (h : (timeCheck n a c).entries[j]? = some (some e)) :
    (timeCheck n a c).referenceRestartCnt = a.referenceRestartCnt ∧
      ∃ e₀, a.entries[j]? = some (some e₀) ∧ Alike e e₀ := by
  cases c with
  | error =>
      obtain ⟨v, -, hv⟩ := List.mem_map.mp (List.mem_of_getElem? h)
      cases hv
  | unchanged => exact ⟨rfl, e, h, .refl e⟩
  | updated pmkExpired ptkExpired =>
      refine ⟨rfl, ?_⟩
      simp only [timeCheck, List.getElem?_mapIdx, Option.map_eq_some_iff] at h
      obtain ⟨v, hv, he⟩ := h
      split at he
      · cases he
      · split at he
        · obtain ⟨e₀, rfl, rfl⟩ := Option.map_eq_some_iff.mp he
          exact ⟨e₀, hv, rfl, rfl, rfl, rfl⟩
        · subst he
          exact ⟨e, hv, .refl e⟩

theorem store_counted (checks : Nat → TimeCheck) (h : Counted own s) :
    Counted own (s.store checks) := by
  -- the flags of an array do not matter
  have hback : ∀ (i : Nat) (a : StorageArray), (s.store checks).arrays[i]? = some a →
      ∃ a₀, s.arrays[i]? = some a₀ ∧ a.referenceRestartCnt =
        (timeCheck s.restartCnt a₀ (checks i)).referenceRestartCnt ∧
        a.entries = (timeCheck s.restartCnt a₀ (checks i)).entries := by
    intro i a ha
    simp only [store, List.getElem?_mapIdx, Option.map_eq_some_iff] at ha
    obtain ⟨a₀, ha₀, rfl⟩ := ha
    refine ⟨a₀, ha₀, ?_⟩
    split <;> exact ⟨rfl, rfl⟩
  refine h.shrink rfl rfl rfl ?_ h.files ?_ fun ref e hfile _ => .inr hfile
  · intro a hmem
    obtain ⟨i, hi⟩ := List.mem_iff_getElem?.mp hmem
    obtain ⟨a₀, ha₀, href, -⟩ := hback i a hi
    rw [href]
    exact timeCheck_refs (h.arrays a₀ (List.mem_of_getElem? ha₀))
  · rintro slot ref e ⟨a, ha, rfl, he⟩ _
    obtain ⟨a₀, ha₀, href, hentries⟩ := hback slot.1 a ha
    rw [hentries] at he
    obtain ⟨href₀, e₀, he₀, halike⟩ := timeCheck_entries he
    exact ⟨slot, e₀, ⟨a₀, ha₀, (href.trans href₀).symm, he₀⟩, halike⟩

theorem scatterTimerTimeout_counted (h : Counted own s) :
    Counted own s.scatterTimerTimeout := by
  unfold scatterTimerTimeout
  split
  · exact h
  · rename_i i hi
    split
    · exact h
    · rename_i a ha
      have hfile : ∀ j file, Function.update s.files i
          (some ⟨a.referenceRestartCnt, a.entries⟩) j = some file →
          s.files j = some file ∨ file = ⟨a.referenceRestartCnt, a.entries⟩ := by
        intro j file hj
        rw [Function.update_apply] at hj
        split at hj
        · cases hj
          exact .inr rfl
        · exact .inl hj
      refine h.shrink rfl rfl rfl ?_ ?_ ?_ ?_
      · intro a' hmem
        obtain ⟨j, hj⟩ := List.mem_iff_getElem?.mp hmem
        dsimp only at hj
        rw [List.getElem?_modify] at hj
        obtain ⟨a₀, ha₀, rfl⟩ := Option.map_eq_some_iff.mp hj
        have := h.arrays a₀ (List.mem_of_getElem? ha₀)
        split <;> exact this
      · intro j file hj
        rcases hfile j file hj with hj | rfl
        · exact h.files j file hj
        · exact h.arrays a (List.mem_of_getElem? ha)
      · intro slot ref e hat _
        obtain ⟨a₀, ha₀, href, he⟩ := at_modify
          (f := fun a => { a with pendingStoring := false, modified := false }) (fun _ => rfl) hat
        refine ⟨slot, e, ⟨a₀, ha₀, href, ?_⟩, .refl e⟩
        split at he
        · exact he
        · exact he
      · rintro ref e ⟨j, file, hj, rfl, hmem⟩ _
        rcases hfile j file hj with hj | rfl
        · exact .inr ⟨j, file, hj, rfl, hmem⟩
        · obtain ⟨k, hk⟩ := List.mem_iff_getElem?.mp hmem
          exact .inl ⟨(i, k), a, ha, rfl, hk⟩

/-- An array after a restart: empty, or what a file holds, with the counters reset. -/
def Loaded (files : Nat → Option StorageFile) (restartCnt : Nat) (a : StorageArray) : Prop :=
  (a.referenceRestartCnt = restartCnt ∧ ∀ e, some e ∉ a.entries) ∨
    ∃ i file, files i = some file ∧ a.referenceRestartCnt = file.referenceRestartCnt ∧
      ∀ e, some e ∈ a.entries →
        ∃ e₀, some e₀ ∈ file.entries ∧ e₀.countersCheckAndUpdate = some e

theorem clear_loaded (files : Nat → Option StorageFile) (restartCnt : Nat) (a : StorageArray) :
    Loaded files restartCnt (a.clear restartCnt) := by
  refine .inl ⟨rfl, fun e hmem => ?_⟩
  obtain ⟨v, -, hv⟩ := List.mem_map.mp hmem
  cases hv

/-- One file: a time error has cleared the array before its counters are looked at. -/
theorem readFile_loaded {timeErrors : Nat → Bool} {files : Nat → Option StorageFile}
    {restartCnt i : Nat} {state : List StorageArray × Option StorageArray × Nat}
    (h : ∀ a ∈ state.1 ++ state.2.1.toList, Loaded files restartCnt a) :
    ∀ a ∈ (readFile cfg timeErrors files restartCnt state i).1 ++
        (readFile cfg timeErrors files restartCnt state i).2.1.toList,
      Loaded files restartCnt a := by
  obtain ⟨arrays, spare, storagesEmpty⟩ := state
  have harrays : ∀ a ∈ arrays, Loaded files restartCnt a :=
    fun a hmem => h a (List.mem_append_left _ hmem)
  unfold readFile
  dsimp only
  split
  · simpa using harrays
  · rename_i a _
    split
    · intro a' hmem
      rcases List.mem_append.mp hmem with hmem | hmem
      · exact harrays a' hmem
      · obtain rfl := List.mem_singleton.mp hmem
        exact clear_loaded files restartCnt a
    · rename_i file hfile
      intro a' hmem
      simp only [Option.toList_none, List.append_nil, List.mem_append, List.mem_singleton] at hmem
      rcases hmem with hmem | rfl
      · exact harrays a' hmem
      · split
        · refine .inl ⟨rfl, fun e hmem => ?_⟩
          obtain ⟨v, hv, hbind⟩ := List.mem_map.mp hmem
          obtain ⟨w, -, rfl⟩ := List.mem_map.mp hv
          cases hbind
        · refine .inr ⟨i, file, hfile, rfl, fun e hmem => ?_⟩
          obtain ⟨v, hv, hbind⟩ := List.mem_map.mp hmem
          obtain ⟨e₀, rfl, he⟩ := Option.bind_eq_some_iff.mp hbind
          exact ⟨e₀, hv, he⟩

theorem readFiles_loaded {timeErrors : Nat → Bool} {files : Nat → Option StorageFile}
    {restartCnt : Nat} (is : List Nat) {state : List StorageArray × Option StorageArray × Nat}
    (h : ∀ a ∈ state.1 ++ state.2.1.toList, Loaded files restartCnt a) :
    ∀ a ∈ (is.foldl (readFile cfg timeErrors files restartCnt) state).1 ++
        (is.foldl (readFile cfg timeErrors files restartCnt) state).2.1.toList,
      Loaded files restartCnt a := by
  induction is generalizing state with
  | nil => exact h
  | cons i is ih => exact ih (readFile_loaded h)

theorem countersCheckAndUpdate_some {e e₀ : KeyStorage}
    (h : e₀.countersCheckAndUpdate = some e) :
    e.pmk = e₀.pmk ∧ e.ptkEui64 = e₀.ptkEui64 ∧
      e.pmkKeyReplayCntSet = e₀.pmkKeyReplayCntSet := by
  unfold KeyStorage.countersCheckAndUpdate at h
  split at h
  · cases h
    exact ⟨rfl, rfl, rfl⟩
  · split at h
    · cases h
    · cases h
      exact ⟨rfl, rfl, rfl⟩

/-- What a power cycle leaves of the state. -/
theorem powerCycle_spec (cfg : AuthCfg) (s : Auth) (env : BootEnv) :
    (s.powerCycle cfg env).supps = (fun _ => none) ∧ (s.powerCycle cfg env).sent = s.sent ∧
      (s.powerCycle cfg env).restartCnt = (s.restartFile.map fun n => (n + 1) % 2 ^ 32).getD 0 ∧
      (∀ i file, (s.powerCycle cfg env).files i = some file → s.files i = some file) ∧
      ∀ a ∈ (s.powerCycle cfg env).arrays, Loaded s.files (s.powerCycle cfg env).restartCnt a := by
  unfold powerCycle
  dsimp only
  -- which restart count goes back to its file does not matter here
  generalize (if env.countersSet = true then s.restartFile.map fun _ =>
    (s.restartFile.map fun n => (n + 1) % 2 ^ 32).getD 0 else s.restartFile) = restartFile
  split
  · exact ⟨rfl, rfl, rfl, fun _ _ h => h, readFiles_loaded _ (fun _ hmem => by cases hmem)⟩
  · refine ⟨rfl, rfl, rfl, fun i file h => ?_, fun _ hmem => by cases hmem⟩
    dsimp only at h
    split at h
    · cases h
    · exact h

/-- **A power cycle** begins a block of counters that nothing was sent in. -/
theorem powerCycle_counted (env : BootEnv) (h : Counted own s) (hfit : FilesFit s) :
    Counted own (s.powerCycle cfg env) := by
  obtain ⟨hsupps, hsent, hrestart, hfiles, hloaded⟩ := powerCycle_spec cfg s env
  have hnext : ∀ i file, s.files i = some file →
      (s.powerCycle cfg env).restartCnt = s.restartCnt + 1 := by
    intro i file hi
    obtain ⟨hfile, hlt, -⟩ := hfit ⟨i, by simp [hi]⟩
    rw [hrestart, hfile]
    exact Nat.mod_eq_of_lt hlt
  have hfileAt : ∀ ref e, FileAt (s.powerCycle cfg env).files ref e → FileAt s.files ref e := by
    rintro ref e ⟨i, file, hi, href, hmem⟩
    exact ⟨i, file, hfiles i file hi, href, hmem⟩
  -- an entry in RAM comes from one in a file
  have hat : ∀ slot ref e, At (s.powerCycle cfg env).arrays slot ref e →
      ∃ e₀, FileAt s.files ref e₀ ∧ e₀.countersCheckAndUpdate = some e := by
    rintro slot ref e ⟨a, ha, rfl, he⟩
    rcases hloaded a (List.mem_of_getElem? ha) with ⟨-, hempty⟩ | ⟨i, file, hi, href, hfrom⟩
    · exact (hempty e (List.mem_of_getElem? he)).elim
    · obtain ⟨e₀, hmem₀, hchecked⟩ := hfrom e (List.mem_of_getElem? he)
      exact ⟨e₀, ⟨i, file, hi, href.symm, hmem₀⟩, hchecked⟩
  have hcopy : ∀ ref e, Copy (s.powerCycle cfg env) ref e →
      ∃ e₀, FileAt s.files ref e₀ ∧ e.pmk = e₀.pmk ∧ e.ptkEui64 = e₀.ptkEui64 := by
    rintro ref e (⟨slot, hs⟩ | hf)
    · obtain ⟨e₀, hf, hchecked⟩ := hat slot ref e hs
      obtain ⟨hpmk, heui64, -⟩ := countersCheckAndUpdate_some hchecked
      exact ⟨e₀, hf, hpmk, heui64⟩
    · exact ⟨e, hfileAt ref e hf, rfl, rfl⟩
  have hgrown : ∀ {ref e}, FileAt s.files ref e →
      (s.powerCycle cfg env).restartCnt = s.restartCnt + 1 := by
    rintro ref e ⟨i, file, hi, -⟩
    exact hnext i file hi
  have hnobody : ∀ {P : Prop} {y t}, (s.powerCycle cfg env).supps y = some t → P := by
    intro P y t hy
    rw [hsupps] at hy
    cases hy
  refine ⟨?_, ?_, ?_, fun y t p hy => hnobody hy, ?_, fun y t hy => hnobody hy,
    fun y t p f hy => hnobody hy, fun y t p ref e hy => hnobody hy, ?_, ?_⟩
  · rw [hsent]
    exact h.fresh
  · intro a hmem
    rcases hloaded a hmem with ⟨href, -⟩ | ⟨i, file, hi, href, -⟩
    · exact href.le
    · have := h.files i file hi
      have := hnext i file hi
      omega
  · intro i file hi
    have := h.files i file (hfiles i file hi)
    have := hnext i file (hfiles i file hi)
    omega
  · intro ref e p hc hp
    obtain ⟨e₀, hf, hpmk, heui64⟩ := hcopy ref e hc
    rw [heui64]
    exact h.ownCopy ref e₀ p (.inr hf) (hpmk ▸ hp)
  · intro p f ref e hmem hc hp
    obtain ⟨e₀, hf, hpmk, -⟩ := hcopy ref e hc
    have := h.past p f ref e₀ (hsent ▸ hmem) (.inr hf) (hpmk ▸ hp)
    have := hgrown hf
    omega
  · intro p f slot ref e hmem _ hs hp
    obtain ⟨e₀, hf, hchecked⟩ := hat slot ref e hs
    obtain ⟨hpmk, -, hset⟩ := countersCheckAndUpdate_some hchecked
    have hp₀ : e₀.pmk = some p := hpmk ▸ hp
    obtain ⟨i, file, hi, -⟩ := id hf
    obtain ⟨-, -, hused⟩ := hfit ⟨i, by simp [hi]⟩
    have := h.past p f ref e₀ (hsent ▸ hmem) (.inr hf) hp₀
    have := hgrown hf
    exact ⟨hset.trans (hused ref e₀ p f hf hp₀ (hsent ▸ hmem)), by omega⟩

/-! ## Steps and runs -/

theorem ran_counted {δ : Type} {call : Call δ → Call δ} {inst : Instance δ} {gtks : Gtks}
    (hcall : ∀ c, Carries c (call c)) (h : Counted own s) :
    Counted own (s.ran x call inst gtks) := by
  unfold ran
  split
  · exact h
  · rename_i supp hx
    obtain ⟨fs, houts, hnum⟩ := hcall
      { common := inst.common, receiveDisable := false, data := inst.data,
        keys := supp.secKeys, gtks := gtks, outs := [] }
    have houts : sentBy (call _).outs = fs := houts.trans (List.nil_append fs)
    dsimp only
    rw [houts]
    exact carry_counted h hx hnum

theorem fwhCall_carries {remote : Eui64} {nonce : Nonce} {gtkl : Nat} (input : Input)
    (c : Call AuthFwhData) : Carries c (fwhCall cfg remote nonce gtkl c input) := by
  cases input with
  | receive pdu => exact AuthFwh.receive_carries cfg.sec cfg.localEui64 remote nonce gtkl pdu c
  | event => exact AuthFwh.machine_carries cfg.sec cfg.localEui64 remote nonce gtkl none c
  | timeout ticks expired ended =>
      exact AuthFwh.timerTimeout_carries cfg.sec cfg.localEui64 remote nonce gtkl ticks expired
        ended c

theorem gkhCall_carries {gtkl : Nat} (input : Input) (c : Call Bool) :
    Carries c (gkhCall gtkl c input) := by
  cases input with
  | receive pdu => exact AuthGkh.receive_carries gtkl pdu c
  | event => exact AuthGkh.machine_carries gtkl none c
  | timeout ticks expired ended => exact AuthGkh.timerTimeout_carries gtkl ticks expired ended c

/-- The keys of a supplicant change, and it keeps its PMK and the counter. -/
theorem setKeys_counted {f : SecKeys → SecKeys} (h : Counted own s)
    (hf : ∀ keys, (f keys).pmk = keys.pmk ∧ (f keys).pmkKeyReplayCnt = keys.pmkKeyReplayCnt ∧
      (f keys).pmkKeyReplayCntSet = keys.pmkKeyReplayCntSet) : Counted own (s.setKeys x f) := by
  cases hx : s.supps x with
  | none => simpa [setKeys, hx] using h
  | some supp =>
      rw [setKeys_eq hx]
      obtain ⟨hpmk, hcnt, hset⟩ := hf supp.secKeys
      exact keep_counted h hx hpmk hcnt hset

/-- **One step.** -/
theorem step_counted {a : Act} (h : ∃ own, Counted own s) (hkeeps : KeepsCounters cfg s a)
    (hstep : step cfg s a = some s') : ∃ own, Counted own s' := by
  obtain ⟨own, h⟩ := h
  cases a with
  | fwh eui64 inst gtks nonce gtkl input =>
      cases hstep
      exact ⟨own, ran_counted (fun c => fwhCall_carries input c) h⟩
  | gkh eui64 inst gtks gtkl input =>
      cases hstep
      exact ⟨own, ran_counted (fun c => gkhCall_carries input c) h⟩
  | incoming eui64 memory lifetimes =>
      cases hstep
      exact ⟨own, incomingInd_counted h hkeeps⟩
  | gtkInsertIndexSet eui64 index =>
      cases hstep
      exact ⟨own, setKeys_counted h fun _ => ⟨rfl, rfl, rfl⟩⟩
  | ptkExpired eui64 =>
      cases hstep
      exact ⟨own, setKeys_counted h fun _ => ⟨rfl, rfl, rfl⟩⟩
  | tlsFinished eui64 pmk =>
      cases hstep
      obtain ⟨hstowed, hnew⟩ := hkeeps
      cases hx : s.supps eui64 with
      | none => exact ⟨own, by simpa [setKeys, hx] using h⟩
      | some supp =>
          -- the PMK goes to the node of this address from now on
          refine ⟨Function.update own pmk eui64, ?_⟩
          rw [setKeys_eq hx, ← setSupp_setSupp none]
          refine take_counted (drop_counted (hnew.counted h) hstowed) (by simp [setSupp_apply])
            (Nat.two_pow_pos 16) ?_
          intro p hp
          obtain rfl : pmk = p := Option.some.inj hp
          refine ⟨Function.update_self .., fun f hmem => (hnew.2.2 f hmem).elim, ?_⟩
          exact fun ref e hc he => (hnew.2.1 ref e hc he).elim
  | pmkExpired eui64 =>
      cases hstep
      cases hx : s.supps eui64 with
      | none => exact ⟨own, by simpa [setKeys, hx] using h⟩
      | some supp =>
          rw [setKeys_eq hx]
          exact ⟨own, forget_counted h hkeeps rfl rfl⟩
  | accessRevoke eui64 =>
      cases hstep
      exact ⟨own, accessRevoke_counted h⟩
  | storeTimeout eui64 env =>
      cases hstep
      exact ⟨own, suppWrite_counted h hkeeps⟩
  | toInactive eui64 env =>
      cases hstep
      refine ⟨own, ?_⟩
      unfold toInactive
      split
      · exact h
      · rename_i supp hx
        have hkeeps := hkeeps supp hx
        cases hrevoked : supp.accessRevoked with
        | true =>
            rw [hrevoked, Bool.true_or, if_pos rfl] at hkeeps
            exact drop_counted h hkeeps
        | false =>
            rw [hrevoked, Bool.false_or] at hkeeps
            rw [if_neg (by simp)]
            cases htime : env.timeError with
            | true =>
                rw [htime, if_pos rfl] at hkeeps
                have hfits : WriteFits cfg env eui64 s := fun _ _ _ _ _ hno => by
                  rw [htime] at hno
                  cases hno
                refine drop_counted (suppWrite_counted h hfits) (suppWrite_stowed h hx ?_)
                rw [htime, if_pos rfl]
                exact hkeeps
            | false =>
                rw [htime, if_neg (by simp)] at hkeeps
                refine drop_counted (suppWrite_counted h hkeeps.1) (suppWrite_stowed h hx ?_)
                rw [htime, if_neg (by simp)]
                exact hkeeps.2
  | purge eui64 =>
      cases hstep
      exact ⟨own, drop_counted h hkeeps⟩
  | store checks =>
      cases hstep
      exact ⟨own, store_counted checks h⟩
  | scatterTimerTimeout =>
      cases hstep
      exact ⟨own, scatterTimerTimeout_counted h⟩
  | frameCounterStore =>
      cases hstep
      exact ⟨own, h.fresh, h.arrays, h.files, h.ownSupp, h.ownCopy, h.low, h.held, h.epoch,
        h.past, h.rest⟩
  | powerCycle env =>
      cases hstep
      exact ⟨own, powerCycle_counted env h hkeeps⟩

/-- **Counters survive restarts**: as long as every step leaves good copies behind, no two
messages under one PMK have the same counter. -/
theorem run_fresh {as : List Act}
    (hkeeps : Runs.Meets (step cfg) (KeepsCounters cfg) (init cfg) as) :
    ∀ s, Runs.run (step cfg) (init cfg) as = some s → Fresh s.sent := by
  intro s hrun
  obtain ⟨own, h⟩ := Runs.run_invariant (fun s => ∃ own, Counted own s)
    (fun s a s' h hkeeps hstep => step_counted h hkeeps hstep)
    ⟨fun _ => 0, init_counted cfg _⟩ hkeeps hrun
  exact h.fresh

end Auth

end Pae
