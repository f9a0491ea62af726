import WisunModem.GroupKeys
import WisunModem.AuthCounters

/-!
# One message, one answer

The supplicant takes a Message 3 or a group key message only above the replay counter it holds,
and holds the counter of that message afterwards.  The counter goes to NVM together with the
keys, and a change of the counter alone is no reason to write them.

* `ran_spent` — an instance takes a message it has not taken before;
* `run_spent` — over restarts that is so as long as the file has the counter, and EAP-TLS gives
  a PMK under which nothing was taken;
* `Counters.run_fresh_spent` — the same of both ends.
-/

namespace Pae

/-! ## Messages taken -/

/-- The message that was taken, and the PMK held then. -/
def Event.taken : Event → Option (KeyFrame × Option Pmk)
  | .did _ (.counterRaised _) (some f) pmk => some (f, pmk)
  | _ => none

/-- All of them, newest first. -/
def taken (log : List Event) : List (KeyFrame × Option Pmk) := log.filterMap Event.taken

/-- The call has raised the counter. -/
def Out.raises : Out → Bool
  | .did (.counterRaised _) => true
  | _ => false

/-- **No message is taken twice.** -/
def TakenOnce (log : List Event) : Prop := ((taken log).map Prod.fst).Nodup

instance (log : List Event) : Decidable (TakenOnce log) :=
  inferInstanceAs (Decidable ((taken log).map Prod.fst).Nodup)

/-- What was taken in a backed log was authenticated under the PMK of that moment. -/
theorem taken_backed {log : List Event} (h : Backed log) :
    ∀ m ∈ taken log, Answered (some m.1) m.2 := by
  induction log with
  | nil =>
      intro m hmem
      cases hmem
  | cons e log ih =>
      obtain ⟨he, hlog⟩ := h
      intro m hmem
      obtain ⟨e', hmem', htaken⟩ := List.mem_filterMap.mp hmem
      rcases List.mem_cons.mp hmem' with rfl | hmem'
      · unfold Event.taken at htaken
        split at htaken
        · cases htaken
          exact he
        · cases htaken
      · exact ih hlog m (List.mem_filterMap.mpr ⟨e', hmem', htaken⟩)

/-- A message answers to one PMK only. -/
theorem Answered.unique {f : KeyFrame} {pmk pmk' : Option Pmk} (h : Answered (some f) pmk)
    (h' : Answered (some f) pmk') : pmk = pmk' ∧ pmk ≠ none := by
  cases pmk with
  | none => exact h.elim
  | some p =>
      cases pmk' with
      | none => exact h'.elim
      | some p' =>
          cases hmic : f.mic with
          | none => simp [Answered, hmic] at h
          | some ptk =>
              simp only [Answered, hmic] at h h'
              exact ⟨congrArg some (h.1.unique h'.1), by simp⟩

/-! ## What a call does to the counter -/

/-- Nothing, or it takes the message above the counter and raises the counter to it. -/
inductive Taking (frame : Option KeyFrame) (keys keys' : SecKeys) (outs : List Out) : Prop
  | nothing (hpmk : keys'.pmk = keys.pmk) (hcnt : keys'.pmkKeyReplayCnt = keys.pmkKeyReplayCnt)
      (hset : keys'.pmkKeyReplayCntSet = keys.pmkKeyReplayCntSet)
      (hraises : outs.countP Out.raises = 0)
  | message (f : KeyFrame) (hframe : frame = some f)
      (hfresh : keys.pmkReplayCntCompare f.replayCounter = true) (hpmk : keys'.pmk = keys.pmk)
      (hcnt : keys'.pmkKeyReplayCnt = f.replayCounter) (hset : keys'.pmkKeyReplayCntSet = true)
      (hraises : outs.countP Out.raises = 1)

theorem countP_silent {outs : List Out} (h : Silent outs) : outs.countP Out.raises = 0 := by
  refine List.countP_eq_zero.mpr ?_
  intro o hmem
  rcases h o hmem with ⟨f, rfl⟩ | rfl | rfl | ⟨result, -, rfl⟩ <;> simp [Out.raises]

theorem countP_gtkStored (gtks : Gtks) (kdes : Kdes) :
    (gtkStored gtks kdes).countP Out.raises = 0 := by
  refine List.countP_eq_zero.mpr ?_
  intro o hmem
  unfold gtkStored at hmem
  split at hmem
  · cases hmem
  · split at hmem
    · cases hmem
    · obtain rfl := List.mem_singleton.mp hmem
      simp [Out.raises]

/-- A message that `messageGet` lets through is above the counter. -/
theorem Fwh.messageGet_message3 {keys : SecKeys} {d : FwhData} {f : KeyFrame}
    (h : messageGet keys d f = some .message3) :
    keys.pmkReplayCntCompare f.replayCounter = true := by
  unfold messageGet at h
  split at h
  · cases h
  · split at h
    · split at h <;> cases h
    · split at h
      · assumption
      · cases h
    · cases h

theorem Gkh.messageGet_message1 {keys : SecKeys} {f : KeyFrame} (h : messageGet keys f = true) :
    keys.pmkReplayCntCompare f.replayCounter = true := by
  unfold messageGet at h
  split at h
  · cases h
  · split at h
    · exact (Bool.and_eq_true_iff.mp h).1
    · cases h

theorem Fwh.Move.taking {cfg : SecCfg} {recv : Option (FwhMsg × KeyFrame)}
    {c c' : Call FwhData} {frame : Option KeyFrame} (h : Fwh.Move cfg recv c c')
    (hrecv : ∀ f, recv = some (.message3, f) → frame = some f ∧
      c.keys.pmkReplayCntCompare f.replayCounter = true) :
    Taking frame c.keys c'.keys c'.outs := by
  cases h with
  | rest hkeys _ houts =>
      exact .nothing (by rw [hkeys]) (by rw [hkeys]) (by rw [hkeys]) (countP_silent houts)
  | derive pmk outs _ hkeys _ houts hsilent =>
      refine .nothing (by rw [hkeys]) (by rw [hkeys]) (by rw [hkeys]) ?_
      rw [houts]
      simp [Out.raises, countP_silent hsilent]
  | reject f kdes _ _ hkeys _ houts =>
      refine .nothing (by rw [hkeys]) (by rw [hkeys]) (by rw [hkeys]) ?_
      rw [houts]
      exact countP_gtkStored c.gtks kdes
  | retry f kdes gtkl outs hfits _ hkeys _ hsilent houts =>
      obtain ⟨hframe, hfresh⟩ := hrecv f hfits.message
      refine .message f hframe hfresh (by rw [hkeys]; rfl) (by rw [hkeys]; rfl)
        (by rw [hkeys]; rfl) ?_
      rw [houts]
      simp [List.countP_append, List.countP_cons, Out.raises, countP_gtkStored,
        countP_silent hsilent]
  | finish f kdes gtkl result outs hfits _ hkeys _ hsilent houts =>
      obtain ⟨hframe, hfresh⟩ := hrecv f hfits.message
      refine .message f hframe hfresh (by rw [hkeys]; rfl) (by rw [hkeys]; rfl)
        (by rw [hkeys]; rfl) ?_
      rw [houts]
      simp [List.countP_append, List.countP_cons, Out.raises, countP_gtkStored,
        countP_silent hsilent]

theorem Gkh.Move.taking {recv : Option KeyFrame} {c c' : Call Unit} {frame : Option KeyFrame}
    (h : Gkh.Move recv c c')
    (hrecv : ∀ f, recv = some f → frame = some f ∧
      c.keys.pmkReplayCntCompare f.replayCounter = true) :
    Taking frame c.keys c'.keys c'.outs := by
  cases h with
  | rest hkeys houts _ =>
      exact .nothing (by rw [hkeys]) (by rw [hkeys]) (by rw [hkeys]) (countP_silent houts)
  | reject f kdes _ _ hkeys houts _ =>
      refine .nothing (by rw [hkeys]) (by rw [hkeys]) (by rw [hkeys]) ?_
      rw [houts]
      exact countP_gtkStored c.gtks kdes
  | accept f kdes gtkl outs hfits _ hkeys houts hsilent =>
      obtain ⟨hframe, hfresh⟩ := hrecv f hfits.message
      refine .message f hframe hfresh (by rw [hkeys]; rfl) (by rw [hkeys]; rfl)
        (by rw [hkeys]; rfl) ?_
      rw [houts]
      simp [List.countP_append, List.countP_cons, Out.raises, countP_gtkStored,
        countP_silent hsilent]
  | report outs _ hkeys hsilent houts _ =>
      refine .nothing (by rw [hkeys]) (by rw [hkeys]) (by rw [hkeys]) ?_
      rw [houts]
      simp [List.countP_append, Out.raises, countP_silent hsilent]

namespace Supp

/-! ## Calls -/

/-- Nothing was taken twice, and the keys have the highest counter taken under their PMK. -/
structure Spent (s : Supp) : Prop where
  once : TakenOnce s.log
  below : ∀ m ∈ taken s.log, m.2 = s.keys.pmk → m.2 ≠ none →
    s.keys.pmkKeyReplayCntSet = true ∧ m.1.replayCounter ≤ s.keys.pmkKeyReplayCnt

variable {cfg : SecCfg} {s : Supp} {id : Nat} {frame : Option KeyFrame} {pmk : Option Pmk}

/-- The log has one more message for each time the counter was raised. -/
theorem taken_react (o : Out) :
    taken (react id frame pmk s o).log =
      (if o.raises then (frame.map fun f => (f, pmk)).toList else []) ++ taken s.log := by
  cases o with
  | did deed =>
      cases deed with
      | counterRaised counter => cases frame <;> rfl
      | ptkDerived _ => rfl
      | gtkStored _ _ => rfl
      | ptkWritten _ => rfl
  | finishedInd result =>
      simp only [react, authenticateOk]
      split
      · split <;> rfl
      · rfl
  | send _ => rfl
  | createInd => rfl
  | finished => rfl

theorem taken_reacts (id : Nat) (frame : Option KeyFrame) (pmk : Option Pmk) (outs : List Out)
    (s : Supp) :
    ∃ ms, taken (outs.foldl (react id frame pmk) s).log = ms ++ taken s.log ∧
      ms.length ≤ outs.countP Out.raises ∧ ∀ m ∈ ms, frame = some m.1 ∧ m.2 = pmk := by
  induction outs generalizing s with
  | nil => exact ⟨[], rfl, le_rfl, fun _ hmem => by cases hmem⟩
  | cons o outs ih =>
      obtain ⟨ms, hms, hlen, hall⟩ := ih (react id frame pmk s o)
      refine ⟨ms ++ if o.raises then (frame.map fun f => (f, pmk)).toList else [], ?_, ?_, ?_⟩
      · rw [List.append_assoc, ← taken_react]
        exact hms
      · have hone : (frame.map fun f => (f, pmk)).toList.length ≤ 1 := by
          cases frame <;> simp
        rw [List.length_append, List.countP_cons]
        by_cases ho : o.raises = true
        · rw [if_pos ho, if_pos ho]
          omega
        · rw [if_neg ho, if_neg ho]
          simpa using hlen
      · intro m hmem
        rcases List.mem_append.mp hmem with hmem | hmem
        · exact hall m hmem
        · split at hmem
          · obtain ⟨f, rfl, rfl⟩ := Option.map_eq_some_iff.mp (Option.mem_toList.mp hmem)
            exact ⟨rfl, rfl⟩
          · cases hmem

private theorem nodup_of_length_le_one {α : Type} : ∀ {l : List α}, l.length ≤ 1 → l.Nodup
  | [], _ => List.nodup_nil
  | [a], _ => List.nodup_singleton a

/-- **An instance** takes only what was not taken before. -/
theorem ran_spent {δ : Type} {prot : δ → KmpProt} {c : Call δ} (h : Spent s)
    (htaking : Taking frame s.keys c.keys c.outs)
    (hbacked : Backed (s.ran id frame prot c).log) : Spent (s.ran id frame prot c) := by
  obtain ⟨hkeys, -⟩ := reacts_frame id frame s.keys.pmk c.outs (s.took id prot c)
  have hkeys : (s.ran id frame prot c).keys = c.keys := hkeys
  obtain ⟨ms, hms, hlen, hall⟩ :=
    taken_reacts id frame s.keys.pmk c.outs (s.took id prot c)
  have hms : taken (s.ran id frame prot c).log = ms ++ taken s.log := hms
  have hanswered := taken_backed hbacked
  rw [hms] at hanswered
  cases htaking with
  | nothing hpmk hcnt hset hraises =>
      obtain rfl : ms = [] := List.length_eq_zero_iff.mp (by omega)
      refine ⟨?_, ?_⟩
      · unfold TakenOnce
        rw [hms]
        exact h.once
      · rw [hms, hkeys, hpmk, hcnt, hset]
        exact h.below
  | message f hframe hfresh hpmk hcnt hset hraises =>
      -- what was taken before under this PMK is below the message
      have hold : ∀ m ∈ taken s.log, m.2 = s.keys.pmk → m.2 ≠ none →
          m.1.replayCounter < f.replayCounter := by
        intro m hmem heq hne
        obtain ⟨hset, hle⟩ := h.below m hmem heq hne
        have hlt : s.keys.pmkKeyReplayCnt < f.replayCounter := by
          simpa [SecKeys.pmkReplayCntCompare, hset] using hfresh
        exact lt_of_le_of_lt hle hlt
      have hnew : ∀ m ∈ ms, m = (f, s.keys.pmk) := by
        intro m hmem
        obtain ⟨hm, hp⟩ := hall m hmem
        exact Prod.ext (Option.some.inj (hm.symm.trans hframe)) hp
      refine ⟨?_, ?_⟩
      · unfold TakenOnce
        rw [hms, List.map_append, List.nodup_append]
        refine ⟨?_, h.once, ?_⟩
        · refine nodup_of_length_le_one ?_
          rw [List.length_map]
          exact hlen.trans hraises.le
        · intro g hg g' hg' heq
          obtain ⟨m, hmem, rfl⟩ := List.mem_map.mp hg
          obtain ⟨m', hmem', rfl⟩ := List.mem_map.mp hg'
          have hans := hanswered m (List.mem_append_left _ hmem)
          have hans' := hanswered m' (List.mem_append_right _ hmem')
          rw [hnew m hmem] at heq hans
          rw [← heq] at hans'
          obtain ⟨hsame, hne⟩ := hans'.unique hans
          have hlt := hold m' hmem' hsame hne
          rw [← heq] at hlt
          exact lt_irrefl _ hlt
      · intro m hmem heq hne
        rw [hkeys, hpmk] at heq
        rw [hkeys, hcnt]
        refine ⟨hset, ?_⟩
        rcases List.mem_append.mp (hms ▸ hmem) with hmem | hmem
        · rw [hnew m hmem]
        · exact (hold m hmem heq hne).le

/-! ## Steps -/

theorem Spent.congr {s' : Supp} (h : Spent s) (hlog : taken s'.log = taken s.log)
    (hkeys : s'.keys.pmk = s.keys.pmk ∧ s'.keys.pmkKeyReplayCnt = s.keys.pmkKeyReplayCnt ∧
      s'.keys.pmkKeyReplayCntSet = s.keys.pmkKeyReplayCntSet) : Spent s' := by
  obtain ⟨hpmk, hcnt, hset⟩ := hkeys
  refine ⟨?_, ?_⟩
  · unfold TakenOnce
    rw [hlog]
    exact h.once
  · rw [hlog, hpmk, hcnt, hset]
    exact h.below

/-- Without a PMK there is nothing to compare with. -/
theorem Spent.forget {s' : Supp} (h : Spent s) (hlog : taken s'.log = taken s.log)
    (hpmk : s'.keys.pmk = none) : Spent s' := by
  refine ⟨?_, ?_⟩
  · unfold TakenOnce
    rw [hlog]
    exact h.once
  · intro m _ heq hne
    exact (hne (heq.trans hpmk)).elim

theorem msgIfReceive_spent {ongoing : Bool} {type : KmpType} {pdu : Option KeyFrame}
    {snonce : Nonce} (h : Kept s) (hspent : Spent s)
    (hmeant : Genuine cfg s (.receive ongoing type pdu snonce)) :
    Spent (s.msgIfReceive cfg ongoing type pdu snonce) := by
  have hafter := (msgIfReceive_kept h hmeant).1.backed
  unfold msgIfReceive at hafter ⊢
  split
  · exact hspent
  · rename_i k s' hind
    rw [hind] at hafter
    obtain ⟨⟨hsound, -⟩, hmem, hkeys, hlog⟩ := incomingInd_kept h hind
    have hspent : Spent s' :=
      hspent.congr (by rw [hlog]) (by rw [hkeys]; exact ⟨rfl, rfl, rfl⟩)
    have htidy := hsound.tidy k hmem
    unfold KmpTidy at htidy
    dsimp only at hafter
    split
    · exact hspent
    · rename_i henabled
      rw [if_neg henabled] at hafter
      unfold kmpReceive at hafter ⊢
      split
      · rename_i d hprot
        simp only [hprot] at htidy hafter
        obtain ⟨recv, hrecv, hmove, -⟩ :=
          Fwh.receive_moves cfg s'.localEui64 s'.addrGet snonce pdu (s'.call k d) rfl htidy
        refine ran_spent hspent (hmove.taking ?_) hafter
        intro f hf
        obtain ⟨hpdu, hmsg⟩ := hrecv _ _ hf
        exact ⟨hpdu, Fwh.messageGet_message3 hmsg⟩
      · rename_i hprot
        simp only [hprot] at htidy hafter
        obtain ⟨recv, hrecv, hmove, -⟩ := Gkh.receive_moves pdu (s'.call k ()) rfl htidy
        refine ran_spent hspent (hmove.taking ?_) hafter
        intro f hf
        obtain ⟨hpdu, hmsg⟩ := hrecv _ hf
        exact ⟨hpdu, Gkh.messageGet_message1 hmsg⟩

theorem kmpEvent_spent {k : Kmp} (h : Kept s) (hspent : Spent s) (hmem : k ∈ s.kmps) :
    Spent (s.kmpEvent cfg k) := by
  have hafter := (@kmpEvent_kept cfg s k h hmem).1.backed
  have htidy := h.1.tidy k hmem
  unfold kmpEvent at hafter ⊢
  unfold KmpTidy at htidy
  split
  · rename_i d hprot
    simp only [hprot] at htidy hafter
    obtain ⟨hmove, -⟩ :=
      Fwh.machine_moves cfg s.localEui64 s.addrGet d.snonce none (s.call k d) rfl htidy
    exact ran_spent hspent (hmove.taking fun f hf => by cases hf) hafter
  · rename_i hprot
    simp only [hprot] at htidy hafter
    obtain ⟨hmove, -⟩ := Gkh.machine_moves none (s.call k ()) rfl htidy
    exact ran_spent hspent (hmove.taking fun f hf => by cases hf) hafter

theorem kmpTimeout_spent {ticks : Nat} {k : Kmp} (h : Kept s) (hspent : Spent s)
    (hmem : k ∈ s.kmps) : Spent (s.kmpTimeout cfg ticks k) := by
  have hafter := (@kmpTimeout_kept cfg s ticks k h hmem).1.backed
  have htidy := h.1.tidy k hmem
  unfold kmpTimeout at hafter ⊢
  unfold KmpTidy at htidy
  split
  · rename_i d hprot
    simp only [hprot] at htidy hafter
    obtain ⟨hmove, -⟩ := Fwh.timerTimeout_moves cfg ticks (s.call k d) rfl htidy
    exact ran_spent hspent (hmove.taking fun f hf => by cases hf) hafter
  · rename_i hprot
    simp only [hprot] at htidy hafter
    obtain ⟨hmove, -⟩ := Gkh.timerTimeout_moves ticks (s.call k ()) rfl htidy
    exact ran_spent hspent (hmove.taking fun f hf => by cases hf) hafter

theorem event_spent {id : Nat} (h : Kept s) (hspent : Spent s) : Spent (s.event cfg id) := by
  unfold event
  split
  · exact hspent
  · rename_i k hfind
    refine kmpEvent_spent (handled_kept h) ?_
      (List.mem_map_of_mem (List.mem_of_find?_eq_some hfind))
    exact hspent.congr rfl ⟨rfl, rfl, rfl⟩

theorem timeout_spent {ticks id : Nat} (h : Kept s) (hspent : Spent s) :
    Spent (s.timeout cfg ticks id) := by
  unfold timeout
  split
  · exact hspent
  · rename_i k hfind
    exact kmpTimeout_spent h hspent (List.mem_of_find?_eq_some hfind)

theorem fastTimer_spent {ticks : Nat} (h : Kept s) (hspent : Spent s) :
    Spent (s.fastTimer cfg ticks) := by
  unfold fastTimer
  generalize s.kmps.map Kmp.id = ids
  induction ids generalizing s with
  | nil => exact hspent
  | cons id ids ih => exact ih (timeout_kept h) (timeout_spent h hspent)

theorem nvmUpdate_spent (h : Spent s) : Spent s.nvmUpdate := by
  unfold nvmUpdate
  split
  · exact h.congr rfl ⟨rfl, rfl, rfl⟩
  · exact h

theorem authenticate_spent {panId : Nat} {name : String} (h : Spent s) :
    Spent (s.authenticate panId name) := by
  have hcheck : Spent (s.nwKeysValidCheck panId name).2 := by
    unfold nwKeysValidCheck
    split
    · have hclear : Spent { s with gtks := { gtksInit with updated := true } } :=
        h.congr rfl ⟨rfl, rfl, rfl⟩
      exact (nvmUpdate_spent hclear).congr rfl ⟨rfl, rfl, rfl⟩
    · split <;> exact h.congr rfl ⟨rfl, rfl, rfl⟩
  unfold authenticate
  split
  · rename_i s' hvalid
    rw [hvalid] at hcheck
    exact hcheck
  · rename_i s' hvalid
    rw [hvalid] at hcheck
    dsimp only
    split
    · exact hcheck.forget rfl rfl
    · exact hcheck.congr rfl ⟨rfl, rfl, rfl⟩

theorem nwInfoSet_spent {panId : Nat} {name : String} (h : Spent s) :
    Spent (s.nwInfoSet panId name) := by
  unfold nwInfoSet
  split
  · have hmaybe : ∀ {b : Bool} {s : Supp}, Spent s → Spent (if b then s.nvmUpdate else s) := by
      intro b s h
      cases b
      · exact h
      · exact nvmUpdate_spent h
    exact hmaybe (h.forget rfl rfl)
  · exact h

/-- What the file gives back: no PMK, or its PMK with its counter. -/
theorem keysTlvRead_counter (tlv : KeysTlv) (stale : Nat) :
    (keysTlvRead tlv stale).pmk = tlv.pmk.map Prod.snd ∧
      (keysTlvRead tlv stale).pmkKeyReplayCntSet = true ∧
      (tlv.pmk ≠ none → (keysTlvRead tlv stale).pmkKeyReplayCnt = tlv.counter) := by
  unfold keysTlvRead
  cases tlv.ptkEui64 <;> cases hpmk : tlv.pmk <;> cases hptk : (keysTlvTail tlv stale).2 <;>
    simp [SecKeys.ptkWrite, SecKeys.pmkReplayCntSet, SecKeys.pmkWrite, SecKeys.ptkEui64Write,
      keysInit, keysTlvTail, hpmk]

/-- The messages the supplicant takes are meant for the PMK it holds; EAP-TLS gives one under
which nothing was taken; and when the node restarts, nothing was taken under the PMK in the file
above the counter in the file. -/
def KeepsCounter (cfg : SecCfg) (s : Supp) (a : Act) : Prop :=
  Genuine cfg s a ∧
    match a with
    | .tlsFinished pmk => ∀ m ∈ taken s.log, m.2 ≠ some pmk
    | .restart _ _ _ _ =>
        ∀ tlv ∈ s.nvm.toList, ∀ stored ∈ tlv.pmk.toList, ∀ m ∈ taken s.log,
          m.2 = some stored.2 → m.1.replayCounter ≤ tlv.counter
    | _ => True

instance (cfg : SecCfg) (s : Supp) : DecidablePred (KeepsCounter cfg s)
  | .tlsFinished pmk => inferInstanceAs (Decidable
      (Genuine cfg s (.tlsFinished pmk) ∧ ∀ m ∈ taken s.log, m.2 ≠ some pmk))
  | .restart gtks name panId stale => inferInstanceAs (Decidable
      (Genuine cfg s (.restart gtks name panId stale) ∧
        ∀ tlv ∈ s.nvm.toList, ∀ stored ∈ tlv.pmk.toList, ∀ m ∈ taken s.log,
          m.2 = some stored.2 → m.1.replayCounter ≤ tlv.counter))
  | .receive ongoing type pdu snonce =>
      inferInstanceAs (Decidable (Genuine cfg s (.receive ongoing type pdu snonce) ∧ True))
  | .event id => inferInstanceAs (Decidable (Genuine cfg s (.event id) ∧ True))
  | .fastTimer ticks => inferInstanceAs (Decidable (Genuine cfg s (.fastTimer ticks) ∧ True))
  | .authenticate panId name =>
      inferInstanceAs (Decidable (Genuine cfg s (.authenticate panId name) ∧ True))
  | .authenticateFailed => inferInstanceAs (Decidable (Genuine cfg s .authenticateFailed ∧ True))
  | .nwInfoSet panId name =>
      inferInstanceAs (Decidable (Genuine cfg s (.nwInfoSet panId name) ∧ True))
  | .nwKeyValid => inferInstanceAs (Decidable (Genuine cfg s .nwKeyValid ∧ True))
  | .borderRouterAddrWrite eui64 =>
      inferInstanceAs (Decidable (Genuine cfg s (.borderRouterAddrWrite eui64) ∧ True))
  | .addressSet active => inferInstanceAs (Decidable (Genuine cfg s (.addressSet active) ∧ True))
  | .gtksSet gtks => inferInstanceAs (Decidable (Genuine cfg s (.gtksSet gtks) ∧ True))

/-- **One step.** -/
theorem step_spent {s' : Supp} {a : Act} (h : Kept s ∧ Spent s) (hkeeps : KeepsCounter cfg s a)
    (hstep : step cfg s a = some s') : Kept s' ∧ Spent s' := by
  obtain ⟨hkept, hspent⟩ := h
  obtain ⟨hmeant, hkeeps⟩ := hkeeps
  refine ⟨step_kept hkept hmeant hstep, ?_⟩
  cases a with
  | receive ongoing type pdu snonce =>
      cases hstep
      exact msgIfReceive_spent hkept hspent hmeant
  | event id =>
      cases hstep
      exact event_spent hkept hspent
  | fastTimer ticks =>
      cases hstep
      exact fastTimer_spent hkept hspent
  | authenticate panId name =>
      cases hstep
      exact authenticate_spent hspent
  | nwInfoSet panId name =>
      cases hstep
      exact nwInfoSet_spent hspent
  | nwKeyValid =>
      cases hstep
      exact nvmUpdate_spent (hspent.congr rfl ⟨rfl, rfl, rfl⟩)
  | tlsFinished pmk =>
      cases hstep
      refine ⟨hspent.once, ?_⟩
      intro m hmem heq _
      exact (hkeeps m hmem heq).elim
  | restart gtks name panId stale =>
      cases hstep
      refine ⟨hspent.once, ?_⟩
      intro m hmem heq hne
      have hmem : m ∈ taken s.log := hmem
      unfold restart note at heq ⊢
      dsimp only at heq ⊢
      cases hnvm : s.nvm with
      | none =>
          rw [hnvm] at heq
          exact (hne heq).elim
      | some tlv =>
          rw [hnvm] at heq
          obtain ⟨hpmk, hset, hcnt⟩ := keysTlvRead_counter tlv stale
          dsimp only at heq ⊢
          rw [hpmk] at heq
          cases hstored : tlv.pmk with
          | none =>
              rw [hstored] at heq
              exact (hne heq).elim
          | some stored =>
              rw [hstored] at heq
              rw [hcnt (by simp [hstored])]
              exact ⟨hset, hkeeps tlv (by simp [hnvm]) stored (by simp [hstored]) m hmem heq⟩
  | authenticateFailed =>
      cases hstep
      exact hspent.congr rfl ⟨rfl, rfl, rfl⟩
  | borderRouterAddrWrite eui64 =>
      cases hstep
      exact hspent.congr rfl ⟨rfl, rfl, rfl⟩
  | addressSet active =>
      cases hstep
      exact hspent.congr rfl ⟨rfl, rfl, rfl⟩
  | gtksSet gtks =>
      cases hstep
      exact hspent.congr rfl ⟨rfl, rfl, rfl⟩

/-- **No message is taken twice**, as long as the counter is not forgotten. -/
theorem run_spent {localEui64 : Eui64} {as : List Act}
    (hkeeps : Runs.Meets (step cfg) (KeepsCounter cfg) (init localEui64) as) :
    ∀ s, Runs.run (step cfg) (init localEui64) as = some s → TakenOnce s.log := by
  intro s hrun
  have h : Kept s ∧ Spent s := Runs.run_invariant (fun s => Kept s ∧ Spent s)
    (fun s a s' h hkeeps hstep => step_spent h hkeeps hstep)
    ⟨init_kept localEui64, List.nodup_nil, fun m hmem => by cases hmem⟩ hkeeps hrun
  exact h.2.once

end Supp

/-! ## Both ends -/

namespace Counters

/-- **Replay counters survive restarts.**  The authenticator uses no counter of a PMK twice and
the supplicant takes no message twice, in all runs whose steps leave the counters where the
restart finds them. -/
theorem run_fresh_spent (acfg : AuthCfg) (as : List Auth.Act) (scfg : SecCfg)
    (localEui64 : Eui64) (bs : List Supp.Act)
    (hauth : Runs.Meets (Auth.step acfg) (Auth.KeepsCounters acfg) (Auth.init acfg) as)
    (hsupp : Runs.Meets (Supp.step scfg) (Supp.KeepsCounter scfg) (Supp.init localEui64) bs) :
    (∀ s, Runs.run (Auth.step acfg) (Auth.init acfg) as = some s → Auth.Fresh s.sent) ∧
      ∀ s, Runs.run (Supp.step scfg) (Supp.init localEui64) bs = some s → TakenOnce s.log :=
  ⟨Auth.run_fresh hauth, Supp.run_spent hsupp⟩

/-- An authenticator with room for one node. -/
def small : AuthCfg :=
  { sec := ⟨100, 1000, 1000⟩, localEui64 := 1, storages := 1, entries := 1 }

/-- Message 1 to node 2. -/
def message1To2 (nonce : Nonce) : Auth.Act :=
  .fwh 2 ⟨(AuthFwh.init nonce).1, (AuthFwh.init nonce).2⟩ gtksInit nonce 0 .event

/-- The keys of node 2 go to their file. -/
def stored : List Auth.Act :=
  [.storeTimeout 2 ⟨true, false, false⟩, .store fun _ => .unchanged, .scatterTimerTimeout,
    .frameCounterStore]

/-- Power off and on; node 2 comes back. -/
def restarted : List Auth.Act :=
  [.powerCycle ⟨true, false, fun _ => false⟩, .incoming 2 true ⟨some 100, some 100⟩]

/-- Message 1 went out before the keys were stored. -/
def sentFirst : List Auth.Act :=
  [.incoming 2 true ⟨none, none⟩, .tlsFinished 2 7, message1To2 11] ++ stored ++ restarted ++
    [message1To2 12]

/-- The state before the step with this number. -/
def before (n : Nat) : Auth :=
  (Runs.run (Auth.step small) (Auth.init small) (sentFirst.take n)).getD (Auth.init small)

theorem not_at_nil {slot : Slot} {ref : Nat} {e : KeyStorage} : ¬Auth.At [] slot ref e := by
  rintro ⟨a, ha, -⟩
  simp at ha

/-- The PMK is new when EAP-TLS gives it. -/
theorem tlsFinished_keeps : Auth.KeepsCounters small (before 1) (.tlsFinished 2 7) := by
  have harrays : (before 1).arrays = [] := rfl
  have hnone : ∀ slot ref e, ¬Auth.At (before 1).arrays slot ref e := by
    rw [harrays]
    exact fun _ _ _ => not_at_nil
  refine ⟨fun supp _ slot ref e _ hat => (hnone slot ref e hat).elim, ?_, ?_, ?_⟩
  · intro y supp hy
    have hsupps : (before 1).supps =
        Function.update (fun _ => none) 2 (some ⟨keysInit, false⟩) := rfl
    rw [hsupps, Function.update_apply] at hy
    split at hy
    · cases hy
      simp [keysInit]
    · cases hy
  · rintro ref e (⟨slot, hat⟩ | ⟨i, file, hfile, -⟩)
    · exact (hnone slot ref e hat).elim
    · cases hfile
  · intro f hmem
    cases hmem

/-- A counter below 2^32 fits into an array without an age. -/
theorem storeTimeout_keeps :
    Auth.KeepsCounters small (before 3) (.storeTimeout 2 ⟨true, false, false⟩) := by
  intro supp slot s' hx hslot _
  have hkeys : ∀ supp ∈ ((before 3).supps 2).toList,
      supp.secKeys.pmkKeyReplayCnt / 2 ^ 32 = 0 ∧ Auth.nearLimit supp.secKeys = false := by
    decide
  obtain ⟨hcnt, hlimit⟩ := hkeys supp (Option.mem_toList.mpr hx)
  refine ⟨?_, fun h => by simp [hlimit] at h⟩
  intro _ a ha
  rcases (Auth.slotToWrite_spec hslot).1.refs a (List.mem_of_getElem? ha) with href | ⟨a₀, hmem, -⟩
  · rw [hcnt]
    exact href.le
  · cases hmem

/-- The counter was set when the file was written. -/
theorem powerCycle_keeps :
    Auth.KeepsCounters small (before 7) (.powerCycle ⟨true, false, fun _ => false⟩) := by
  refine fun _ => ⟨rfl, by decide, ?_⟩
  rintro ref e pmk f ⟨i, file, hfile, -, hmem⟩ _ _
  have hfiles : (before 7).files =
      Function.update (fun _ => none) 0 ((before 7).files 0) := rfl
  have hset : ∀ file ∈ ((before 7).files 0).toList, ∀ v ∈ file.entries, ∀ e ∈ v.toList,
      e.pmkKeyReplayCntSet = true := by
    decide
  rw [hfiles, Function.update_apply] at hfile
  split at hfile
  · exact hset file (by simp [hfile]) (some e) hmem e (by simp)
  · cases hfile

/-- All references are from before the restart. -/
theorem incoming_keeps :
    Auth.KeepsCounters small (before 8) (.incoming 2 true ⟨some 100, some 100⟩) := by
  rintro _ _ _ slot ref e _ _ _ ref' e' hc _
  have harrays : ∀ a ∈ (before 8).arrays, a.referenceRestartCnt = 0 := by decide
  have hfiles : (before 8).files =
      Function.update (fun _ => none) 0 ((before 8).files 0) := rfl
  have hfile : ∀ file ∈ ((before 8).files 0).toList, file.referenceRestartCnt = 0 := by decide
  have hzero : ref' = 0 := by
    rcases hc with ⟨slot', a, ha, rfl, -⟩ | ⟨i, file, hi, rfl, -⟩
    · exact harrays a (List.mem_of_getElem? ha)
    · rw [hfiles, Function.update_apply] at hi
      split at hi
      · exact hfile file (by simp [hi])
      · cases hi
  rw [hzero]
  exact Nat.zero_le ref

theorem sentFirst_keeps : Runs.Meets (Auth.step small) (Auth.KeepsCounters small)
    (Auth.init small) sentFirst :=
  Runs.meets_cons (t := before 1) (fun _ _ h => (h rfl).elim) rfl <|
    Runs.meets_cons (t := before 2) tlsFinished_keeps rfl <|
    Runs.meets_cons (t := before 3) trivial rfl <|
    Runs.meets_cons (t := before 4) storeTimeout_keeps rfl <|
    Runs.meets_cons (t := before 5) trivial rfl <|
    Runs.meets_cons (t := before 6) trivial rfl <|
    Runs.meets_cons (t := before 7) trivial rfl <|
    Runs.meets_cons (t := before 8) powerCycle_keeps rfl <|
    Runs.meets_cons (t := before 9) incoming_keeps rfl <|
    Runs.meets_cons (t := before 10) trivial rfl trivial

/-- Both ends restart, and go on where they were. -/
theorem restarted_fresh_spent :
    (∃ s, Runs.run (Auth.step small) (Auth.init small) sentFirst = some s ∧ s.sent.length = 2) ∧
      (∃ s, Runs.run (Supp.step ⟨100, 1000, 1000⟩) (Supp.init 2)
        (Supp.joining ++ [.nwKeyValid, .restart gtksInit "net" 1 0]) = some s ∧
        s.keys.pmkKeyReplayCnt = 2) ∧
      (∀ s, Runs.run (Auth.step small) (Auth.init small) sentFirst = some s →
        Auth.Fresh s.sent) ∧
      ∀ s, Runs.run (Supp.step ⟨100, 1000, 1000⟩) (Supp.init 2)
        (Supp.joining ++ [.nwKeyValid, .restart gtksInit "net" 1 0]) = some s →
        TakenOnce s.log :=
  ⟨by decide, by decide,
    run_fresh_spent small sentFirst ⟨100, 1000, 1000⟩ 2
      (Supp.joining ++ [.nwKeyValid, .restart gtksInit "net" 1 0]) sentFirst_keeps (by decide)⟩

/-- The keys were stored before Message 1 went out. -/
def storedFirst : List Auth.Act :=
  [.incoming 2 true ⟨none, none⟩, .tlsFinished 2 7] ++ stored ++ [message1To2 11] ++ restarted ++
    [message1To2 12]

/-- **A counter that was not set** when the PMK was stored is not set after the restart, and the
first message has counter 0 again. -/
theorem counter_reused :
    ∃ s, Runs.run (Auth.step small) (Auth.init small) storedFirst = some s ∧
      ∃ m ∈ s.sent, ∃ m' ∈ s.sent, m.1 = some 7 ∧ m'.1 = some 7 ∧ m.2 ≠ m'.2 ∧
        m.2.replayCounter = m'.2.replayCounter := by
  decide

end Counters

end Pae
