import WisunModem.EapolFrames
import WisunModem.PaeSupp

/-!
# What a rejected message leaves behind

A message of the 4-way handshake or of the group key handshake is checked step by step, and a
check that fails ends its handling.  The checks come before the changes with one exception: the
GTK of a message is inserted before its GTKL is looked for.

* `rejected_unchanged_iff` — a rejected message leaves the keys as they were unless it is
  authentic and has a new GTK without a GTKL;
* `unlisted_inserted` — a Message 3 that is refused and has its GTK inserted.
-/

namespace Pae

/-- An authentic frame with a GTK that the table does not have, and without a GTKL. -/
def Unlisted (ptk : Ptk) (gtks : Gtks) (f : KeyFrame) : Prop :=
  micValidate ptk f = true ∧ ∃ kdes ∈ messageHandle ptk f, kdes.gtkl = none ∧
    ∃ slot ∈ kdes.gtk, (gtks.gtk slot.1).map Prod.fst ≠ some slot.2

instance (ptk : Ptk) (gtks : Gtks) (f : KeyFrame) : Decidable (Unlisted ptk gtks f) :=
  inferInstanceAs (Decidable (_ ∧ ∃ kdes ∈ messageHandle ptk f, _ ∧
    ∃ slot ∈ kdes.gtk, (gtks.gtk slot.1).map Prod.fst ≠ some slot.2))

/-- Without a GTKL the key data is refused. -/
theorem Call.gtkRead_refused {δ : Type} {c c' : Call δ} {kdes : Kdes}
    (hread : c.gtkRead kdes = (false, c')) :
    kdes.gtkl = none ∧ c'.keys = c.keys ∧
      (c'.gtks = c.gtks ↔
        ¬∃ slot ∈ kdes.gtk, (c.gtks.gtk slot.1).map Prod.fst ≠ some slot.2) := by
  unfold Call.gtkRead at hread
  cases hgtkl : kdes.gtkl with
  | some gtkl => simp [hgtkl] at hread
  | none =>
      simp only [hgtkl, Prod.mk.injEq, true_and] at hread
      subst hread
      refine ⟨rfl, ?_⟩
      cases hgtk : kdes.gtk with
      | none => simp
      | some slot =>
          obtain ⟨index, gtk⟩ := slot
          by_cases hheld : (c.gtks.gtk index).map Prod.fst = some gtk
          · have hsame : ¬∃ slot ∈ (some (index, gtk) : Option (Fin 4 × Gtk)),
                (c.gtks.gtk slot.1).map Prod.fst ≠ some slot.2 := by
              rintro ⟨slot, hslot, hne⟩
              cases hslot
              exact hne hheld
            simp only [gtkSet, if_pos hheld, true_and]
            exact iff_of_true trivial hsame
          · simp only [gtkSet, if_neg hheld, Call.out]
            refine ⟨trivial, ?_⟩
            constructor
            · -- the slot now holds the key that it did not hold
              intro hsame
              have hslot := congrArg (fun gtks => (gtks.gtk index).map Prod.fst) hsame
              simp only [Function.update_self, Option.map_some] at hslot
              exact absurd hslot.symm hheld
            · intro hnone
              exact absurd ⟨(index, gtk), rfl, hheld⟩ hnone

namespace Fwh

variable {local_ remote : Eui64} {snonce : Nonce}

/-- A message ends at a check: it is not the one that is awaited, or what is in it is refused.
A machine that awaits none does not look at the message. -/
def refused (local_ remote : Eui64) (snonce : Nonce) (msg : FwhMsg) (f : KeyFrame)
    (c : Call FwhData) : Bool :=
  match c.common.state, msg with
  | .message1, .message1 => !(takeMessage1 local_ remote snonce f c).1
  | .message1, .message3 => true
  | .message3, .message1 => !(takeMessage1 local_ remote snonce f c).1
  | .message3, .message3 => !(takeMessage3 f c).1
  | .message3RetryWait, .message1 => true
  | .message3RetryWait, .message3 => c.common.result ≠ .timeout && !(takeMessage3 f c).1
  | _, _ => false

/-- The handling of a received PDU ends at a check: it is no EAPOL-Key frame, its key type, its
counter or its flags are not those of a message, or the message is refused. -/
def Stops (local_ remote : Eui64) (snonce : Nonce) (pdu : Option KeyFrame) (c : Call FwhData) :
    Prop :=
  ∀ f ∈ pdu, ∀ msg ∈ messageGet c.keys c.data f, refused local_ remote snonce msg f c = true

/-- A Message 3 that is awaited gets as far as its key data, which has a GTK without a GTKL. -/
def Leaks (pdu : Option KeyFrame) (c : Call FwhData) : Prop :=
  ∃ f ∈ pdu, messageGet c.keys c.data f = some .message3 ∧
    (c.common.state = .message3 ∨
      c.common.state = .message3RetryWait ∧ c.common.result ≠ .timeout) ∧
    c.data.anonce = f.keyNonce ∧ Unlisted c.data.newPtk c.gtks f

instance (pdu : Option KeyFrame) (c : Call FwhData) : Decidable (Leaks pdu c) :=
  inferInstanceAs (Decidable (∃ f ∈ pdu, _ ∧ _ ∧ _ ∧ Unlisted c.data.newPtk c.gtks f))

/-- A Message 1 never touches the keys. -/
theorem takeMessage1_keys (local_ remote : Eui64) (snonce : Nonce) (f : KeyFrame)
    (c : Call FwhData) :
    (takeMessage1 local_ remote snonce f c).2.keys = c.keys ∧
      (takeMessage1 local_ remote snonce f c).2.gtks = c.gtks := by
  obtain ⟨⟨eui64, hcall⟩, -⟩ := kdeHandleMessage1_spec local_ remote f c
  unfold takeMessage1
  cases hk : kdeHandleMessage1 local_ remote f c with
  | mk ok c' =>
      rw [hk] at hcall
      obtain rfl : c' = _ := hcall
      cases ok with
      | false => exact ⟨rfl, rfl⟩
      | true =>
          simp only [ptkGenerate, recvReplayCounterStore]
          split <;> exact ⟨rfl, rfl⟩

/-- A Message 3 that is refused. -/
theorem takeMessage3_refused {f : KeyFrame} {c c' : Call FwhData}
    (htake : takeMessage3 f c = (false, c')) :
    c'.keys = c.keys ∧
      (c'.gtks = c.gtks ↔ ¬(c.data.anonce = f.keyNonce ∧ Unlisted c.data.newPtk c.gtks f)) := by
  unfold takeMessage3 at htake
  split at htake
  · rename_i hmic
    cases htake
    exact ⟨rfl, by simp_all [Unlisted]⟩
  · rename_i hmic
    split at htake
    · rename_i hnonce
      cases htake
      exact ⟨rfl, by simp [hnonce]⟩
    · rename_i hnonce
      split at htake
      · rename_i hopen
        cases htake
        exact ⟨rfl, by simp [Unlisted, hopen]⟩
      · rename_i kdes hopen
        cases hread : c.gtkRead kdes with
        | mk ok c₁ =>
            rw [hread] at htake
            cases ok with
            | true => cases htake
            | false =>
                cases htake
                obtain ⟨hgtkl, hkeys, hgtks⟩ := Call.gtkRead_refused hread
                refine ⟨hkeys, hgtks.trans (not_congr ?_)⟩
                constructor
                · intro hslot
                  exact ⟨by simpa using hnonce, by simpa using hmic, kdes, hopen, hgtkl, hslot⟩
                · rintro ⟨-, -, kdes', hopen', -, hslot⟩
                  obtain rfl : kdes' = kdes := by
                    rw [hopen] at hopen'
                    exact (Option.mem_some_iff.mp hopen').symm
                  exact hslot

/-- A Message 1 that is refused. -/
theorem message1_refused (cfg : SecCfg) {f : KeyFrame} {c : Call FwhData}
    (hrefused : refused local_ remote snonce .message1 f c = true) :
    (stateMachine cfg local_ remote snonce (some (.message1, f)) c).keys = c.keys ∧
      (stateMachine cfg local_ remote snonce (some (.message1, f)) c).gtks = c.gtks := by
  have hkept := takeMessage1_keys local_ remote snonce f c
  unfold refused at hrefused
  split at hrefused
  · rename_i hstate _
    simp only [stateMachine, hstate, onMessage1]
    cases htake : takeMessage1 local_ remote snonce f c with
    | mk ok c' =>
        rw [htake] at hrefused hkept
        obtain rfl : ok = false := by simpa using hrefused
        exact hkept
  · rename_i hmsg
    cases hmsg
  · rename_i hstate _
    simp only [stateMachine, hstate, onMessage1Again]
    cases htake : takeMessage1 local_ remote snonce f c with
    | mk ok c' =>
        rw [htake] at hrefused hkept
        obtain rfl : ok = false := by simpa using hrefused
        exact hkept
  · rename_i hmsg
    cases hmsg
  · rename_i hstate _
    simp only [stateMachine, hstate]
    split <;> exact ⟨rfl, rfl⟩
  · rename_i hmsg
    cases hmsg
  · cases hrefused

/-- A Message 3 that is refused: the GTKs change if it leaks. -/
theorem message3_refused (cfg : SecCfg) {f : KeyFrame} {c : Call FwhData}
    (hrefused : refused local_ remote snonce .message3 f c = true)
    (hmsg : messageGet c.keys c.data f = some .message3) :
    (stateMachine cfg local_ remote snonce (some (.message3, f)) c).keys = c.keys ∧
      ((stateMachine cfg local_ remote snonce (some (.message3, f)) c).gtks = c.gtks ↔
        ¬Leaks (some f) c) := by
  have hleaks : Leaks (some f) c ↔ (c.common.state = .message3 ∨
      c.common.state = .message3RetryWait ∧ c.common.result ≠ .timeout) ∧
      c.data.anonce = f.keyNonce ∧ Unlisted c.data.newPtk c.gtks f := by
    simp [Leaks, hmsg]
  unfold refused at hrefused
  split at hrefused
  · rename_i hmsg
    cases hmsg
  · rename_i hstate _
    simp only [stateMachine, hstate]
    exact ⟨trivial, by simp [hleaks, hstate]⟩
  · rename_i hmsg
    cases hmsg
  · rename_i hstate _
    simp only [stateMachine, hstate, onMessage3]
    cases htake : takeMessage3 f c with
    | mk ok c' =>
        rw [htake] at hrefused
        obtain rfl : ok = false := by simpa using hrefused
        obtain ⟨hkeys, hgtks⟩ := takeMessage3_refused htake
        exact ⟨hkeys, hgtks.trans (not_congr (by simp [hleaks, hstate]))⟩
  · rename_i hmsg
    cases hmsg
  · rename_i hstate _
    obtain ⟨hresult, hrefused⟩ : c.common.result ≠ .timeout ∧ (takeMessage3 f c).1 = false := by
      simpa using hrefused
    simp only [stateMachine, hstate, hresult, if_false, onMessage3Again]
    cases htake : takeMessage3 f c with
    | mk ok c' =>
        rw [htake] at hrefused
        obtain rfl : ok = false := by simpa using hrefused
        obtain ⟨hkeys, hgtks⟩ := takeMessage3_refused htake
        exact ⟨hkeys, hgtks.trans (not_congr (by simp [hleaks, hstate, hresult]))⟩
  · cases hrefused

/-- **The 4-way handshake**: a PDU that stops at a check leaves all keys alone unless it
leaks. -/
theorem stopped_unchanged_iff (cfg : SecCfg) {pdu : Option KeyFrame} {c : Call FwhData}
    (hstops : Stops local_ remote snonce pdu c) :
    (receive cfg local_ remote snonce pdu c).keys = c.keys ∧
      ((receive cfg local_ remote snonce pdu c).gtks = c.gtks ↔ ¬Leaks pdu c) := by
  cases pdu with
  | none => exact ⟨rfl, by simp [receive, Leaks]⟩
  | some f =>
      cases hmsg : messageGet c.keys c.data f with
      | none => simp [receive, Leaks, hmsg]
      | some msg =>
          have hrefused := hstops f rfl msg hmsg
          simp only [receive, hmsg]
          cases msg with
          | message1 =>
              have hclean : ¬Leaks (some f) c := by
                rintro ⟨f', hf, hmsg', -⟩
                cases hf
                rw [hmsg] at hmsg'
                cases hmsg'
              obtain ⟨hkeys, hgtks⟩ := message1_refused cfg hrefused
              exact ⟨hkeys, iff_of_true hgtks hclean⟩
          | message3 => exact message3_refused cfg hrefused hmsg

/-- What leaks is refused. -/
theorem Leaks.stops {pdu : Option KeyFrame} {c : Call FwhData} (h : Leaks pdu c) :
    Stops local_ remote snonce pdu c := by
  obtain ⟨f, rfl, hmsg, hstate, hnonce, hmic, kdes, hopen, hgtkl, -⟩ := h
  have hrefused : (takeMessage3 f c).1 = false := by
    have hread := (c.gtkRead_spec kdes).1
    rw [hgtkl] at hread
    cases hr : c.gtkRead kdes with
    | mk ok c' =>
        rw [hr] at hread
        cases hread
        simp [takeMessage3, hmic, hnonce, Option.mem_def.mp hopen, hr]
  intro f' hf msg hmsg'
  cases hf
  rw [hmsg] at hmsg'
  cases hmsg'
  rcases hstate with hstate | ⟨hstate, hresult⟩
  · simp [refused, hstate, hrefused]
  · simp [refused, hstate, hresult, hrefused]

end Fwh

namespace Gkh

/-- `GKH_STATE_MESSAGE_1` goes through all its checks. -/
def Takes (f : KeyFrame) (c : Call Unit) : Prop :=
  micValidate c.keys.ptk f = true ∧
    ∃ kdes ∈ messageHandle c.keys.ptk f, (c.gtkRead kdes).1 = true

/-- The handling of a received PDU ends at a check. -/
def Stops (pdu : Option KeyFrame) (c : Call Unit) : Prop :=
  ∀ f ∈ pdu, messageGet c.keys f = true → c.common.state = .message1 ∧ ¬Takes f c

/-- A Message 1 gets as far as its key data, which has a GTK without a GTKL. -/
def Leaks (pdu : Option KeyFrame) (c : Call Unit) : Prop :=
  ∃ f ∈ pdu, messageGet c.keys f = true ∧ c.common.state = .message1 ∧
    Unlisted c.keys.ptk c.gtks f

instance (pdu : Option KeyFrame) (c : Call Unit) : Decidable (Leaks pdu c) :=
  inferInstanceAs (Decidable (∃ f ∈ pdu, _ ∧ _ ∧ Unlisted c.keys.ptk c.gtks f))

/-- A Message 1 that is refused: the GTKs change if it leaks. -/
theorem message1_refused {f : KeyFrame} {c : Call Unit} (hrefused : ¬Takes f c) :
    (onMessage1 f c).keys = c.keys ∧
      ((onMessage1 f c).gtks = c.gtks ↔ ¬Unlisted c.keys.ptk c.gtks f) := by
  unfold onMessage1
  split
  · rename_i hmic
    exact ⟨rfl, by simp_all [Unlisted]⟩
  · rename_i hmic
    have hmic : micValidate c.keys.ptk f = true := by simpa using hmic
    split
    · rename_i hopen
      exact ⟨rfl, by simp [Unlisted, hopen]⟩
    · rename_i kdes hopen
      cases hread : c.gtkRead kdes with
      | mk ok c' =>
          cases ok with
          | true => exact absurd ⟨hmic, kdes, hopen, by rw [hread]⟩ hrefused
          | false =>
              obtain ⟨hgtkl, hkeys, hgtks⟩ := Call.gtkRead_refused hread
              refine ⟨hkeys, hgtks.trans (not_congr ?_)⟩
              constructor
              · exact fun hslot => ⟨hmic, kdes, hopen, hgtkl, hslot⟩
              · rintro ⟨-, kdes', hopen', -, hslot⟩
                obtain rfl : kdes' = kdes := by
                  rw [hopen] at hopen'
                  exact (Option.mem_some_iff.mp hopen').symm
                exact hslot

/-- **The group key handshake**: a PDU that stops at a check leaves all keys alone unless it
leaks. -/
theorem stopped_unchanged_iff {pdu : Option KeyFrame} {c : Call Unit} (hstops : Stops pdu c) :
    (receive pdu c).keys = c.keys ∧ ((receive pdu c).gtks = c.gtks ↔ ¬Leaks pdu c) := by
  cases pdu with
  | none => exact ⟨rfl, by simp [receive, Leaks]⟩
  | some f =>
      cases hmsg : messageGet c.keys f with
      | false => simp [receive, Leaks, hmsg]
      | true =>
          obtain ⟨hstate, hrefused⟩ := hstops f rfl hmsg
          have hleaks : Leaks (some f) c ↔ Unlisted c.keys.ptk c.gtks f := by
            simp [Leaks, hmsg, hstate]
          obtain ⟨hkeys, hgtks⟩ := message1_refused hrefused
          simp only [receive, hmsg, if_true, stateMachine, hstate]
          exact ⟨hkeys, hgtks.trans (not_congr hleaks.symm)⟩

/-- What leaks is refused. -/
theorem Leaks.stops {pdu : Option KeyFrame} {c : Call Unit} (h : Leaks pdu c) : Stops pdu c := by
  obtain ⟨f, rfl, -, hstate, -, kdes, hopen, hgtkl, -⟩ := h
  rintro f' hf -
  cases hf
  refine ⟨hstate, ?_⟩
  rintro ⟨-, kdes', hopen', hread⟩
  rw [hopen] at hopen'
  cases hopen'
  rw [(c.gtkRead_spec kdes).1, hgtkl] at hread
  cases hread

end Gkh

namespace Supp

/-! ## The node -/

/-- What a rejected message must leave as it was. -/
structure Unchanged (s s' : Supp) : Prop where
  gtks : s'.gtks = s.gtks
  gtkl : s'.keys.gtkl = s.keys.gtkl
  pmk : s'.keys.pmk = s.keys.pmk
  ptk : s'.keys.ptk = s.keys.ptk
  ptkSet : s'.keys.ptkSet = s.keys.ptkSet
  replayCnt : s'.keys.pmkKeyReplayCnt = s.keys.pmkKeyReplayCnt
  replayCntSet : s'.keys.pmkKeyReplayCntSet = s.keys.pmkKeyReplayCntSet

/-- The machine of an instance stops at a check. -/
def KmpStops (s : Supp) (snonce : Nonce) (pdu : Option KeyFrame) (k : Kmp) : Prop :=
  match k.prot with
  | .fwh data => Fwh.Stops s.localEui64 s.addrGet snonce pdu (s.call k data)
  | .gkh => Gkh.Stops pdu (s.call k ())

/-- The machine of an instance gets to a GTK and finds no GTKL. -/
def KmpLeaks (s : Supp) (pdu : Option KeyFrame) (k : Kmp) : Prop :=
  match k.prot with
  | .fwh data => Fwh.Leaks pdu (s.call k data)
  | .gkh => Gkh.Leaks pdu (s.call k ())

instance (s : Supp) (pdu : Option KeyFrame) : DecidablePred (KmpLeaks s pdu)
  | ⟨id, disabled, pending, common, .fwh data⟩ => inferInstanceAs (Decidable
      (Fwh.Leaks pdu (s.call ⟨id, disabled, pending, common, .fwh data⟩ data)))
  | ⟨id, disabled, pending, common, .gkh⟩ => inferInstanceAs (Decidable
      (Gkh.Leaks pdu (s.call ⟨id, disabled, pending, common, .gkh⟩ ())))

/-- The handling of a PDU ends before it gets to an instance, or at a check of one. -/
def Stops (cfg : SecCfg) (ongoing : Bool) (type : KmpType) (pdu : Option KeyFrame)
    (snonce : Nonce) (s : Supp) : Prop :=
  ∀ found ∈ s.incomingInd cfg ongoing type snonce,
    found.1.receiveDisable = true ∨ KmpStops found.2 snonce pdu found.1

/-- The PDU has a new GTK and no GTKL, and nothing else is wrong with it. -/
def Leaks (cfg : SecCfg) (ongoing : Bool) (type : KmpType) (pdu : Option KeyFrame)
    (snonce : Nonce) (s : Supp) : Prop :=
  ∃ found ∈ s.incomingInd cfg ongoing type snonce,
    found.1.receiveDisable = false ∧ KmpLeaks found.2 pdu found.1

instance (cfg : SecCfg) (ongoing : Bool) (type : KmpType) (pdu : Option KeyFrame)
    (snonce : Nonce) (s : Supp) : Decidable (Leaks cfg ongoing type pdu snonce s) :=
  inferInstanceAs (Decidable (∃ found ∈ s.incomingInd cfg ongoing type snonce,
    found.1.receiveDisable = false ∧ KmpLeaks found.2 pdu found.1))

/-- Callbacks leave the keys to the instance. -/
theorem reacts_keys (id : Nat) (frame : Option KeyFrame) (pmk : Option Pmk) (outs : List Out)
    (s : Supp) :
    (outs.foldl (react id frame pmk) s).keys = s.keys ∧
      (outs.foldl (react id frame pmk) s).gtks = s.gtks := by
  induction outs generalizing s with
  | nil => exact ⟨rfl, rfl⟩
  | cons o outs ih =>
      have hone : (react id frame pmk s o).keys = s.keys ∧
          (react id frame pmk s o).gtks = s.gtks := by
        cases o with
        | finishedInd result =>
            simp only [react, authenticateOk]
            split
            · split <;> exact ⟨rfl, rfl⟩
            · exact ⟨rfl, rfl⟩
        | send f => exact ⟨rfl, rfl⟩
        | createInd => exact ⟨rfl, rfl⟩
        | finished => exact ⟨rfl, rfl⟩
        | did deed => exact ⟨rfl, rfl⟩
      obtain ⟨hkeys, hgtks⟩ := ih (react id frame pmk s o)
      exact ⟨hkeys.trans hone.1, hgtks.trans hone.2⟩

theorem ran_keys {δ : Type} (s : Supp) (id : Nat) (frame : Option KeyFrame) (prot : δ → KmpProt)
    (c : Call δ) :
    (s.ran id frame prot c).keys = c.keys ∧ (s.ran id frame prot c).gtks = c.gtks :=
  reacts_keys ..

/-- An instance that is made for a message does not touch the keys. -/
theorem incomingInd_keys {cfg : SecCfg} {ongoing : Bool} {type : KmpType} {snonce : Nonce}
    {s s' : Supp} {k : Kmp} (hind : s.incomingInd cfg ongoing type snonce = some (k, s')) :
    s'.keys = s.keys ∧ s'.gtks = s.gtks := by
  have hnew : ∀ {k s'}, some (s.kmpCreate cfg type snonce) = some (k, s') →
      s'.keys = s.keys ∧ s'.gtks = s.gtks := by
    intro k s' heq
    cases heq
    exact ⟨rfl, rfl⟩
  unfold incomingInd at hind
  split at hind
  · cases hind
  · split at hind
    · exact hnew hind
    · split at hind
      · cases hind
        exact ⟨rfl, rfl⟩
      · exact hnew hind

/-- Keys that are the same and GTKs that are the same if `P`. -/
theorem unchanged_iff {s s' : Supp} {P : Prop} (hkeys : s'.keys = s.keys)
    (hgtks : s'.gtks = s.gtks ↔ P) : Unchanged s s' ↔ P := by
  rw [← hgtks]
  constructor
  · exact Unchanged.gtks
  · intro hsame
    exact ⟨hsame, by rw [hkeys], by rw [hkeys], by rw [hkeys], by rw [hkeys], by rw [hkeys],
      by rw [hkeys]⟩

/-- What the machine of an instance does to the keys of the node. -/
theorem kmpReceive_iff (cfg : SecCfg) {pdu : Option KeyFrame} {snonce : Nonce} {s : Supp}
    {k : Kmp} (hstops : KmpStops s snonce pdu k) :
    (s.kmpReceive cfg snonce pdu k).keys = s.keys ∧
      ((s.kmpReceive cfg snonce pdu k).gtks = s.gtks ↔ ¬KmpLeaks s pdu k) := by
  unfold KmpStops at hstops
  unfold KmpLeaks kmpReceive
  cases hprot : k.prot with
  | fwh data =>
      simp only [hprot] at hstops ⊢
      obtain ⟨hsame, hiff⟩ := Fwh.stopped_unchanged_iff cfg hstops
      obtain ⟨hkeys, hgtks⟩ := s.ran_keys k.id pdu .fwh
        (Fwh.receive cfg s.localEui64 s.addrGet snonce pdu (s.call k data))
      rw [hgtks]
      exact ⟨hkeys.trans hsame, hiff⟩
  | gkh =>
      simp only [hprot] at hstops ⊢
      obtain ⟨hsame, hiff⟩ := Gkh.stopped_unchanged_iff hstops
      obtain ⟨hkeys, hgtks⟩ := s.ran_keys k.id pdu (fun _ => .gkh) (Gkh.receive pdu (s.call k ()))
      rw [hgtks]
      exact ⟨hkeys.trans hsame, hiff⟩

/-- A PDU that stops changes something exactly if it leaks. -/
theorem stopped_iff {cfg : SecCfg} {ongoing : Bool} {type : KmpType} {pdu : Option KeyFrame}
    {snonce : Nonce} {s : Supp} (hstops : Stops cfg ongoing type pdu snonce s) :
    Unchanged s (s.msgIfReceive cfg ongoing type pdu snonce) ↔
      ¬Leaks cfg ongoing type pdu snonce s := by
  unfold Stops at hstops
  unfold Leaks msgIfReceive
  cases hind : s.incomingInd cfg ongoing type snonce with
  | none => exact unchanged_iff rfl (by simp)
  | some found =>
      obtain ⟨k, s'⟩ := found
      obtain ⟨hkeys, hgtks⟩ := incomingInd_keys hind
      have hcase := hstops (k, s') hind
      simp only [Option.mem_def, Option.some.injEq, exists_eq_left']
      cases hdisabled : k.receiveDisable with
      | true =>
          simp only [if_true, Bool.true_eq_false, false_and, not_false_eq_true]
          exact unchanged_iff hkeys (by simp [hgtks])
      | false =>
          obtain ⟨hsame, hiff⟩ := kmpReceive_iff cfg
            (hcase.resolve_left (by simp [hdisabled]))
          simp only [Bool.false_eq_true, if_false, true_and]
          refine unchanged_iff (hsame.trans hkeys) ?_
          rw [← hgtks]
          exact hiff

/-- What leaks is refused by the machine it gets to. -/
theorem Leaks.stops {cfg : SecCfg} {ongoing : Bool} {type : KmpType} {pdu : Option KeyFrame}
    {snonce : Nonce} {s : Supp} (h : Leaks cfg ongoing type pdu snonce s) :
    Stops cfg ongoing type pdu snonce s := by
  obtain ⟨found, hind, -, hleaks⟩ := h
  intro found' hind'
  obtain rfl := Option.mem_unique hind hind'
  refine .inr ?_
  unfold KmpLeaks at hleaks
  unfold KmpStops
  split
  · rename_i data hprot
    simp only [hprot] at hleaks
    exact Fwh.Leaks.stops hleaks
  · rename_i hprot
    simp only [hprot] at hleaks
    exact Gkh.Leaks.stops hleaks

/-- **Rejected handshake messages change nothing** unless they leak: whatever the state and the
bytes, a message that is authentic must not bring a new GTK without a GTKL. -/
theorem rejected_unchanged_iff (w : Eapol.Wire) (cfg : SecCfg) (ongoing : Bool) (type : KmpType)
    (pdu : List UInt8) (snonce : Nonce) (s : Supp) :
    (Stops cfg ongoing type (Eapol.parsePduHeader w pdu) snonce s →
        Unchanged s (s.msgIfReceive cfg ongoing type (Eapol.parsePduHeader w pdu) snonce)) ↔
      ¬Leaks cfg ongoing type (Eapol.parsePduHeader w pdu) snonce s := by
  constructor
  · intro hunchanged hleaks
    exact (stopped_iff hleaks.stops).mp (hunchanged hleaks.stops) hleaks
  · intro hclean hstops
    exact (stopped_iff hstops).mpr hclean

/-- A node that awaits Message 3: it got PMK 7 from EAP-TLS and ANonce 3 in Message 1. -/
def awaiting : List Act :=
  [.authenticate 1 "net", .borderRouterAddrWrite 1, .tlsFinished 7,
    .receive true .fwh (some { KeyFrame.init with
      pairwiseKey := true, keyAck := true, keyNonce := 3,
      keyData := some (.plain { pmkid := some (.calc 7 1 2) }) }) 5,
    .event 0]

/-- A MIC of sixteen ones fits the PTK of that node, and key data is wrapped in eight bytes. -/
def listening : Eapol.Wire :=
  let ptk := ptkCalc 7 2 1 5 3
  { mic := fun _ mic => if mic = List.replicate 16 1 then some ptk else none
    unwrap := fun data => some (ptk, data.drop 8)
    pmkid := fun _ => .other 0
    eapPacket := fun _ => none }

/-- A Message 3 with GTK 2 and without a GTKL. -/
def unlisted : List UInt8 :=
  [3, 3, 0, 127, 2, 0x13, 0xCA, 0, 16] ++ [0, 0, 0, 0, 0, 0, 0, 1] ++
    (List.replicate 31 0 ++ [3]) ++ List.replicate 32 0 ++ List.replicate 16 1 ++ [0, 32] ++
    List.replicate 8 0 ++ [0xdd, 22, 0x00, 0x0F, 0xAC, 1, 2, 0] ++ List.replicate 16 9

/-- The GTK of a Message 3 that is rejected for want of a GTKL is in the table afterwards. -/
theorem unlisted_inserted :
    ∃ s, Runs.run (step ⟨100, 1000, 1000⟩) (init 2) awaiting = some s ∧
      Stops ⟨100, 1000, 1000⟩ true .fwh (Eapol.parsePduHeader listening unlisted) 6 s ∧
      ¬Unchanged s (s.msgIfReceive ⟨100, 1000, 1000⟩ true .fwh
        (Eapol.parsePduHeader listening unlisted) 6) := by
  obtain ⟨s, hrun, hleaks⟩ : ∃ s, Runs.run (step ⟨100, 1000, 1000⟩) (init 2) awaiting = some s ∧
      Leaks ⟨100, 1000, 1000⟩ true .fwh (Eapol.parsePduHeader listening unlisted) 6 s := by
    decide +kernel
  exact ⟨s, hrun, hleaks.stops, fun hsame => (stopped_iff hleaks.stops).mp hsame hleaks⟩

end Supp

end Pae
