import Mathlib.Algebra.GroupWithZero.Nat
import WisunModem.PaeSupp

/-!
# No group key without the pairwise key

A message counts when its MIC was taken under a PTK that comes from the PMK the supplicant
holds.  The machines look at the PTK buffer and at the candidate PTK, and neither goes away
when the PMK does: after `sec_prot_keys_init` the buffer is all zero, and after EAP-TLS it
still holds the PTK of the PMK before.  The log tells which of them are `ages`-old: derived
since the PMK was last written or deleted.

* `react_sound` — what an instance asks for keeps the keys and the log in step;
* `run_backed` — as long as no message fits a key of an earlier PMK, or none at all, whatever
  is stored or reported is backed by the PMK;
* `zeroKey_accepted` — a node without any key stores the GTK of whoever uses the zero key.
-/

namespace Pae

/-! ## Backed by a PMK -/

/-- The frame was authenticated under a PTK derived from this PMK. -/
def Answered : Option KeyFrame → Option Pmk → Prop
  | some f, some pmk =>
      match f.mic with
      | some ptk => Derived pmk ptk ∧ ptk ≠ .zero
      | none => False
  | _, _ => False

instance : ∀ frame pmk, Decidable (Answered frame pmk)
  | none, _ => isFalse not_false
  | some _, none => isFalse not_false
  | some f, some pmk =>
      match h : f.mic with
      | none => isFalse (by simp [Answered, h])
      | some ptk => decidable_of_iff (Derived pmk ptk ∧ ptk ≠ .zero) (by simp [Answered, h])

theorem answered_of_derived {f : KeyFrame} {pmk : Pmk} {ptk : Ptk} (hmic : f.mic = some ptk)
    (hder : Derived pmk ptk) : Answered (some f) (some pmk) := by
  simp only [Answered, hmic]
  refine ⟨hder, ?_⟩
  rintro rfl
  exact hder

/-- The instance raised the replay counter of the PMK. -/
def Event.Raises (id : Nat) : Event → Prop
  | .did id' (.counterRaised _) _ _ => id' = id
  | _ => False

instance (id : Nat) : DecidablePred (Event.Raises id)
  | .did id' deed _ _ =>
      match deed with
      | .counterRaised _ => inferInstanceAs (Decidable (id' = id))
      | .ptkDerived _ => isFalse not_false
      | .gtkStored _ _ => isFalse not_false
      | .ptkWritten _ => isFalse not_false
  | .authOk _ => isFalse not_false
  | .pmkChanged => isFalse not_false
  | .nvmWritten => isFalse not_false
  | .restarted => isFalse not_false

/-- Everything in the log was done in answer to a frame authenticated under the PMK of that
moment, and success was reported by an instance that had taken such a frame. -/
def Backed : List Event → Prop
  | [] => True
  | e :: log =>
      (match e with
        | .did _ (.ptkDerived _) _ _ => True
        | .did _ _ frame pmk => Answered frame pmk
        | .authOk id => ∃ e ∈ log, e.Raises id
        | _ => True) ∧ Backed log

instance decidableBacked : ∀ log, Decidable (Backed log)
  | [] => isTrue trivial
  | e :: log =>
      have := decidableBacked log
      match e with
      | .did _ deed frame pmk =>
          match deed with
          | .ptkDerived _ => inferInstanceAs (Decidable (True ∧ Backed log))
          | .gtkStored _ _ => inferInstanceAs (Decidable (Answered frame pmk ∧ Backed log))
          | .ptkWritten _ => inferInstanceAs (Decidable (Answered frame pmk ∧ Backed log))
          | .counterRaised _ => inferInstanceAs (Decidable (Answered frame pmk ∧ Backed log))
      | .authOk id => inferInstanceAs (Decidable ((∃ e ∈ log, e.Raises id) ∧ Backed log))
      | .pmkChanged => inferInstanceAs (Decidable (True ∧ Backed log))
      | .nvmWritten => inferInstanceAs (Decidable (True ∧ Backed log))
      | .restarted => inferInstanceAs (Decidable (True ∧ Backed log))

/-! ## The age of a PTK -/

/-- Which PTKs were derived since the PMK was last written or deleted: the candidates, the one
in the keys and the one in NVM. -/
structure Ages where
  candidate : Nat → Bool
  ptk : Bool
  stored : Bool

def Ages.note (a : Ages) : Event → Ages
  | .did id (.ptkDerived _) _ _ => { a with candidate := Function.update a.candidate id true }
  | .did id (.ptkWritten _) _ _ => { a with ptk := a.candidate id }
  | .pmkChanged => { a with candidate := fun _ => false, ptk := false }
  | .nvmWritten => { a with stored := a.ptk }
  | .restarted => { a with candidate := fun _ => false, ptk := a.stored }
  | _ => a

def ages : List Event → Ages
  | [] => { candidate := fun _ => false, ptk := false, stored := false }
  | e :: log => (ages log).note e

namespace Supp

/-- If this instance takes the frame, the key it takes it under is of the PMK held now. -/
def Meant (s : Supp) (f : KeyFrame) (k : Kmp) : Prop :=
  match k.prot with
  | .fwh d =>
      Fwh.messageGet s.keys d f = some .message3 → f.mic = some d.newPtk →
        (messageHandle d.newPtk f).isSome →
        (k.common.state = .message3 ∨ k.common.state = .message3RetryWait) →
        (ages s.log).candidate k.id = true
  | .gkh =>
      Gkh.messageGet s.keys f = true → f.mic = some s.keys.ptk →
        (messageHandle s.keys.ptk f).isSome → k.common.state = .message1 →
        (ages s.log).ptk = true

instance (s : Supp) (f : KeyFrame) : DecidablePred (Meant s f)
  | ⟨id, _, _, common, .fwh d⟩ => inferInstanceAs (Decidable (
      Fwh.messageGet s.keys d f = some .message3 → f.mic = some d.newPtk →
        (messageHandle d.newPtk f).isSome →
        (common.state = .message3 ∨ common.state = .message3RetryWait) →
        (ages s.log).candidate id = true))
  | ⟨_, _, _, common, .gkh⟩ => inferInstanceAs (Decidable (
      Gkh.messageGet s.keys f = true → f.mic = some s.keys.ptk →
        (messageHandle s.keys.ptk f).isSome → common.state = .message1 →
        (ages s.log).ptk = true))

/-- A Message 3 that fits the candidate PTK comes while that PTK is of the PMK held now, and so
does a group key message that fits the PTK buffer. -/
def Genuine (cfg : SecCfg) (s : Supp) : Act → Prop
  | .receive ongoing type (some f) snonce =>
      ∀ k ∈ ((s.incomingInd cfg ongoing type snonce).map Prod.fst).toList, Meant s f k
  | _ => True

instance (cfg : SecCfg) (s : Supp) : DecidablePred (Genuine cfg s)
  | .receive ongoing type (some f) snonce => inferInstanceAs (Decidable (
      ∀ k ∈ ((s.incomingInd cfg ongoing type snonce).map Prod.fst).toList, Meant s f k))
  | .receive _ _ none _ => isTrue trivial
  | .event _ => isTrue trivial
  | .fastTimer _ => isTrue trivial
  | .authenticate _ _ => isTrue trivial
  | .authenticateFailed => isTrue trivial
  | .nwInfoSet _ _ => isTrue trivial
  | .nwKeyValid => isTrue trivial
  | .borderRouterAddrWrite _ => isTrue trivial
  | .addressSet _ => isTrue trivial
  | .gtksSet _ => isTrue trivial
  | .tlsFinished _ => isTrue trivial
  | .restart _ _ _ _ => isTrue trivial

end Supp

namespace Supp

/-! ## What the log and the keys have to do with each other -/

/-- An instance between two calls. -/
def KmpTidy (k : Kmp) : Prop :=
  match k.prot with
  | .fwh d => Fwh.Tidy k.common d
  | .gkh => Gkh.Tidy k.common

/-- A group key handshake that has taken its message has raised the counter. -/
def Raised (s : Supp) : Prop :=
  ∀ k ∈ s.kmps, k.prot = .gkh → k.common.state = .createResp → ∃ e ∈ s.log, e.Raises k.id

/-- The candidate PTK of the instance comes from this PMK. -/
def CandidateOf (pmk : Option Pmk) (k : Kmp) : Prop :=
  ∀ d, k.prot = .fwh d → ∃ p, pmk = some p ∧ Derived p d.newPtk

/-- The PTK in the keys comes from the PMK in the keys. -/
def PtkCurrent (keys : SecKeys) : Prop :=
  keys.ptkSet = true ∧ ∃ p, keys.pmk = some p ∧ Derived p keys.ptk

/-- The PTK in the file comes from the PMK in the file. -/
def StoredCurrent (nvm : Option KeysTlv) : Prop :=
  ∃ tlv pmkLifetime pmk ptkLifetime ptk, nvm = some tlv ∧ tlv.pmk = some (pmkLifetime, pmk) ∧
    tlv.ptk = some (ptkLifetime, ptk) ∧ Derived pmk ptk

/-- What the log says about the age of a PTK is true, and the log is backed. -/
structure Sound (s : Supp) : Prop where
  below : ∀ k ∈ s.kmps, k.id < s.nextKmp
  known : ∀ id, (ages s.log).candidate id = true → id < s.nextKmp
  tidy : ∀ k ∈ s.kmps, KmpTidy k
  candidate : ∀ k ∈ s.kmps, (ages s.log).candidate k.id = true → CandidateOf s.keys.pmk k
  ptk : (ages s.log).ptk = true → PtkCurrent s.keys
  stored : (ages s.log).stored = true → StoredCurrent s.nvm
  backed : Backed s.log

theorem init_sound (localEui64 : Eui64) : Sound (init localEui64) where
  below := fun _ hmem => by cases hmem
  known := fun _ h => by cases h
  tidy := fun _ hmem => by cases hmem
  candidate := fun _ hmem => by cases hmem
  ptk := fun h => by cases h
  stored := fun h => by cases h
  backed := trivial

/-- What the callback of an instance is told is true of the keys. -/
def Fine (id : Nat) (frame : Option KeyFrame) (pmk : Option Pmk) (s : Supp) : Out → Prop
  | .did (.ptkDerived _) => id < s.nextKmp ∧ ∀ k ∈ s.kmps, k.id = id → CandidateOf s.keys.pmk k
  | .did (.ptkWritten _) => Answered frame pmk ∧ PtkCurrent s.keys
  | .did _ => Answered frame pmk
  | .finishedInd result => result = .ok → ∃ e ∈ s.log, e.Raises id
  | _ => True

variable {id : Nat} {frame : Option KeyFrame} {pmk : Option Pmk}

/-- A callback leaves keys and file alone, and of an instance everything but its event. -/
theorem react_frame (id : Nat) (frame : Option KeyFrame) (pmk : Option Pmk) (s : Supp)
    (o : Out) :
    (react id frame pmk s o).keys = s.keys ∧ (react id frame pmk s o).nvm = s.nvm ∧
      (react id frame pmk s o).nextKmp = s.nextKmp ∧
      s.log ⊆ (react id frame pmk s o).log ∧
      ∀ k ∈ (react id frame pmk s o).kmps, ∃ k₀ ∈ s.kmps,
        k.id = k₀.id ∧ k.common = k₀.common ∧ k.prot = k₀.prot ∧
          k.receiveDisable = k₀.receiveDisable := by
  have hself : ∀ k ∈ s.kmps, ∃ k₀ ∈ s.kmps, k.id = k₀.id ∧ k.common = k₀.common ∧
      k.prot = k₀.prot ∧ k.receiveDisable = k₀.receiveDisable :=
    fun k hmem => ⟨k, hmem, rfl, rfl, rfl, rfl⟩
  cases o with
  | send f => exact ⟨rfl, rfl, rfl, List.Subset.refl _, hself⟩
  | createInd =>
      refine ⟨rfl, rfl, rfl, List.Subset.refl _, ?_⟩
      intro k hmem
      obtain ⟨k₀, hmem₀, rfl⟩ := List.mem_map.mp hmem
      refine ⟨k₀, hmem₀, ?_⟩
      split <;> exact ⟨rfl, rfl, rfl, rfl⟩
  | finishedInd result =>
      simp only [react, authenticateOk]
      split
      · split
        · exact ⟨rfl, rfl, rfl, List.subset_cons_self _ _, hself⟩
        · exact ⟨rfl, rfl, rfl, List.Subset.refl _, hself⟩
      · exact ⟨rfl, rfl, rfl, List.Subset.refl _, hself⟩
  | finished =>
      refine ⟨rfl, rfl, rfl, List.Subset.refl _, ?_⟩
      intro k hmem
      exact hself k (List.mem_of_mem_filter hmem)
  | did deed => exact ⟨rfl, rfl, rfl, List.subset_cons_self _ _, hself⟩

theorem CandidateOf.congr {p : Option Pmk} {k k₀ : Kmp} (hprot : k.prot = k₀.prot)
    (h : CandidateOf p k₀) : CandidateOf p k := fun d hd => h d (hprot ▸ hd)

theorem KmpTidy.congr {k k₀ : Kmp} (hcommon : k.common = k₀.common) (hprot : k.prot = k₀.prot)
    (h : KmpTidy k₀) : KmpTidy k := by
  unfold KmpTidy
  rw [hprot, hcommon]
  exact h

/-- What is fine stays fine while other callbacks are served. -/
theorem Fine.react {s : Supp} {o o' : Out} (h : Fine id frame pmk s o) :
    Fine id frame pmk (react id frame pmk s o') o := by
  obtain ⟨hkeys, -, hnext, hlog, hkmps⟩ := react_frame id frame pmk s o'
  cases o with
  | did deed =>
      cases deed with
      | ptkDerived _ =>
          refine ⟨by rw [hnext]; exact h.1, ?_⟩
          intro k hmem hid
          obtain ⟨k₀, hmem₀, hid₀, -, hprot, -⟩ := hkmps k hmem
          rw [hkeys]
          exact (h.2 k₀ hmem₀ (hid₀ ▸ hid)).congr hprot
      | ptkWritten _ => exact ⟨h.1, by rw [hkeys]; exact h.2⟩
      | gtkStored _ _ => exact h
      | counterRaised _ => exact h
  | finishedInd result =>
      intro hok
      obtain ⟨e, hmem, hraises⟩ := h hok
      exact ⟨e, hlog hmem, hraises⟩
  | send _ => trivial
  | createInd => trivial
  | finished => trivial

/-- A new entry in the log keeps it in step with the keys if it tells the truth about them. -/
theorem Sound.note {s : Supp} (h : Sound s) (e : Event)
    (hknown : ∀ id, ((ages s.log).note e).candidate id = true → id < s.nextKmp)
    (hcandidate : ∀ k ∈ s.kmps, ((ages s.log).note e).candidate k.id = true →
      CandidateOf s.keys.pmk k)
    (hptk : ((ages s.log).note e).ptk = true → PtkCurrent s.keys)
    (hstored : ((ages s.log).note e).stored = true → StoredCurrent s.nvm)
    (hbacked : Backed (e :: s.log)) : Sound (s.note e) where
  below := h.below
  known := hknown
  tidy := h.tidy
  candidate := hcandidate
  ptk := hptk
  stored := hstored
  backed := hbacked

/-- **A callback** whose message is true keeps the log in step with the keys. -/
theorem react_sound {s : Supp} {o : Out} (h : Sound s) (hfine : Fine id frame pmk s o) :
    Sound (react id frame pmk s o) := by
  cases o with
  | did deed =>
      cases deed with
      | ptkDerived ptk =>
          refine h.note _ ?_ ?_ h.ptk h.stored ⟨trivial, h.backed⟩
          · intro id' hid'
            by_cases heq : id' = id
            · subst heq
              exact hfine.1
            · refine h.known id' ?_
              simpa [Ages.note, Function.update_of_ne heq] using hid'
          · intro k hmem hk
            by_cases heq : k.id = id
            · exact hfine.2 k hmem heq
            · refine h.candidate k hmem ?_
              simpa [Ages.note, Function.update_of_ne heq] using hk
      | ptkWritten ptk =>
          exact h.note _ h.known h.candidate (fun _ => hfine.2) h.stored ⟨hfine.1, h.backed⟩
      | gtkStored index gtk =>
          exact h.note _ h.known h.candidate h.ptk h.stored ⟨hfine, h.backed⟩
      | counterRaised counter =>
          exact h.note _ h.known h.candidate h.ptk h.stored ⟨hfine, h.backed⟩
  | finishedInd result =>
      simp only [react, authenticateOk]
      split
      · rename_i hok
        split
        · have h' : Sound { s with authRequested := false } :=
            ⟨h.below, h.known, h.tidy, h.candidate, h.ptk, h.stored, h.backed⟩
          exact h'.note _ h.known h.candidate h.ptk h.stored ⟨hfine hok, h.backed⟩
        · exact h
      · exact h
  | send f => exact h
  | createInd =>
      obtain ⟨-, -, -, -, hkmps⟩ := react_frame id frame pmk s .createInd
      refine ⟨?_, h.known, ?_, ?_, h.ptk, h.stored, h.backed⟩
      · intro k hmem
        obtain ⟨k₀, hmem₀, hid, -⟩ := hkmps k hmem
        rw [hid]
        exact h.below k₀ hmem₀
      · intro k hmem
        obtain ⟨k₀, hmem₀, -, hcommon, hprot, -⟩ := hkmps k hmem
        exact (h.tidy k₀ hmem₀).congr hcommon hprot
      · intro k hmem hk
        obtain ⟨k₀, hmem₀, hid, -, hprot, -⟩ := hkmps k hmem
        exact (h.candidate k₀ hmem₀ (hid ▸ hk)).congr hprot
  | finished =>
      have hsub : ∀ k ∈ (s.kmps.filter fun k => k.id ≠ id), k ∈ s.kmps :=
        fun k hmem => List.mem_of_mem_filter hmem
      exact ⟨fun k hmem => h.below k (hsub k hmem), h.known,
        fun k hmem => h.tidy k (hsub k hmem), fun k hmem => h.candidate k (hsub k hmem), h.ptk,
        h.stored, h.backed⟩

end Supp

namespace Supp

variable {id : Nat} {frame : Option KeyFrame} {pmk : Option Pmk}

/-- The same of all callbacks of a call, and what was done is in the log. -/
theorem reacts_frame (id : Nat) (frame : Option KeyFrame) (pmk : Option Pmk) (outs : List Out)
    (s : Supp) :
    (outs.foldl (react id frame pmk) s).keys = s.keys ∧
      s.log ⊆ (outs.foldl (react id frame pmk) s).log ∧
      (∀ deed, .did deed ∈ outs →
        .did id deed frame pmk ∈ (outs.foldl (react id frame pmk) s).log) ∧
      ∀ k ∈ (outs.foldl (react id frame pmk) s).kmps, ∃ k₀ ∈ s.kmps,
        k.id = k₀.id ∧ k.common = k₀.common ∧ k.prot = k₀.prot := by
  induction outs generalizing s with
  | nil =>
      exact ⟨rfl, List.Subset.refl _, (fun _ hmem => by cases hmem),
        fun k hmem => ⟨k, hmem, rfl, rfl, rfl⟩⟩
  | cons o outs ih =>
      obtain ⟨hkeys, -, -, hlog, hkmps⟩ := react_frame id frame pmk s o
      obtain ⟨hkeys', hlog', hdid', hkmps'⟩ := ih (react id frame pmk s o)
      refine ⟨hkeys'.trans hkeys, List.Subset.trans hlog hlog', ?_, ?_⟩
      · intro deed hmem
        rcases List.mem_cons.mp hmem with rfl | hmem
        · exact hlog' (List.mem_cons_self ..)
        · exact hdid' deed hmem
      · intro k hmem
        obtain ⟨k₁, hmem₁, hid₁, hcommon₁, hprot₁⟩ := hkmps' k hmem
        obtain ⟨k₀, hmem₀, hid₀, hcommon₀, hprot₀, -⟩ := hkmps k₁ hmem₁
        exact ⟨k₀, hmem₀, hid₁.trans hid₀, hcommon₁.trans hcommon₀, hprot₁.trans hprot₀⟩

/-- All callbacks of a call keep the log in step with the keys. -/
theorem reacts_sound {outs : List Out} {s : Supp} (h : Sound s)
    (hfine : ∀ o ∈ outs, Fine id frame pmk s o) :
    Sound (outs.foldl (react id frame pmk) s) := by
  induction outs generalizing s with
  | nil => exact h
  | cons o outs ih =>
      refine ih (react_sound h (hfine o (List.mem_cons_self ..))) ?_
      intro o' hmem
      exact (hfine o' (List.mem_cons_of_mem _ hmem)).react

/-- The state an instance leaves behind, before its callbacks. -/
def took {δ : Type} (s : Supp) (id : Nat) (prot : δ → KmpProt) (c : Call δ) : Supp :=
  { s with
    keys := c.keys
    gtks := c.gtks
    kmps := s.kmps.map fun k =>
      if k.id = id then
        { k with common := c.common, receiveDisable := c.receiveDisable, prot := prot c.data }
      else k }

theorem mem_took {δ : Type} {s : Supp} {prot : δ → KmpProt} {c : Call δ} {k : Kmp}
    (hmem : k ∈ (s.took id prot c).kmps) :
    (k.id = id ∧ k.common = c.common ∧ k.prot = prot c.data ∧ ∃ k₀ ∈ s.kmps, k₀.id = id) ∨
      (k ∈ s.kmps ∧ k.id ≠ id) := by
  obtain ⟨k₀, hmem₀, rfl⟩ := List.mem_map.mp hmem
  by_cases hid : k₀.id = id
  · rw [if_pos hid]
    exact .inl ⟨hid, rfl, rfl, k₀, hmem₀, hid⟩
  · rw [if_neg hid]
    exact .inr ⟨hmem₀, hid⟩

/-- An instance that keeps the PMK, and whose keys are what the log takes them for. -/
theorem Sound.took {δ : Type} {s : Supp} (h : Sound s) {prot : δ → KmpProt} {c : Call δ}
    (hpmk : c.keys.pmk = s.keys.pmk)
    (htidy : KmpTidy (Kmp.mk id false false c.common (prot c.data)))
    (hcandidate : (ages s.log).candidate id = true → ∀ d, prot c.data = .fwh d →
      ∃ p, s.keys.pmk = some p ∧ Derived p d.newPtk)
    (hptk : (ages s.log).ptk = true → PtkCurrent c.keys) : Sound (s.took id prot c) := by
  refine ⟨?_, h.known, ?_, ?_, hptk, h.stored, h.backed⟩
  · intro k hmem
    rcases mem_took hmem with ⟨hid, -, -, k₀, hmem₀, hid₀⟩ | ⟨hmem, -⟩
    · have := h.below k₀ hmem₀
      rw [hid₀] at this
      rw [hid]
      exact this
    · exact h.below k hmem
  · intro k hmem
    rcases mem_took hmem with ⟨-, hcommon, hprot, -⟩ | ⟨hmem, -⟩
    · exact htidy.congr hcommon hprot
    · exact h.tidy k hmem
  · intro k hmem hk d hd
    show ∃ p, c.keys.pmk = some p ∧ Derived p d.newPtk
    rw [hpmk]
    rcases mem_took hmem with ⟨hid, -, hprot, -⟩ | ⟨hmem, -⟩
    · exact hcandidate (hid ▸ hk) d (hprot ▸ hd)
    · exact h.candidate k hmem hk d hd

/-- What the callbacks are told must be true in the state the instance leaves behind. -/
theorem Sound.ran {δ : Type} {s : Supp} {prot : δ → KmpProt} {c : Call δ}
    (h : Sound (s.took id prot c))
    (hfine : ∀ o ∈ c.outs, Fine id frame s.keys.pmk (s.took id prot c) o) :
    Sound (s.ran id frame prot c) := reacts_sound h hfine

theorem fine_of_silent {outs : List Out} {s : Supp} (h : Silent outs) :
    ∀ o ∈ outs, Fine id frame pmk s o := by
  intro o hmem
  rcases h o hmem with ⟨f, rfl⟩ | rfl | rfl | ⟨result, hne, rfl⟩
  · trivial
  · trivial
  · trivial
  · exact fun hok => (hne hok).elim

theorem fine_gtkStored {gtks : Gtks} {kdes : Kdes} {s : Supp} (h : Answered frame pmk) :
    ∀ o ∈ gtkStored gtks kdes, Fine id frame pmk s o := by
  intro o hmem
  unfold gtkStored at hmem
  split at hmem
  · cases hmem
  · split at hmem
    · cases hmem
    · obtain rfl := List.mem_singleton.mp hmem
      exact h

end Supp

namespace Supp

variable {id : Nat} {frame : Option KeyFrame} {pmk : Option Pmk}

/-- Success may be reported after the counter was raised in the same call. -/
theorem Sound.ran_report {δ : Type} {s : Supp} {prot : δ → KmpProt} {c : Call δ}
    (result : SecResult) (outs : List Out) (counter : Nat) (h : Sound (s.took id prot c))
    (houts : c.outs = outs ++ [.finishedInd result])
    (hfine : ∀ o ∈ outs, Fine id frame s.keys.pmk (s.took id prot c) o)
    (hraised : .did (.counterRaised counter) ∈ outs) : Sound (s.ran id frame prot c) := by
  have hran : s.ran id frame prot c =
      react id frame s.keys.pmk (outs.foldl (react id frame s.keys.pmk) (s.took id prot c))
        (.finishedInd result) := by
    unfold Supp.ran Supp.took
    rw [houts, List.foldl_append]
    rfl
  rw [hran]
  refine react_sound (reacts_sound h hfine) fun _ => ?_
  obtain ⟨-, -, hdid, -⟩ := reacts_frame id frame s.keys.pmk outs
    (s.took id prot c)
  exact ⟨_, hdid _ hraised, rfl⟩

theorem ran_raised {δ : Type} {s : Supp} {prot : δ → KmpProt} {c : Call δ} (h : Raised s)
    (hnew : prot c.data = .gkh → c.common.state = .createResp →
      (∃ e ∈ s.log, e.Raises id) ∨ ∃ counter, .did (.counterRaised counter) ∈ c.outs) :
    Raised (s.ran id frame prot c) := by
  obtain ⟨-, hlog, hdid, hkmps⟩ := reacts_frame id frame s.keys.pmk
    c.outs (s.took id prot c)
  intro k hmem hprot hstate
  obtain ⟨k₁, hmem₁, hid₁, hcommon₁, hprot₁⟩ := hkmps k hmem
  rcases mem_took hmem₁ with ⟨hid, hcommon, hgkh, -⟩ | ⟨hmem₀, -⟩
  · rw [hid₁, hid]
    rcases hnew (by rw [← hgkh, ← hprot₁, hprot]) (by rw [← hcommon, ← hcommon₁, hstate]) with
      ⟨e, hmem, hraises⟩ | ⟨counter, hmem⟩
    · exact ⟨e, hlog hmem, hraises⟩
    · exact ⟨_, hdid _ hmem, rfl⟩
  · obtain ⟨e, hmem, hraises⟩ := h k₁ hmem₀ (hprot₁ ▸ hprot) (hcommon₁ ▸ hstate)
    exact ⟨e, hlog hmem, by rw [hid₁]; exact hraises⟩

/-- What both handshakes do with a message that fits. -/
theorem fine_counterRaised {kdes : Kdes} {gtks : Gtks} {counter : Nat} {outs : List Out}
    {s : Supp} (h : Answered frame pmk) (hsilent : Silent outs) :
    ∀ o ∈ gtkStored gtks kdes ++ .did (.counterRaised counter) :: outs,
      Fine id frame pmk s o := by
  intro o hmem
  rcases List.mem_append.mp hmem with hmem | hmem
  · exact fine_gtkStored h o hmem
  · rcases List.mem_cons.mp hmem with rfl | hmem
    · exact h
    · exact fine_of_silent hsilent o hmem

/-- A call of a 4-way handshake. -/
theorem fwh_sound {cfg : SecCfg} {s : Supp} {k : Kmp} {d : FwhData} {c : Call FwhData}
    {recv : Option (FwhMsg × KeyFrame)} (h : Sound s) (hmem : k ∈ s.kmps)
    (hprot : k.prot = .fwh d) (hmove : Fwh.Move cfg recv (s.call k d) c)
    (htidy : Fwh.Tidy c.common c.data)
    (hmeant : ∀ f kdes, Fwh.Fits recv (s.call k d) f kdes →
      frame = some f ∧ (ages s.log).candidate k.id = true) :
    Sound (s.ran k.id frame .fwh c) := by
  have hold : (ages s.log).candidate k.id = true → ∃ p, s.keys.pmk = some p ∧
      Derived p d.newPtk := fun hk => h.candidate k hmem hk d hprot
  -- a message that fits is answered, by a candidate of the PMK held now
  have hanswer : ∀ f kdes, Fwh.Fits recv (s.call k d) f kdes →
      Answered frame s.keys.pmk ∧ ∃ p, s.keys.pmk = some p ∧ Derived p d.newPtk := by
    intro f kdes hfits
    obtain ⟨rfl, hk⟩ := hmeant f kdes hfits
    obtain ⟨p, hpmk, hder⟩ := hold hk
    rw [hpmk]
    exact ⟨answered_of_derived hfits.mic hder, p, rfl, hder⟩
  cases hmove with
  | rest hkeys hptk houts =>
      refine Sound.ran (h.took (by rw [hkeys]; rfl) htidy ?_ ?_) (fine_of_silent houts)
      · intro hk d' hd'
        cases hd'
        rw [hptk]
        exact hold hk
      · rw [hkeys]
        exact h.ptk
  | derive pmk outs hpmk hkeys hptk houts hsilent =>
      have hcandidate : ∀ d', KmpProt.fwh c.data = .fwh d' →
          ∃ p, s.keys.pmk = some p ∧ Derived p d'.newPtk := by
        intro d' hd'
        cases hd'
        exact ⟨pmk, hpmk, hptk⟩
      refine Sound.ran (h.took (by rw [hkeys]; rfl) htidy (fun _ => hcandidate) ?_) ?_
      · rw [hkeys]
        exact h.ptk
      · rw [houts]
        intro o hmem'
        rcases List.mem_cons.mp hmem' with rfl | hmem'
        · refine ⟨h.below k hmem, ?_⟩
          intro k' hmem₁ hid d' hd'
          rcases mem_took hmem₁ with ⟨-, -, hprot', -⟩ | ⟨-, hne⟩
          · show ∃ p, c.keys.pmk = some p ∧ _
            rw [hkeys]
            exact hcandidate d' (hprot' ▸ hd')
          · exact (hne hid).elim
        · exact fine_of_silent hsilent o hmem'
  | reject f kdes hfits hgtkl hkeys hptk houts =>
      obtain ⟨hans, -⟩ := hanswer f kdes hfits
      refine Sound.ran (h.took (by rw [hkeys]; rfl) htidy ?_ ?_) ?_
      · intro hk d' hd'
        cases hd'
        rw [hptk]
        exact hold hk
      · rw [hkeys]
        exact h.ptk
      · rw [houts]
        exact fine_gtkStored hans
  | retry f kdes gtkl outs hfits hgtkl hkeys hptk hsilent houts =>
      obtain ⟨hans, -⟩ := hanswer f kdes hfits
      refine Sound.ran (h.took (by rw [hkeys]; rfl) htidy ?_ ?_) ?_
      · intro hk d' hd'
        cases hd'
        rw [hptk]
        exact hold hk
      · rw [hkeys]
        exact h.ptk
      · rw [houts]
        exact fine_counterRaised hans hsilent
  | finish f kdes gtkl result outs hfits hgtkl hkeys hptk hsilent houts =>
      obtain ⟨hans, p, hpmk, hder⟩ := hanswer f kdes hfits
      have hcurrent : PtkCurrent c.keys := by
        rw [hkeys]
        exact ⟨rfl, p, hpmk, hder⟩
      refine Sound.ran_report result (gtkStored s.gtks kdes ++
          .did (.counterRaised f.replayCounter) :: (outs ++ [.did (.ptkWritten d.newPtk)]))
        f.replayCounter (h.took (by rw [hkeys]; rfl) htidy ?_ fun _ => hcurrent)
        (by rw [houts]; simp [call]) ?_ (by simp)
      · intro hk d' hd'
        cases hd'
        rw [hptk]
        exact hold hk
      · intro o hmem'
        rw [← List.cons_append, ← List.append_assoc] at hmem'
        rcases List.mem_append.mp hmem' with hmem' | hmem'
        · exact fine_counterRaised hans hsilent o hmem'
        · obtain rfl := List.mem_singleton.mp hmem'
          exact ⟨hans, hcurrent⟩

/-- A call of a group key handshake. -/
theorem gkh_sound {s : Supp} {k : Kmp} {c : Call Unit} {recv : Option KeyFrame} (h : Sound s)
    (hraised : Raised s) (hmem : k ∈ s.kmps) (hprot : k.prot = .gkh)
    (hmove : Gkh.Move recv (s.call k ()) c) (htidy : Gkh.Tidy c.common)
    (hmeant : ∀ f kdes, Gkh.Fits recv (s.call k ()) f kdes →
      frame = some f ∧ (ages s.log).ptk = true) :
    Sound (s.ran k.id frame (fun _ => .gkh) c) ∧
      Raised (s.ran k.id frame (fun _ => .gkh) c) := by
  have hanswer : ∀ f kdes, Gkh.Fits recv (s.call k ()) f kdes → Answered frame s.keys.pmk := by
    intro f kdes hfits
    obtain ⟨rfl, hk⟩ := hmeant f kdes hfits
    obtain ⟨-, p, hpmk, hder⟩ := h.ptk hk
    rw [hpmk]
    exact answered_of_derived hfits.mic hder
  have hnone : (ages s.log).candidate k.id = true → ∀ d, KmpProt.gkh = .fwh d →
      ∃ p, s.keys.pmk = some p ∧ Derived p d.newPtk := fun _ _ hd => by cases hd
  cases hmove with
  | rest hkeys houts hstate =>
      refine ⟨Sound.ran (h.took (by rw [hkeys]; rfl) htidy hnone ?_) (fine_of_silent houts),
        ran_raised hraised fun _ hcreated => .inl (hraised k hmem hprot (hstate hcreated))⟩
      rw [hkeys]
      exact h.ptk
  | reject f kdes hfits hgtkl hkeys houts hstate =>
      refine ⟨Sound.ran (h.took (by rw [hkeys]; rfl) htidy hnone ?_) ?_,
        ran_raised hraised fun _ hcreated => (hstate hcreated).elim⟩
      · rw [hkeys]
        exact h.ptk
      · rw [houts]
        exact fine_gtkStored (hanswer f kdes hfits)
  | accept f kdes gtkl outs hfits hgtkl hkeys houts hsilent =>
      refine ⟨Sound.ran (h.took (by rw [hkeys]; rfl) htidy hnone ?_) ?_,
        ran_raised hraised fun _ _ => .inr ⟨f.replayCounter, by simp [houts]⟩⟩
      · rw [hkeys]
        exact h.ptk
      · rw [houts]
        exact fine_counterRaised (hanswer f kdes hfits) hsilent
  | report outs hcreated hkeys hsilent houts hstate =>
      obtain ⟨e, hlogged, hraises⟩ := hraised k hmem hprot hcreated
      refine ⟨Sound.ran (h.took (by rw [hkeys]; rfl) htidy hnone ?_) ?_,
        ran_raised hraised fun _ hcreated => (hstate hcreated).elim⟩
      · rw [hkeys]
        exact h.ptk
      · rw [houts]
        intro o hmem'
        rcases List.mem_append.mp hmem' with hmem' | hmem'
        · exact fine_of_silent hsilent o hmem'
        · obtain rfl := List.mem_singleton.mp hmem'
          exact fun _ => ⟨e, hlogged, hraises⟩

end Supp

namespace Supp

/-! ## Steps -/

theorem Sound.congr {s s' : Supp} (h : Sound s) (hkmps : s'.kmps = s.kmps)
    (hnext : s'.nextKmp = s.nextKmp) (hkeys : s'.keys.pmk = s.keys.pmk ∧
      s'.keys.ptk = s.keys.ptk ∧ s'.keys.ptkSet = s.keys.ptkSet) (hnvm : s'.nvm = s.nvm)
    (hlog : s'.log = s.log) : Sound s' := by
  obtain ⟨hpmk, hptk, hset⟩ := hkeys
  refine ⟨?_, ?_, ?_, ?_, ?_, ?_, ?_⟩
  · rw [hkmps, hnext]
    exact h.below
  · rw [hlog, hnext]
    exact h.known
  · rw [hkmps]
    exact h.tidy
  · rw [hkmps, hlog, hpmk]
    exact h.candidate
  · unfold PtkCurrent
    rw [hlog, hpmk, hptk, hset]
    exact h.ptk
  · rw [hlog, hnvm]
    exact h.stored
  · rw [hlog]
    exact h.backed

theorem Raised.congr {s s' : Supp} (h : Raised s) (hkmps : s'.kmps = s.kmps)
    (hlog : s.log ⊆ s'.log) : Raised s' := by
  intro k hmem hprot hstate
  obtain ⟨e, hlogged, hraises⟩ := h k (hkmps ▸ hmem) hprot hstate
  exact ⟨e, hlog hlogged, hraises⟩

/-- A step keeps both. -/
def Kept (s : Supp) : Prop := Sound s ∧ Raised s

theorem init_kept (localEui64 : Eui64) : Kept (init localEui64) :=
  ⟨init_sound localEui64, fun _ hmem => by cases hmem⟩

/-- A new instance has no candidate and has taken nothing. -/
theorem kmpCreate_kept (cfg : SecCfg) (type : KmpType) (snonce : Nonce) {s : Supp}
    (h : Kept s) : Kept (s.kmpCreate cfg type snonce).2 ∧
      (s.kmpCreate cfg type snonce).1 ∈ (s.kmpCreate cfg type snonce).2.kmps := by
  obtain ⟨h, hraised⟩ := h
  have hnot : (ages s.log).candidate s.nextKmp ≠ true := fun hk => by
    have := h.known _ hk
    omega
  refine ⟨⟨⟨?_, ?_, ?_, ?_, h.ptk, h.stored, h.backed⟩, ?_⟩, ?_⟩
  · intro k hmem
    rcases List.mem_cons.mp hmem with rfl | hmem
    · cases type <;> exact Nat.lt_succ_self _
    · exact Nat.lt_succ_of_lt (h.below k hmem)
  · exact fun id hid => Nat.lt_succ_of_lt (h.known id hid)
  · intro k hmem
    rcases List.mem_cons.mp hmem with rfl | hmem
    · cases type
      · exact Fwh.tidy_init cfg snonce
      · exact Gkh.tidy_init
    · exact h.tidy k hmem
  · intro k hmem hk
    rcases List.mem_cons.mp hmem with rfl | hmem
    · cases type <;> exact (hnot hk).elim
    · exact h.candidate k hmem hk
  · intro k hmem hprot hstate
    rcases List.mem_cons.mp hmem with rfl | hmem
    · cases type
      · cases hprot
      · cases hstate
    · exact hraised k hmem hprot hstate
  · exact List.mem_cons_self ..

theorem typeGet_mem {kmps : List Kmp} {type : KmpType} {k : Kmp}
    (h : typeGet kmps type = some k) : k ∈ kmps := by
  unfold typeGet at h
  split at h
  · rename_i hfind
    cases h
    exact List.mem_of_find?_eq_some hfind
  · exact List.mem_of_mem_filter (List.mem_of_mem_getLast? h)

/-- The instance a frame goes to is one of the node's, and its keys are the node's. -/
theorem incomingInd_kept {cfg : SecCfg} {ongoing : Bool} {type : KmpType} {snonce : Nonce}
    {s s' : Supp} {k : Kmp} (h : Kept s)
    (hind : s.incomingInd cfg ongoing type snonce = some (k, s')) :
    Kept s' ∧ k ∈ s'.kmps ∧ s'.keys = s.keys ∧ s'.log = s.log := by
  have hnew : ∀ {k s'}, some (s.kmpCreate cfg type snonce) = some (k, s') →
      Kept s' ∧ k ∈ s'.kmps ∧ s'.keys = s.keys ∧ s'.log = s.log := by
    intro k s' heq
    have heq := Option.some.inj heq
    obtain ⟨hkept, hmem⟩ := kmpCreate_kept cfg type snonce h
    rw [heq] at hkept hmem
    have hframe : (s.kmpCreate cfg type snonce).2.keys = s.keys ∧
        (s.kmpCreate cfg type snonce).2.log = s.log := ⟨rfl, rfl⟩
    rw [heq] at hframe
    exact ⟨hkept, hmem, hframe⟩
  unfold incomingInd at hind
  split at hind
  · cases hind
  · split at hind
    · exact hnew hind
    · rename_i k₀ hget
      split at hind
      · cases hind
        exact ⟨h, typeGet_mem hget, rfl, rfl⟩
      · exact hnew hind

end Supp

namespace Supp

variable {cfg : SecCfg} {s : Supp}

/-- **Receiving**: what fits a key fits one of the PMK held now. -/
theorem msgIfReceive_kept {ongoing : Bool} {type : KmpType} {pdu : Option KeyFrame}
    {snonce : Nonce} (h : Kept s) (hmeant : Genuine cfg s (.receive ongoing type pdu snonce)) :
    Kept (s.msgIfReceive cfg ongoing type pdu snonce) := by
  unfold msgIfReceive
  split
  · exact h
  · rename_i k s' hind
    obtain ⟨⟨hsound, hraised⟩, hmem, hkeys, hlog⟩ := incomingInd_kept h hind
    have hmeant : ∀ f, pdu = some f → Meant s f k := by
      rintro f rfl
      exact hmeant k (by simp [hind])
    unfold Meant at hmeant
    split
    · exact ⟨hsound, hraised⟩
    · unfold kmpReceive
      have htidy := hsound.tidy k hmem
      unfold KmpTidy at htidy
      split
      · rename_i d hprot
        simp only [hprot] at hmeant htidy
        obtain ⟨recv, hrecv, hmove, htidy⟩ :=
          Fwh.receive_moves cfg s'.localEui64 s'.addrGet snonce pdu (s'.call k d) rfl htidy
        refine ⟨fwh_sound hsound hmem hprot hmove htidy ?_,
          ran_raised hraised (fun hd => by cases hd)⟩
        intro f kdes hfits
        obtain ⟨hpdu, hmsg⟩ := hrecv _ _ hfits.message
        refine ⟨hpdu, ?_⟩
        rw [hlog]
        exact hmeant f hpdu (hkeys ▸ hmsg) hfits.mic (Option.isSome_of_mem hfits.opened)
          hfits.state
      · rename_i hprot
        simp only [hprot] at hmeant htidy
        obtain ⟨recv, hrecv, hmove, htidy⟩ := Gkh.receive_moves pdu (s'.call k ()) rfl htidy
        refine gkh_sound hsound hraised hmem hprot hmove htidy ?_
        intro f kdes hfits
        obtain ⟨hpdu, hmsg⟩ := hrecv _ hfits.message
        refine ⟨hpdu, ?_⟩
        rw [hlog]
        exact hmeant f hpdu (hkeys ▸ hmsg) (hkeys ▸ hfits.mic)
          (hkeys ▸ Option.isSome_of_mem hfits.opened) hfits.state

/-- A call without a message takes none. -/
theorem kmpEvent_kept {k : Kmp} (h : Kept s) (hmem : k ∈ s.kmps) : Kept (s.kmpEvent cfg k) := by
  have htidy := h.1.tidy k hmem
  unfold kmpEvent
  unfold KmpTidy at htidy
  split
  · rename_i d hprot
    simp only [hprot] at htidy
    obtain ⟨hmove, htidy⟩ :=
      Fwh.machine_moves cfg s.localEui64 s.addrGet d.snonce none (s.call k d) rfl htidy
    exact ⟨fwh_sound h.1 hmem hprot hmove htidy (fun f kdes hfits => by cases hfits.message),
      ran_raised h.2 (fun hd => by cases hd)⟩
  · rename_i hprot
    simp only [hprot] at htidy
    obtain ⟨hmove, htidy⟩ := Gkh.machine_moves none (s.call k ()) rfl htidy
    exact gkh_sound h.1 h.2 hmem hprot hmove htidy fun f kdes hfits => by cases hfits.message

theorem kmpTimeout_kept {ticks : Nat} {k : Kmp} (h : Kept s) (hmem : k ∈ s.kmps) :
    Kept (s.kmpTimeout cfg ticks k) := by
  have htidy := h.1.tidy k hmem
  unfold kmpTimeout
  unfold KmpTidy at htidy
  split
  · rename_i d hprot
    simp only [hprot] at htidy
    obtain ⟨hmove, htidy⟩ := Fwh.timerTimeout_moves cfg ticks (s.call k d) rfl htidy
    exact ⟨fwh_sound h.1 hmem hprot hmove htidy (fun f kdes hfits => by cases hfits.message),
      ran_raised h.2 (fun hd => by cases hd)⟩
  · rename_i hprot
    simp only [hprot] at htidy
    obtain ⟨hmove, htidy⟩ := Gkh.timerTimeout_moves ticks (s.call k ()) rfl htidy
    exact gkh_sound h.1 h.2 hmem hprot hmove htidy fun f kdes hfits => by cases hfits.message

/-- An event taken from the queue changes nothing that matters here. -/
theorem handled_kept {id : Nat} (h : Kept s) :
    Kept { s with
      kmps := s.kmps.map fun k => if k.id = id then { k with eventPending := false } else k } := by
  have hback : ∀ k ∈ (s.kmps.map fun k =>
      if k.id = id then { k with eventPending := false } else k),
      ∃ k₀ ∈ s.kmps, k.id = k₀.id ∧ k.common = k₀.common ∧ k.prot = k₀.prot := by
    intro k hmem
    obtain ⟨k₀, hmem₀, rfl⟩ := List.mem_map.mp hmem
    refine ⟨k₀, hmem₀, ?_⟩
    split <;> exact ⟨rfl, rfl, rfl⟩
  obtain ⟨h, hraised⟩ := h
  refine ⟨⟨?_, h.known, ?_, ?_, h.ptk, h.stored, h.backed⟩, ?_⟩
  · intro k hmem
    obtain ⟨k₀, hmem₀, hid, -⟩ := hback k hmem
    rw [hid]
    exact h.below k₀ hmem₀
  · intro k hmem
    obtain ⟨k₀, hmem₀, -, hcommon, hprot⟩ := hback k hmem
    exact (h.tidy k₀ hmem₀).congr hcommon hprot
  · intro k hmem hk
    obtain ⟨k₀, hmem₀, hid, -, hprot⟩ := hback k hmem
    exact (h.candidate k₀ hmem₀ (hid ▸ hk)).congr hprot
  · intro k hmem hprot' hstate
    obtain ⟨k₀, hmem₀, hid, hcommon, hprot⟩ := hback k hmem
    rw [hid]
    exact hraised k₀ hmem₀ (hprot ▸ hprot') (hcommon ▸ hstate)

theorem event_kept {id : Nat} (h : Kept s) : Kept (s.event cfg id) := by
  unfold event
  split
  · exact h
  · rename_i k hfind
    refine kmpEvent_kept ?_ (List.mem_map_of_mem (List.mem_of_find?_eq_some hfind))
    exact handled_kept h

theorem timeout_kept {ticks id : Nat} (h : Kept s) : Kept (s.timeout cfg ticks id) := by
  unfold timeout
  split
  · exact h
  · rename_i k hfind
    exact kmpTimeout_kept h (List.mem_of_find?_eq_some hfind)

theorem fastTimer_kept {ticks : Nat} (h : Kept s) : Kept (s.fastTimer cfg ticks) := by
  unfold fastTimer
  generalize s.kmps.map Kmp.id = ids
  induction ids generalizing s with
  | nil => exact h
  | cons id ids ih => exact ih (timeout_kept h)

end Supp

namespace Supp

variable {cfg : SecCfg} {s : Supp}

/-- The file gets the keys as they are, so what is current in them is current in it. -/
theorem nvmUpdate_kept (h : Kept s) : Kept s.nvmUpdate := by
  unfold nvmUpdate
  split
  · obtain ⟨h, hraised⟩ := h
    refine ⟨⟨h.below, h.known, h.tidy, h.candidate, h.ptk, ?_, ⟨trivial, h.backed⟩⟩,
      hraised.congr rfl (List.subset_cons_self _ _)⟩
    intro hk
    obtain ⟨hset, pmk, hpmk, hder⟩ := h.ptk hk
    exact ⟨_, s.keys.pmkLifetime, pmk, s.keys.ptkLifetime, s.keys.ptk, rfl,
      by simp [keysTlvCreate, hpmk], by simp [keysTlvCreate, hset], hder⟩
  · exact h

/-- Once the PMK has changed, no PTK counts as derived from it. -/
theorem pmkChanged_kept (keys : SecKeys) (h : Kept s) :
    Kept ({ s with keys := keys }.note .pmkChanged) := by
  obtain ⟨h, hraised⟩ := h
  exact ⟨⟨h.below, (fun _ hk => by cases hk), h.tidy, (fun _ _ hk => by cases hk),
    (fun hk => by cases hk), h.stored, ⟨trivial, h.backed⟩⟩,
    hraised.congr rfl (List.subset_cons_self _ _)⟩

theorem Kept.congr {s' : Supp} (h : Kept s) (hkmps : s'.kmps = s.kmps)
    (hnext : s'.nextKmp = s.nextKmp) (hkeys : s'.keys = s.keys) (hnvm : s'.nvm = s.nvm)
    (hlog : s'.log = s.log) : Kept s' :=
  ⟨h.1.congr hkmps hnext (by rw [hkeys]; exact ⟨rfl, rfl, rfl⟩) hnvm hlog,
    h.2.congr hkmps (by rw [hlog]; exact List.Subset.refl _)⟩

theorem authenticate_kept {panId : Nat} {name : String} (h : Kept s) :
    Kept (s.authenticate panId name) := by
  have hcheck : Kept (s.nwKeysValidCheck panId name).2 := by
    unfold nwKeysValidCheck
    split
    · have hclear : Kept { s with gtks := { gtksInit with updated := true } } :=
        h.congr rfl rfl rfl rfl rfl
      exact (nvmUpdate_kept hclear).congr rfl rfl rfl rfl rfl
    · split <;> exact h.congr rfl rfl rfl rfl rfl
  unfold authenticate
  split
  · rename_i s' hvalid
    rw [hvalid] at hcheck
    exact hcheck
  · rename_i s' hvalid
    rw [hvalid] at hcheck
    have hcleared : Kept { s' with gtks := gtksInit } := hcheck.congr rfl rfl rfl rfl rfl
    dsimp only
    split
    · have hdeleted := pmkChanged_kept ((s'.keys.pmkDelete).ptkDelete).ptkEui64Delete hcleared
      exact hdeleted.congr rfl rfl rfl rfl rfl
    · exact hcleared.congr rfl rfl rfl rfl rfl

theorem nwInfoSet_kept {panId : Nat} {name : String} (h : Kept s) :
    Kept (s.nwInfoSet panId name) := by
  unfold nwInfoSet
  split
  · have hdeleted := pmkChanged_kept ((s.keys.pmkDelete).ptkDelete).ptkEui64Delete h
    have hmaybe : ∀ {b : Bool} {s : Supp}, Kept s → Kept (if b then s.nvmUpdate else s) := by
      intro b s h
      cases b
      · exact h
      · exact nvmUpdate_kept h
    exact hmaybe (hdeleted.congr rfl rfl rfl rfl rfl)
  · exact h

/-- The keys read back are current if the keys written were. -/
theorem restart_kept {gtks : Gtks} {name : String} {panId stale : Nat} (h : Kept s) :
    Kept (s.restart gtks name panId stale) := by
  obtain ⟨h, -⟩ := h
  refine ⟨⟨(fun _ hmem => by cases hmem), (fun _ hk => by cases hk),
    (fun _ hmem => by cases hmem), (fun _ hmem => by cases hmem), ?_, h.stored,
    ⟨trivial, h.backed⟩⟩, fun _ hmem => by cases hmem⟩
  intro hk
  obtain ⟨tlv, pmkLifetime, pmk, ptkLifetime, ptk, hnvm, hpmk, hptk, hder⟩ := h.stored hk
  have hread : keysTlvRead tlv stale = { keysTlvRead tlv stale with
      pmk := some pmk, ptk := ptk, ptkSet := true } := by
    cases heui : tlv.ptkEui64 <;>
      simp [keysTlvRead, keysTlvTail, heui, hpmk, hptk, SecKeys.ptkWrite, SecKeys.pmkWrite,
        SecKeys.pmkReplayCntSet, SecKeys.ptkEui64Write]
  have hkeys : (s.restart gtks name panId stale).keys = keysTlvRead tlv stale := by
    unfold restart
    rw [hnvm]
    rfl
  rw [hkeys, hread]
  exact ⟨rfl, pmk, rfl, hder⟩

/-- **One step.** -/
theorem step_kept {s' : Supp} {a : Act} (h : Kept s) (hmeant : Genuine cfg s a)
    (hstep : step cfg s a = some s') : Kept s' := by
  cases a with
  | receive ongoing type pdu snonce =>
      cases hstep
      exact msgIfReceive_kept h hmeant
  | event id =>
      cases hstep
      exact event_kept h
  | fastTimer ticks =>
      cases hstep
      exact fastTimer_kept h
  | authenticate panId name =>
      cases hstep
      exact authenticate_kept h
  | nwInfoSet panId name =>
      cases hstep
      exact nwInfoSet_kept h
  | nwKeyValid =>
      cases hstep
      exact nvmUpdate_kept (h.congr rfl rfl rfl rfl rfl)
  | tlsFinished pmk =>
      cases hstep
      exact pmkChanged_kept _ h
  | restart gtks name panId stale =>
      cases hstep
      exact restart_kept h
  | authenticateFailed =>
      cases hstep
      exact h.congr rfl rfl rfl rfl rfl
  | borderRouterAddrWrite eui64 =>
      cases hstep
      exact h.congr rfl rfl rfl rfl rfl
  | addressSet active =>
      cases hstep
      exact h.congr rfl rfl rfl rfl rfl
  | gtksSet gtks =>
      cases hstep
      exact h.congr rfl rfl rfl rfl rfl

/-! ## Runs -/

/-- **No group key without the pairwise key.**  In every run all of whose messages are genuine, a
GTK is stored, a PTK written, the counter raised and success reported only in answer to a
message under a PTK of the PMK held, and never under the zero key. -/
theorem run_backed (cfg : SecCfg) (localEui64 : Eui64) (as : List Act)
    (hmeant : Runs.Meets (step cfg) (Genuine cfg) (init localEui64) as) :
    ∀ s, Runs.run (step cfg) (init localEui64) as = some s → Backed s.log := by
  intro s hrun
  have hkept : Kept s := Runs.run_invariant Kept (fun s a s' h hmeant hstep =>
    step_kept h hmeant hstep) (init_kept localEui64) hmeant hrun
  exact hkept.1.backed

end Supp

namespace Supp

local instance joiningGtks : NeZero 4 := ⟨by decide⟩

/-- A node with address 2 joins the network of border router 1: EAP-TLS leaves PMK 7, the 4-way
handshake a PTK and a GTK, and the group key handshake another GTK. -/
def joining : List Act :=
  let ptk := ptkCalc 7 2 1 5 3
  let frame (counter : Nat) (data : KeyData) : KeyFrame :=
    { KeyFrame.init with keyAck := true, replayCounter := counter, keyData := some data }
  let secured (f : KeyFrame) : KeyFrame :=
    { f with keyMic := true, securedKeyFrame := true, encryptedKeyData := true, mic := some ptk }
  [.authenticate 1 "net", .borderRouterAddrWrite 1, .tlsFinished 7,
    .receive true .fwh (some { frame 0 (.plain { pmkid := some (.calc 7 1 2) }) with
      pairwiseKey := true, keyNonce := 3 }) 5,
    .event 0,
    .receive true .fwh (some { secured (frame 1 (.wrapped ptk { gtk := some (0, 9), gtkl := some 1 }))
      with pairwiseKey := true, install := true, keyNonce := 3 }) 6,
    .receive true .gkh
      (some (secured (frame 2 (.wrapped ptk { gtk := some (1, 8), gtkl := some 3 })))) 6,
    .event 1]

theorem joining_backed :
    (∃ s, Runs.run (step ⟨100, 1000, 1000⟩) (init 2) joining = some s ∧
      Event.authOk 0 ∈ s.log ∧ s.gtks.gtk 1 = some (8, 0)) ∧
    ∀ s, Runs.run (step ⟨100, 1000, 1000⟩) (init 2) joining = some s → Backed s.log :=
  ⟨by decide, run_backed ⟨100, 1000, 1000⟩ 2 joining (by decide)⟩

/-- A node that has just begun to join, without a single key, takes a group key message made
under the zero key for genuine. -/
theorem zeroKey_accepted :
    ∃ s, Runs.run (step ⟨100, 1000, 1000⟩) (init 2)
      [.authenticate 1 "net",
        .receive true .gkh (some { KeyFrame.init with
          keyAck := true, keyMic := true, securedKeyFrame := true, encryptedKeyData := true,
          mic := some .zero, keyData := some (.wrapped .zero { gtk := some (0, 13), gtkl := some 1 })
          }) 5] = some s ∧
      s.keys.pmk = none ∧ s.gtks.gtk 0 = some (13, 0) ∧ ¬Backed s.log := by
  decide

end Supp

end Pae
