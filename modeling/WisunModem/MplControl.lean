import WisunModem.MplColours
import WisunModem.MplRecord

/-!
# Control messages between two forwarders

What a forwarder `B` finds out from the control message of a forwarder `A`.  The
message is one record for each seed of `A`, and reading it has the effect of
`Domain.hear` for each of them: nothing of the encoding is left.  `Shown` says which
differences come out.  One kind does not: a message of `A` with the number which is
the `min_sequence` of `B`.
-/

namespace Mpl

/-- The window invariant of one domain. -/
structure Domain.Orderly (dom : Domain) : Prop where
  ids : (dom.seeds.map Seed.id).Nodup
  windowed : ∀ seed ∈ dom.seeds, seed.Windowed
  lengths : ∀ seed ∈ dom.seeds, seed.id.length ∈ idLengths

theorem State.Tidy.orderly {s : State} (ht : s.Tidy) {dom : Domain} (hdom : dom ∈ s.domains) :
    dom.Orderly :=
  ⟨ht.ids dom hdom, ht.windowed dom hdom, ht.lengths dom hdom⟩

/-! ## The records of a message -/

/-- From `p` on there is a record for each of the seeds, up to `fin`. -/
inductive Records (bits : Bits) (src : Option SeedId) (mem : Bytes) (fin : Nat) :
    Nat → List Seed → Prop
  | done : Records bits src mem fin fin []
  | seed {p : Nat} {a : Seed} {as : List Seed} : a.Written bits src mem p →
      Records bits src mem fin (p + a.infoSize src) as → Records bits src mem fin p (a :: as)

section Writing

variable {bits : Bits} {src : Option SeedId} {seed : Seed} {as : List Seed} {mem mem' : Bytes}
  {p q fin : Nat}

/-- A record is the bytes of its place. -/
theorem Seed.Written.congr (h : seed.Written bits src mem p)
    (heq : ∀ q, p ≤ q → q < p + seed.infoSize src → mem' q = mem q) :
    seed.Written bits src mem' p := by
  unfold Seed.infoSize at heq
  constructor
  · rw [heq p (by omega) (by omega)]
    exact h.minSequence
  · rw [heq (p + 1) (by omega) (by omega)]
    exact h.header
  · intro j hj
    rw [heq (p + 2 + j) (by omega) (by omega)]
    exact h.id j hj
  · intro i hi
    rw [← h.bitmap i hi, Bytes.bitTest, Bytes.bitTest, heq _ (by omega) (by omega)]

theorem writeSeeds_before (hlengths : ∀ a ∈ as, a.id.length ∈ idLengths)
    (hwindowed : ∀ a ∈ as, a.Windowed) (hq : q < p) :
    (writeSeeds bits src mem p as).1 q = mem q := by
  induction as generalizing mem p with
  | nil => rfl
  | cons a rest ih =>
      have hlength := hlengths a List.mem_cons_self
      have hend := writeSeedInfo_end bits src mem p hlength
      rw [writeSeeds, ih (fun a' ha' => hlengths a' (List.mem_cons_of_mem _ ha'))
        (fun a' ha' => hwindowed a' (List.mem_cons_of_mem _ ha')) (by omega)]
      exact writeSeedInfo_frame hlength (hwindowed a List.mem_cons_self) (Or.inl hq)

variable (bits src mem p) in
/-- **What `mpl_send_control` writes.** -/
theorem writeSeeds_records (hlengths : ∀ a ∈ as, a.id.length ∈ idLengths)
    (hwindowed : ∀ a ∈ as, a.Windowed) :
    Records bits src (writeSeeds bits src mem p as).1 (writeSeeds bits src mem p as).2 p as := by
  induction as generalizing mem p with
  | nil => exact .done
  | cons a rest ih =>
      have hlength := hlengths a List.mem_cons_self
      have hlengths' : ∀ a ∈ rest, a.id.length ∈ idLengths :=
        fun a' ha' => hlengths a' (List.mem_cons_of_mem _ ha')
      have hwindowed' : ∀ a ∈ rest, a.Windowed :=
        fun a' ha' => hwindowed a' (List.mem_cons_of_mem _ ha')
      have hend := writeSeedInfo_end bits src mem p hlength
      have hrest := ih (writeSeedInfo bits src mem p a).1 (writeSeedInfo bits src mem p a).2 hlengths'
        hwindowed'
      rw [writeSeeds]
      refine .seed ?_ (hend ▸ hrest)
      refine (writeSeedInfo_written hlength (hwindowed a List.mem_cons_self)).congr
        fun q _ hq => writeSeeds_before hlengths' hwindowed' ?_
      exact hend ▸ hq

theorem writeSeeds_end (hlengths : ∀ a ∈ as, a.id.length ∈ idLengths) :
    (writeSeeds bits src mem p as).2 = p + (as.map fun a => a.infoSize src).sum := by
  induction as generalizing mem p with
  | nil => rfl
  | cons a rest ih =>
      rw [writeSeeds, ih fun a' ha' => hlengths a' (List.mem_cons_of_mem _ ha'),
        List.map_cons, List.sum_cons]
      have hend := writeSeedInfo_end bits src mem p
        (hlengths a List.mem_cons_self)
      omega

/-- The sizes counted up while the source is still looked for are those of the
records written with it. -/
theorem controlSize_eq (assigned : SeedId → Bool) (src : Option SeedId) :
    controlSize assigned as src = (as.map fun a => a.infoSize (src <|>
      (as.find? fun seed => decide (seed.id.length = 16) && assigned seed.id).map
        Seed.id)).sum := by
  induction as generalizing src with
  | nil => rfl
  | cons a rest ih =>
      rw [controlSize, List.map_cons, List.sum_cons, ih]
      cases src with
      | some id => rfl
      | none =>
          by_cases hchosen : a.id.length = 16 ∧ assigned a.id
          · simp [hchosen]
          · have hskip : (decide (a.id.length = 16) && assigned a.id) = false := by
              simpa using hchosen
            rw [if_neg hchosen, List.find?_cons_of_neg (by simp [hskip])]
            refine congrArg (· + _) ?_
            -- an identifier chosen later is not the one which was not chosen here
            unfold Seed.infoSize
            congr 2
            unfold Seed.idLen
            refine if_congr (and_congr_right fun hlength => ?_) rfl rfl
            refine iff_of_false (by simp) fun hfound => ?_
            obtain ⟨b, hb, hid⟩ := Option.map_eq_some_iff.mp hfound
            have hpred := List.find?_some hb
            rw [hid, hskip] at hpred
            cases hpred

/-- **The packet has the size asked for.** -/
theorem writeSeeds_size {dom : Domain} (hlengths : ∀ a ∈ dom.seeds, a.id.length ∈ idLengths)
    (assigned : SeedId → Bool) :
    (writeSeeds bits (dom.controlSource assigned) mem p dom.seeds).2 =
      p + controlSize assigned dom.seeds none := by
  rw [writeSeeds_end hlengths, controlSize_eq]
  rfl

theorem writeSeeds_behind (hlengths : ∀ a ∈ as, a.id.length ∈ idLengths)
    (hwindowed : ∀ a ∈ as, a.Windowed) (hq : (writeSeeds bits src mem p as).2 ≤ q) :
    (writeSeeds bits src mem p as).1 q = mem q := by
  rw [writeSeeds_end hlengths] at hq
  induction as generalizing mem p with
  | nil => rfl
  | cons a rest ih =>
      have hlength := hlengths a List.mem_cons_self
      have hend := writeSeedInfo_end bits src mem p hlength
      rw [List.map_cons, List.sum_cons] at hq
      rw [writeSeeds, ih (fun a' ha' => hlengths a' (List.mem_cons_of_mem _ ha'))
        (fun a' ha' => hwindowed a' (List.mem_cons_of_mem _ ha')) (by omega)]
      exact writeSeedInfo_frame hlength (hwindowed a List.mem_cons_self) (.inr (by omega))

variable (bits) in
/-- **The buffer of a control message is filled and not overrun.**  In every state a run
reaches, `mpl_send_control` writes as many bytes as it has added up, and none elsewhere. -/
theorem control_fills (acts : List Act) (s : State) (dom : Domain)
    (hclear : Runs.Meets (step bits) Clear State.init acts)
    (hrun : Runs.run (step bits) State.init acts = some s) (hdom : dom ∈ s.domains)
    (assigned : SeedId → Bool) (mem : Bytes) (p : Nat) :
    let written := writeSeeds bits (dom.controlSource assigned) mem p dom.seeds
    written.2 = p + controlSize assigned dom.seeds none ∧
      ∀ q, q < p ∨ p + controlSize assigned dom.seeds none ≤ q → written.1 q = mem q := by
  have hdom := (State.Tidy.run hclear hrun).orderly hdom
  have hsize : (writeSeeds bits (dom.controlSource assigned) mem p dom.seeds).2 =
      p + controlSize assigned dom.seeds none := writeSeeds_size hdom.lengths assigned
  refine ⟨hsize, fun q hq => ?_⟩
  rcases hq with hbefore | hbehind
  · exact writeSeeds_before hdom.lengths hdom.windowed hbefore
  · exact writeSeeds_behind hdom.lengths hdom.windowed (hsize ▸ hbehind)

theorem control_fills_next :
    ∃ s dom, Runs.run (step Bits.plain) State.init (plainRun [0, 1]) = some s ∧
      s.domains = [dom] ∧
      (writeSeeds Bits.plain (dom.controlSource fun _ => false) (fun _ => 0) 9 dom.seeds).2 =
        9 + controlSize (fun _ => false) dom.seeds none := by
  refine ⟨_, _, rfl, rfl, ?_⟩
  exact (control_fills Bits.plain (plainRun [0, 1]) _ _ (by decide) rfl List.mem_cons_self
    (fun _ => false) (fun _ => 0) 9).1

theorem Records.le (h : Records bits src mem fin p as) : p + as.length ≤ fin := by
  induction h with
  | done => simp
  | seed _ _ ih =>
      unfold Seed.infoSize at ih
      rw [List.length_cons]
      omega

end Writing

/-! ## Reading a record -/

/-- The effect of one record on the forwarder which reads it. -/
def Domain.hear (dom : Domain) (they : Bool) (a : Seed) : Domain × Bool :=
  match dom.seedLookup a.id with
  | none => (dom, true)
  | some seed =>
      (dom.updateSeed a.id (Seed.mark dom.colour a.minSequence a.sequences),
        they || seed.lacks a.sequences)

section Reading

variable {bits : Bits} {src : Option SeedId} {a seed : Seed} {mem : Bytes} {p : Nat}

theorem idTypeOfCode_code (type : SeedIdType) : idTypeOfCode type.code.toNat = type := by
  cases type <;> rfl

theorem code_lt (type : SeedIdType) : type.code.toNat < 4 := by
  cases type <;> decide

/-- The identifier read is that of the seed. -/
theorem Seed.Written.id_read (h : a.Written bits src mem p) (hlength : a.id.length ∈ idLengths)
    {source : SeedId} (hsource : src = some a.id → source = a.id) {type : SeedIdType}
    (htype : type.len = a.idLen src) :
    (if type = .ipv6Src then source else mem.read (p + 2) type.len) = a.id := by
  unfold Seed.idLen at htype
  split at htype
  · rename_i hsrc
    have htype : type = .ipv6Src := by
      cases type <;> first | rfl | cases htype
    rw [if_pos htype]
    exact hsource hsrc.2
  · rename_i hsrc
    have hlen : a.idLen src = a.id.length := by rw [Seed.idLen, if_neg hsrc]
    have hne : type ≠ .ipv6Src := by
      rintro rfl
      rw [← htype] at hlength
      revert hlength
      decide
    rw [if_neg hne, htype]
    refine List.ext_getElem? fun j => ?_
    by_cases hj : j < a.id.length
    · rw [← h.id j (by omega)]
      simp [Bytes.read, hj]
    · rw [List.getElem?_eq_none (by simpa [Bytes.read] using hj),
        List.getElem?_eq_none (by omega)]

theorem Seed.add_offset (a : Seed) (m : Message) :
    a.minSequence + BitVec.ofNat 8 (a.offset m) = m.sequence := by
  rw [Seed.offset, BitVec.ofNat_toNat, BitVec.setWidth_eq]
  bv_omega

/-- The numbers named are those of the messages held. -/
theorem Seed.Written.named_iff (h : a.Written bits src mem p) (hw : a.Windowed) {q : Seq} :
    q ∈ named bits mem (p + 2 + a.idLen src) a.bmLen a.minSequence ↔ q ∈ a.sequences := by
  unfold named Seed.sequences
  simp only [List.mem_map, List.mem_filter, List.mem_range]
  constructor
  · rintro ⟨i, ⟨hi, htest⟩, rfl⟩
    rw [h.bitmap i (by omega), decide_eq_true_eq] at htest
    obtain ⟨m, hm, rfl⟩ := htest
    exact ⟨m, hm, (a.add_offset m).symm⟩
  · rintro ⟨m, hm, rfl⟩
    have hbit := hw.offset_bit hm
    refine ⟨a.offset m, ⟨by omega, ?_⟩, a.add_offset m⟩
    rw [h.bitmap _ hbit, decide_eq_true_eq]
    exact ⟨m, hm, rfl⟩

theorem Seed.mark_congr {colour : Bool} {minSeqno : Seq} {names names' : List Seq}
    (h : ∀ q, q ∈ names ↔ q ∈ names') :
    seed.mark colour minSeqno names = seed.mark colour minSeqno names' := by
  have hcontains : ∀ q, names.contains q = names'.contains q := fun q => by
    rw [Bool.eq_iff_iff, List.contains_iff_mem, List.contains_iff_mem]
    exact h q
  unfold Seed.mark
  simp only [hcontains]

theorem Seed.lacks_congr {names names' : List Seq} (h : ∀ q, q ∈ names ↔ q ∈ names') :
    seed.lacks names = seed.lacks names' := by
  unfold Seed.lacks
  rw [Bool.eq_iff_iff, List.any_eq_true, List.any_eq_true]
  simp only [h]

/-- **One record read.** -/
theorem scanControl_record {fin fuel : Nat} {source : SeedId} {dom : Domain} {they : Bool}
    (h : a.Written bits src mem p) (hw : a.Windowed) (hlength : a.id.length ∈ idLengths)
    (hsource : src = some a.id → source = a.id) (hfin : p + a.infoSize src ≤ fin) :
    scanControl bits mem fin source (fuel + 1) p dom they =
      scanControl bits mem fin source fuel (p + a.infoSize src) (dom.hear they a).1
        (dom.hear they a).2 := by
  obtain ⟨type, htype, hheader⟩ := h.header
  have hlt := code_lt type
  have hbm := hw.bmLen_le
  have hmin : BitVec.ofNat 8 (mem p).toNat = a.minSequence := by
    rw [h.minSequence]
    simp
  have hsize : a.infoSize src = 2 + a.idLen src + a.bmLen := rfl
  have hdiv : (mem (p + 1)).toNat / 4 = a.bmLen := by omega
  have hmod : (mem (p + 1)).toNat % 4 = type.code.toNat := by omega
  rw [scanControl, if_neg (by omega), if_neg (by omega)]
  dsimp only
  rw [hdiv, hmod, idTypeOfCode_code, if_neg (by omega), h.id_read hlength hsource htype, htype,
    hmin]
  have hnext : p + 2 + a.idLen src + a.bmLen = p + a.infoSize src := by omega
  unfold Domain.hear
  cases dom.seedLookup a.id with
  | none => rw [hnext]
  | some seed =>
      dsimp only
      rw [if_neg (by omega), hnext, Seed.lacks_congr fun q => h.named_iff hw]
      congr 2
      funext seed'
      exact Seed.mark_congr fun q => h.named_iff hw

/-- **All records read.** -/
theorem scanControl_records {fin fuel : Nat} (source : SeedId) {as : List Seed}
    (h : Records bits src mem fin p as) (hwindowed : ∀ a ∈ as, a.Windowed)
    (hlengths : ∀ a ∈ as, a.id.length ∈ idLengths)
    (hsource : ∀ id, src = some id → source = id) (hfuel : as.length ≤ fuel) (dom : Domain)
    (they : Bool) :
    scanControl bits mem fin source fuel p dom they =
      some (as.foldl (fun heard a => heard.1.hear heard.2 a) (dom, they)) := by
  induction h generalizing fuel dom they with
  | done =>
      cases fuel with
      | zero => rfl
      | succ fuel => simp [scanControl]
  | @seed p a rest hwritten hrest ih =>
      cases fuel with
      | zero => cases hfuel
      | succ fuel =>
          have hle := hrest.le
          rw [scanControl_record hwritten (hwindowed a List.mem_cons_self)
            (hlengths a List.mem_cons_self) (hsource a.id) (by omega)]
          exact ih (fun a' ha' => hwindowed a' (List.mem_cons_of_mem _ ha'))
            (fun a' ha' => hlengths a' (List.mem_cons_of_mem _ ha'))
            (Nat.le_of_succ_le_succ hfuel) _ _

end Reading

/-! ## All that is heard -/

/-- A seed of `B` once the records of the seeds `as` are read. -/
def Seed.heard (colour : Bool) (as : List Seed) (seed : Seed) : Seed :=
  match Keyed.lookup Seed.id seed.id as with
  | none => seed
  | some a => seed.mark colour a.minSequence a.sequences

/-- A record has news for the domain. -/
def Domain.news (dom : Domain) (a : Seed) : Bool :=
  match dom.seedLookup a.id with
  | none => true
  | some seed => seed.lacks a.sequences

theorem Seed.mark_id (colour : Bool) (q : Seq) (names : List Seq) (seed : Seed) :
    (seed.mark colour q names).id = seed.id := rfl

/-- Marking the messages of a seed does not change which it has. -/
theorem Domain.news_updateSeed {dom : Domain} {a : Seed} {id : SeedId} {colour : Bool} {q : Seq}
    {names : List Seq} (hne : a.id ≠ id) :
    (dom.updateSeed id (Seed.mark colour q names)).news a = dom.news a := by
  unfold Domain.news
  have hlookup : (dom.updateSeed id (Seed.mark colour q names)).seedLookup a.id =
      dom.seedLookup a.id := Keyed.lookup_update_ne (fun _ h => h) hne
  rw [hlookup]

theorem Domain.hear_eq {dom : Domain} {they : Bool} {a : Seed} :
    dom.hear they a =
      (dom.updateSeed a.id (Seed.mark dom.colour a.minSequence a.sequences),
        they || dom.news a) := by
  unfold Domain.hear Domain.news
  cases hlookup : dom.seedLookup a.id with
  | none =>
      have hsame : dom.updateSeed a.id (Seed.mark dom.colour a.minSequence a.sequences) = dom := by
        unfold Domain.updateSeed
        rw [Keyed.update_of_lookup_none hlookup]
      simp [hsame]
  | some seed => rfl

/-- **What reading all the records comes to.** -/
theorem foldl_hear {as : List Seed} (hnd : (as.map Seed.id).Nodup) (dom : Domain)
    (they : Bool) :
    as.foldl (fun heard a => heard.1.hear heard.2 a) (dom, they) =
      ({ dom with seeds := dom.seeds.map (Seed.heard dom.colour as) },
        they || as.any dom.news) := by
  induction as generalizing dom they with
  | nil =>
      have hsame : dom.seeds.map (Seed.heard dom.colour []) = dom.seeds := List.map_id dom.seeds
      simp [hsame]
  | cons a rest ih =>
      rw [List.map_cons, List.nodup_cons] at hnd
      have hfresh : ∀ a' ∈ rest, a'.id ≠ a.id := fun a' ha' heq =>
        hnd.1 (heq ▸ List.mem_map_of_mem ha')
      rw [List.foldl_cons, Domain.hear_eq, ih hnd.2]
      refine Prod.ext ?_ ?_
      · change Domain.mk .. = Domain.mk ..
        congr 1
        change ((Keyed.update Seed.id a.id _ dom.seeds).map _) = _
        rw [Keyed.update, List.map_map]
        apply List.map_congr_left
        intro seed _
        dsimp only [Function.comp]
        by_cases hid : seed.id = a.id
        · have hnone : Keyed.lookup Seed.id a.id rest = none := Keyed.lookup_eq_none.mpr hfresh
          have hsome : Keyed.lookup Seed.id a.id (a :: rest) = some a := by
            simp [Keyed.lookup]
          rw [if_pos hid]
          unfold Seed.heard
          rw [Seed.mark_id, hid, hnone, hsome]
        · have hskip : Keyed.lookup Seed.id seed.id (a :: rest) =
              Keyed.lookup Seed.id seed.id rest := by
            have hne : a.id ≠ seed.id := Ne.symm hid
            simp [Keyed.lookup, hne]
          rw [if_neg hid]
          unfold Seed.heard
          rw [hskip]
          rfl
      · change (they || dom.news a || _) = (they || (dom.news a || _))
        rw [Bool.or_assoc]
        congr 2
        rw [Bool.eq_iff_iff, List.any_eq_true, List.any_eq_true]
        refine exists_congr fun a' => and_congr_right fun ha' => ?_
        rw [Domain.news_updateSeed (hfresh a' ha')]

/-- The domain with the other colour, in which the records are read. -/
def Domain.flipped (dom : Domain) : Domain := { dom with colour := !dom.colour }

/-- The domain once the message of `A` is read. -/
def Domain.afterReading (A B : Domain) : Domain :=
  { B.flipped with seeds := B.seeds.map (Seed.heard (!B.colour) A.seeds) }

/-- **The handler, on the message of `A`.** -/
theorem controlHandler_eq {bits : Bits} {env : Env} {A B : Domain} (hA : A.Orderly)
    {src : Option SeedId} {source : SeedId} (hsource : ∀ id, src = some id → source = id)
    (mem : Bytes) (p : Nat) :
    controlHandler bits env (writeSeeds bits src mem p A.seeds).1 p
        (writeSeeds bits src mem p A.seeds).2 source B =
      some
        { they := A.seeds.any B.flipped.news
          we := (A.afterReading B).unmentioned
          domain := { (A.afterReading B).sweep env with
            trickle :=
              if A.seeds.any B.flipped.news || (A.afterReading B).unmentioned then
                B.trickle.inconsistentHeard B.controlTrickleParams env.controlTime
              else B.trickle.consistentHeard } } := by
  have hrecords := writeSeeds_records bits src mem p hA.lengths hA.windowed
  have hle := hrecords.le
  have hscan := scanControl_records source hrecords hA.windowed hA.lengths hsource
    (by omega : A.seeds.length ≤ (writeSeeds bits src mem p A.seeds).2 - p) B.flipped false
  rw [foldl_hear hA.ids, Bool.false_or] at hscan
  unfold controlHandler
  change Option.map _ (scanControl _ _ _ _ _ _ B.flipped false) = _
  rw [hscan]
  rfl

/-! ## Differences -/

/-- The two hold the same. -/
structure Domain.Same (A B : Domain) : Prop where
  seeds : ∀ id, (∃ a ∈ A.seeds, a.id = id) ↔ ∃ b ∈ B.seeds, b.id = id
  minSequence : ∀ a ∈ A.seeds, ∀ b ∈ B.seeds, a.id = b.id → a.minSequence = b.minSequence
  sequences : ∀ a ∈ A.seeds, ∀ b ∈ B.seeds, a.id = b.id →
    ∀ q, q ∈ a.sequences ↔ q ∈ b.sequences

/-- The domain neither holds this message of a seed nor has passed it. -/
def Domain.Misses (dom : Domain) (id : SeedId) (q : Seq) : Prop :=
  ∀ seed ∈ dom.seeds, seed.id = id →
    q ∉ seed.sequences ∧ (q = seed.minSequence ∨ serialGreater q seed.minSequence = true)

/-- `A` holds the message with which the window of `B` starts, and `B` does not. -/
def AtMin (A B : Domain) : Prop :=
  ∃ a ∈ A.seeds, ∃ b ∈ B.seeds, a.id = b.id ∧ b.minSequence ∈ a.sequences ∧
    b.minSequence ∉ b.sequences

/-- `A` has a seed which `B` does not know, or a message beyond the start of the
window of `B` which `B` does not hold. -/
def News (A B : Domain) : Prop :=
  ∃ a ∈ A.seeds, (∀ b ∈ B.seeds, b.id ≠ a.id) ∨
    ∃ b ∈ B.seeds, b.id = a.id ∧
      ∃ q ∈ a.sequences, q ∉ b.sequences ∧ serialGreater q b.minSequence = true

/-- `B` has a seed which `A` does not know, or a message which `A` has not passed
and does not hold. -/
def Unmentioned (A B : Domain) : Prop :=
  ∃ b ∈ B.seeds, (∀ a ∈ A.seeds, a.id ≠ b.id) ∨
    ∃ a ∈ A.seeds, a.id = b.id ∧
      ∃ m ∈ b.messages, m.sequence ∉ a.sequences ∧ serialGreater a.minSequence m.sequence = false

/-- A difference which comes out. -/
def Shown (A B : Domain) : Prop := News A B ∨ Unmentioned A B

/-- A lookup finds the seed with the identifier, if there is one. -/
theorem Domain.Orderly.lookup_cases {dom : Domain} (h : dom.Orderly) (id : SeedId) :
    (dom.seedLookup id = none ∧ ∀ seed ∈ dom.seeds, seed.id ≠ id) ∨
      ∃ seed ∈ dom.seeds, seed.id = id ∧ dom.seedLookup id = some seed ∧
        ∀ seed' ∈ dom.seeds, seed'.id = id → seed' = seed := by
  cases hlookup : dom.seedLookup id with
  | none => exact Or.inl ⟨rfl, Keyed.lookup_eq_none.mp hlookup⟩
  | some seed =>
      exact Or.inr ⟨seed, Keyed.mem_of_lookup hlookup, Keyed.key_of_lookup hlookup, rfl,
        fun seed' hseed' hid => Keyed.eq_of_lookup h.ids hlookup hseed' hid⟩

theorem Seed.lacks_iff {seed : Seed} {names : List Seq} :
    seed.lacks names = true ↔
      ∃ q ∈ names, q ∉ seed.sequences ∧ serialGreater q seed.minSequence = true := by
  simp only [Seed.lacks, List.any_eq_true, Bool.and_eq_true, Seed.bufferLookup_isNone]

theorem news_iff {A B : Domain} (hB : B.Orderly) :
    A.seeds.any B.flipped.news = true ↔ News A B := by
  rw [List.any_eq_true]
  refine exists_congr fun a => and_congr_right fun _ => ?_
  change B.news a = true ↔ _
  unfold Domain.news
  rcases hB.lookup_cases a.id with ⟨hnone, hne⟩ | ⟨b, hb, hid, hsome, huniq⟩
  · rw [hnone]
    exact iff_of_true rfl (Or.inl hne)
  · rw [hsome]
    dsimp only
    rw [Seed.lacks_iff]
    constructor
    · exact fun h => Or.inr ⟨b, hb, hid, h⟩
    · rintro (hne | ⟨b', hb', hid', h⟩)
      · exact absurd hid (hne b hb)
      · exact huniq b' hb' hid' ▸ h

/-- The message of a seed which the records do not mention. -/
theorem Seed.heard_unmentioned {c : Bool} {as : List Seed} {b : Seed} (hb : b.Uniform (!c)) :
    ((b.heard c as).colour != c || (b.heard c as).messages.any fun m => m.colour != c) = true ↔
      Keyed.lookup Seed.id b.id as = none ∨
        ∃ a, Keyed.lookup Seed.id b.id as = some a ∧ ∃ m ∈ b.messages,
          m.sequence ∉ a.sequences ∧ serialGreater a.minSequence m.sequence = false := by
  unfold Seed.heard
  cases Keyed.lookup Seed.id b.id as with
  | none => simp [hb.1]
  | some a =>
      simp only [Seed.mark, bne_self_eq_false, Bool.false_or, List.any_map, List.any_eq_true,
        reduceCtorEq, Option.some.injEq, exists_eq_left', false_or]
      refine exists_congr fun m => and_congr_right fun hm => ?_
      have hcolour := hb.2 m hm
      cases hpassed : serialGreater a.minSequence m.sequence with
      | true => simp [hpassed]
      | false =>
          by_cases hheld : m.sequence ∈ a.sequences
          · simp [hheld]
          · simp [hpassed, hheld, hcolour]

theorem unmentioned_iff {A B : Domain} (hA : A.Orderly) (hB : B.Uniform) :
    (A.afterReading B).unmentioned = true ↔ Unmentioned A B := by
  unfold Domain.unmentioned
  change ((B.seeds.map (Seed.heard (!B.colour) A.seeds)).any _) = true ↔ _
  rw [List.any_map, List.any_eq_true]
  refine exists_congr fun b => and_congr_right fun hb => ?_
  have huniform : b.Uniform (!!B.colour) := by
    rw [Bool.not_not]
    exact hB b hb
  refine (Seed.heard_unmentioned huniform).trans ?_
  rcases hA.lookup_cases b.id with ⟨hnone, hne⟩ | ⟨a, ha, hid, hsome, huniq⟩
  · exact iff_of_true (Or.inl hnone) (Or.inl hne)
  · have hsome : Keyed.lookup Seed.id b.id A.seeds = some a := hsome
    rw [hsome]
    constructor
    · rintro (h | ⟨a', ha', h⟩)
      · cases h
      · cases ha'
        exact Or.inr ⟨a, ha, hid, h⟩
    · rintro (hne | ⟨a', ha', hid', h⟩)
      · exact absurd hid (hne a ha)
      · exact Or.inr ⟨a, rfl, huniq a' ha' hid' ▸ h⟩

/-! ## What comes out -/

/-- The message counted as inconsistent. -/
def Heard.Registered (heard : Heard) (env : Env) (B : Domain) : Prop :=
  (heard.they || heard.we) = true ∧
    heard.domain.trickle = B.trickle.inconsistentHeard B.controlTrickleParams env.controlTime

/-- The timer of the message is started again: it runs, unless it never does, in an
interval of the shortest length. -/
def Heard.Restarted (heard : Heard) (B : Domain) (b : Seed) (m : Message) : Prop :=
  ∃ b' ∈ heard.domain.seeds, b'.id = b.id ∧ ∃ m' ∈ b'.messages, m'.number = m.number ∧
    m'.trickle.interval = B.dataTrickleParams.imin ∧
      (0 < B.dataTrickleParams.timerExpirations →
        m'.trickle.running B.dataTrickleParams = true)

/-- **Exactly the differences**: the same is consistent, what either has and the
other misses is an inconsistency, and everything has the colour of the domain. -/
structure Detects (env : Env) (A B : Domain) (heard : Heard) : Prop where
  consistent : A.Same B → heard.they = false ∧ heard.we = false ∧
    heard.domain.trickle = B.trickle.consistentHeard
  theirs : ∀ a ∈ A.seeds, ∀ q ∈ a.sequences, B.Misses a.id q → heard.Registered env B
  ours : ∀ b ∈ B.seeds, ∀ m ∈ b.messages, A.Misses b.id m.sequence →
    heard.Registered env B ∧ heard.Restarted B b m
  colours : heard.domain.Uniform

theorem serialGreater_asymm {a b : Seq} (h : serialGreater a b = true) :
    serialGreater b a = false := by
  have hnot : ¬serialGreater b a = true := by
    rw [serialGreater_iff] at h ⊢
    bv_omega
  simpa using hnot

/-- Nothing comes out between two which hold the same. -/
theorem Domain.Same.not_shown {A B : Domain} (h : A.Same B) : ¬Shown A B := by
  rintro (⟨a, ha, hne | ⟨b, hb, hid, q, hq, hnot, _⟩⟩ | ⟨b, hb, hne | ⟨a, ha, hid, m, hm, hnot, _⟩⟩)
  · obtain ⟨b, hb, hid⟩ := (h.seeds a.id).mp ⟨a, ha, rfl⟩
    exact hne b hb hid
  · exact hnot ((h.sequences a ha b hb hid.symm q).mp hq)
  · obtain ⟨a, ha, hid⟩ := (h.seeds b.id).mpr ⟨b, hb, rfl⟩
    exact hne a ha hid
  · exact hnot ((h.sequences a ha b hb hid m.sequence).mpr (List.mem_map_of_mem hm))

/-- What `B` misses comes out, but for a message at the start of its window. -/
theorem misses_shown {A B : Domain} (hB : B.Orderly) {a : Seed} (ha : a ∈ A.seeds) {q : Seq}
    (hq : q ∈ a.sequences) (hmiss : B.Misses a.id q) : AtMin A B ∨ Shown A B := by
  rcases hB.lookup_cases a.id with ⟨_, hne⟩ | ⟨b, hb, hid, _, _⟩
  · exact Or.inr (Or.inl ⟨a, ha, Or.inl hne⟩)
  · obtain ⟨hnot, rfl | hgreater⟩ := hmiss b hb hid
    · exact Or.inl ⟨a, ha, b, hb, hid.symm, hq, hnot⟩
    · exact Or.inr (Or.inl ⟨a, ha, Or.inr ⟨b, hb, hid, q, hq, hnot, hgreater⟩⟩)

/-- What `A` misses is not mentioned. -/
theorem misses_unmentioned {A : Domain} {b : Seed} {m : Message}
    (hmiss : A.Misses b.id m.sequence) {a : Seed} (ha : a ∈ A.seeds) (hid : a.id = b.id) :
    m.sequence ∉ a.sequences ∧ serialGreater a.minSequence m.sequence = false := by
  obtain ⟨hnot, heq | hgreater⟩ := hmiss a ha hid
  · exact ⟨hnot, heq ▸ serialGreater_irrefl _⟩
  · exact ⟨hnot, serialGreater_asymm hgreater⟩

/-- A message which is not mentioned is started again. -/
theorem sweep_restarts {env : Env} {A B : Domain} (hA : A.Orderly) (hB : B.Uniform) {b : Seed}
    {m : Message} (hb : b ∈ B.seeds) (hm : m ∈ b.messages)
    (hmiss : A.Misses b.id m.sequence) {heard : Heard}
    (hseeds : heard.domain.seeds = ((A.afterReading B).sweep env).seeds) :
    heard.Restarted B b m := by
  have hcolour : m.colour = B.colour := (hB b hb).2 m hm
  have hkept : m ∈ (b.heard (!B.colour) A.seeds).messages := by
    unfold Seed.heard
    rcases hA.lookup_cases b.id with ⟨hnone, _⟩ | ⟨a, ha, hid, hsome, _⟩
    · have hnone : Keyed.lookup Seed.id b.id A.seeds = none := hnone
      rw [hnone]
      exact hm
    · have hsome : Keyed.lookup Seed.id b.id A.seeds = some a := hsome
      obtain ⟨hnot, hpassed⟩ := misses_unmentioned hmiss ha hid
      rw [hsome]
      refine List.mem_map.mpr ⟨m, hm, ?_⟩
      simp [hpassed, hnot]
  have hid : (b.heard (!B.colour) A.seeds).id = b.id := by
    unfold Seed.heard
    split <;> rfl
  have hrestart := Trickle.inconsistentHeard_restarts B.dataTrickleParams
    (env.time b.id m.sequence) m.trickle
  unfold Heard.Restarted
  rw [hseeds]
  refine ⟨_, List.mem_map_of_mem (List.mem_map_of_mem hb), hid, _,
    List.mem_map_of_mem hkept, ?_⟩
  have hne : (m.colour != (A.afterReading B).colour) = true := by
    rw [hcolour]
    change (B.colour != !B.colour) = true
    simp
  rw [if_pos hne, hid]
  exact ⟨rfl, hrestart⟩

/-- **Control messages detect the differences exactly when none is hidden.**  The
handler answers, and what it finds is right if and only if a message at the start
of a window of `B`, held by `A` alone, comes with another difference. -/
theorem control_detects_iff (bits : Bits) (env : Env) (A B : Domain) (acts : List Act) (t : State)
    (assigned : SeedId → Bool) (mem : Bytes) (p : Nat) (source : SeedId)
    (hA : A.Orderly) (hrun : Runs.run (step bits) State.init acts = some t) (ht : B ∈ t.domains)
    (hB : B.Orderly) (hsource : ∀ id, A.controlSource assigned = some id → source = id) :
    ∃ heard,
      controlHandler bits env (writeSeeds bits (A.controlSource assigned) mem p A.seeds).1 p
        (writeSeeds bits (A.controlSource assigned) mem p A.seeds).2 source B = some heard ∧
      (Detects env A B heard ↔ (AtMin A B → Shown A B)) := by
  have huniform : B.Uniform := (State.Coloured.run hrun).uniform B ht
  refine ⟨_, controlHandler_eq hA hsource mem p, ?_⟩
  generalize hthey : A.seeds.any B.flipped.news = they
  generalize hwe : (A.afterReading B).unmentioned = we
  have hshown : (they || we) = true ↔ Shown A B := by
    rw [Bool.or_eq_true, ← hthey, ← hwe, news_iff hB, unmentioned_iff hA huniform]
    rfl
  constructor
  · rintro hdetects ⟨a, ha, b, hb, hid, hheld, hnot⟩
    have hmiss : B.Misses a.id b.minSequence := by
      intro b' hb' hid'
      have heq : b' = b := by
        rcases hB.lookup_cases a.id with ⟨_, hne⟩ | ⟨_, _, _, _, huniq⟩
        · exact absurd hid.symm (hne b hb)
        · rw [huniq b' hb' hid', huniq b hb hid.symm]
      subst heq
      exact ⟨hnot, Or.inl rfl⟩
    exact hshown.mp (hdetects.theirs a ha _ hheld hmiss).1
  · intro hcondition
    have hregistered : Shown A B → Heard.Registered
        { they, we, domain := { (A.afterReading B).sweep env with
            trickle := if they || we then
              B.trickle.inconsistentHeard B.controlTrickleParams env.controlTime
            else B.trickle.consistentHeard } } env B := by
      intro h
      have h := hshown.mpr h
      exact ⟨h, by rw [if_pos h]⟩
    constructor
    · intro hsame
      have hnot : ¬(they || we) = true := fun h => hsame.not_shown (hshown.mp h)
      have hfalse : they = false ∧ we = false := by simpa using hnot
      refine ⟨hfalse.1, hfalse.2, ?_⟩
      dsimp only
      rw [if_neg hnot]
    · intro a ha q hq hmiss
      exact hregistered ((misses_shown hB ha hq hmiss).elim hcondition id)
    · intro b hb m hm hmiss
      refine ⟨hregistered (Or.inr ⟨b, hb, ?_⟩), sweep_restarts hA huniform hb hm hmiss rfl⟩
      rcases hA.lookup_cases b.id with ⟨_, hne⟩ | ⟨a, ha, hid, _, _⟩
      · exact Or.inl hne
      · exact Or.inr ⟨a, ha, hid, m, hm, misses_unmentioned hmiss ha hid⟩
    · exact sweep_uniform env (A.afterReading B)

/-- A neighbour which could not hold message 0, and hears that there is one. -/
theorem start_not_detected :
    ∃ s t A B, Runs.run (step Bits.plain) State.init (plainRun [0]) = some s ∧
      Runs.run (step Bits.plain) State.init
        [.domainCreate plainEnv plainConfig, .data poorEnv 0 (plainData 0)] = some t ∧
      s.domains = [A] ∧ t.domains = [B] ∧
      ∃ heard,
        controlHandler Bits.plain plainEnv (writeSeeds Bits.plain none (fun _ => 0) 0 A.seeds).1 0
          (writeSeeds Bits.plain none (fun _ => 0) 0 A.seeds).2 (List.replicate 16 0) B =
            some heard ∧ ¬Detects plainEnv A B heard := by
  refine ⟨_, _, _, _, rfl, rfl, rfl, rfl, _, rfl, fun h => ?_⟩
  have htheirs := h.theirs _ List.mem_cons_self _ List.mem_cons_self
  have hregistered := (htheirs fun seed hseed _ => ?_).1
  · revert hregistered
    decide
  · rw [List.mem_singleton.mp hseed]
    decide

/-- A neighbour which holds message 0 and not message 1. -/
theorem control_detects_next :
    ∃ s t A B, Runs.run (step Bits.plain) State.init (plainRun [0, 1]) = some s ∧
      Runs.run (step Bits.plain) State.init (plainRun [0]) = some t ∧
      s.domains = [A] ∧ t.domains = [B] ∧
      ∃ heard,
        controlHandler Bits.plain plainEnv
          (writeSeeds Bits.plain (A.controlSource fun _ => false) (fun _ => 0) 0 A.seeds).1 0
          (writeSeeds Bits.plain (A.controlSource fun _ => false) (fun _ => 0) 0 A.seeds).2
          (List.replicate 16 0) B = some heard ∧
        (Detects plainEnv A B heard ↔ (AtMin A B → Shown A B)) := by
  have hA : ∀ s, Runs.run (step Bits.plain) State.init (plainRun [0, 1]) = some s → s.Tidy :=
    fun s hs => State.Tidy.run (by decide) hs
  have hB : ∀ s, Runs.run (step Bits.plain) State.init (plainRun [0]) = some s → s.Tidy :=
    fun s hs => State.Tidy.run (by decide) hs
  refine ⟨_, _, _, _, rfl, rfl, rfl, rfl, ?_⟩
  exact control_detects_iff Bits.plain plainEnv _ _ (plainRun [0]) _ (fun _ => false) (fun _ => 0)
    0 (List.replicate 16 0) ((hA _ rfl).orderly List.mem_cons_self) rfl List.mem_cons_self
    ((hB _ rfl).orderly List.mem_cons_self) (fun _ h => by cases h)

end Mpl
