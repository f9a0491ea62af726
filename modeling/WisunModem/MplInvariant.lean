import WisunModem.MplWindow
import WisunModem.Runs

/-!
# Every run keeps the window

One step of the forwarder after another: data messages, control messages, the two
timers, and domains that come and go.  `Clear` is the side condition of a run;
under it a bitmap written is inside the place reserved for it.
-/

namespace Mpl

/-! ## Data messages -/

theorem storedBytes_perm {l l' : List Message} (h : l.Perm l') : storedBytes l = storedBytes l' :=
  (h.map Message.size).sum_eq

theorem storedBytes_filter (p : Message → Bool) (l : List Message) :
    storedBytes (l.filter p) + storedBytes (l.filter fun m => !p m) = storedBytes l := by
  induction l with
  | nil => rfl
  | cons m l ih =>
      simp only [storedBytes] at ih ⊢
      cases hp : p m <;> simp [hp] <;> omega

theorem Seed.kept_hearNewest (env : Env) (params : TrickleParams) (q : Seq) (seed : Seed) :
    (seed.hearNewest env params q).kept = seed.kept := by
  unfold Seed.kept Seed.hearNewest
  rw [List.map_map]
  congr 2
  apply List.map_congr_left
  intro m _
  dsimp only [Function.comp]
  split <;> rfl

theorem Seed.kept_hearAgain (q : Seq) (seed : Seed) : (seed.hearAgain q).kept = seed.kept := by
  unfold Seed.kept Seed.hearAgain
  rw [List.map_map]
  congr 2
  apply List.map_congr_left
  intro m _
  dsimp only [Function.comp]
  split <;> rfl

theorem State.kept_hearFlag (env : Env) (s : State) (dom : Domain) (buf : Data) :
    (s.hearFlag env dom buf).kept = s.kept := by
  unfold State.hearFlag
  split
  · exact State.kept_updateSeed fun _ => Seed.kept_hearNewest _ _ _ _
  · rfl

theorem State.kept_refresh (s : State) (dom : Domain) (buf : Data) :
    (s.refresh dom buf).kept = s.kept :=
  State.kept_updateSeed fun _ => rfl

theorem State.kept_refresh_hearFlag (env : Env) (s : State) (dom : Domain) (buf : Data) :
    ((s.hearFlag env dom buf).refresh dom buf).kept = s.kept :=
  (State.kept_refresh _ _ _).trans (State.kept_hearFlag _ _ _ _)

/-- Seeds looked up in states which hold the same are alike. -/
theorem State.kept_seed {s s' : State} (h : s'.kept = s.kept) (key : Nat) (id : SeedId) :
    (s'.seed key id).map Seed.kept = (s.seed key id).map Seed.kept := by
  have hkept : ∀ s : State, (s.seed key id).map Seed.kept =
      (Keyed.lookup Prod.fst key (s.domains.map Domain.kept)).bind fun k =>
        Keyed.lookup Prod.fst id k.2 := by
    intro s
    have hdomains : Keyed.lookup Prod.fst key (s.domains.map Domain.kept) =
        (s.lookup key).map Domain.kept := Keyed.lookup_map fun _ => rfl
    rw [hdomains, State.seed]
    cases s.lookup key with
    | none => rfl
    | some dom =>
        have hseeds : Keyed.lookup Prod.fst id (dom.seeds.map Seed.kept) =
            (dom.seedLookup id).map Seed.kept := Keyed.lookup_map fun _ => rfl
        exact hseeds.symm
  rw [hkept, hkept, State.domains_of_kept h]

theorem State.seed_of_kept {s s' : State} (h : s'.kept = s.kept) {key : Nat} {id : SeedId}
    {seed' : Seed} (hseed : s'.seed key id = some seed') :
    ∃ seed, s.seed key id = some seed ∧ seed'.kept = seed.kept := by
  have hkept := State.kept_seed h key id
  rw [hseed, Option.map_some, eq_comm, Option.map_eq_some_iff] at hkept
  obtain ⟨seed, hseed, heq⟩ := hkept
  exact ⟨seed, hseed, heq.symm⟩

theorem Seed.bufferLookup_isNone {seed : Seed} {q : Seq} :
    (seed.bufferLookup q).isNone = true ↔ q ∉ seed.sequences := by
  rw [Seed.bufferLookup, Option.isNone_iff_eq_none, List.find?_eq_none, Seed.sequences]
  simp only [decide_eq_true_eq, List.mem_map, not_exists, not_and]

theorem Seed.isOpen_iff {seed : Seed} {q : Seq} :
    seed.isOpen q = true ↔ serialGreater seed.minSequence q = false ∧ q ∉ seed.sequences := by
  rw [Seed.isOpen, Bool.and_eq_true, Seed.bufferLookup_isNone, Bool.not_eq_true']

/-- No comparison of opposite numbers decides what becomes of the message: the one
with `min_sequence`, once there is room, if the message is to be held, and those
with the messages passed if it is not. -/
def Clear (s : State) : Act → Prop
  | .data env key buf =>
      ∀ dom, s.lookup key = some dom → ∀ seed, dom.seedLookup buf.id = some seed →
        seed.isOpen buf.sequence → (buf.seeding ∨ ¬buf.multicastLoop) →
        if dom.forwards buf then
          env.messageMemory → ∀ t, s.roomFor env dom buf = some t →
            ∀ seed', t.seed key buf.id = some seed' →
              (buf.sequence - seed'.minSequence).toNat ≠ 128
        else ∀ m ∈ seed.messages, (buf.sequence + 1 - m.sequence).toNat ≠ 128
  | _ => True

instance Clear.decidable : ∀ (s : State) (a : Act), Decidable (Clear s a)
  | s, .data env key buf => inferInstanceAs (Decidable
      (∀ dom, s.lookup key = some dom → ∀ seed, dom.seedLookup buf.id = some seed →
        seed.isOpen buf.sequence → (buf.seeding ∨ ¬buf.multicastLoop) →
        if dom.forwards buf then
          env.messageMemory → ∀ t, s.roomFor env dom buf = some t →
            ∀ seed', t.seed key buf.id = some seed' →
              (buf.sequence - seed'.minSequence).toNat ≠ 128
        else ∀ m ∈ seed.messages, (buf.sequence + 1 - m.sequence).toNat ≠ 128))
  | _, .domainCreate .. | _, .domainDelete .. | _, .changeTiming .. | _, .clearRealmScope
  | _, .control .. | _, .slowTimer .. | _, .fastTimer .. | _, .tick => isTrue trivial

/-- A message enters a state in which there is room. -/
theorem State.Tidy.bufferCreate {env : Env} {s : State} (ht : s.Tidy) {key : Nat} {buf : Data}
    (hfresh : ∀ seed, s.seed key buf.id = some seed → buf.sequence ∉ seed.sequences)
    (hclear : env.messageMemory → ∀ seed, s.seed key buf.id = some seed →
      (buf.sequence - seed.minSequence).toNat ≠ 128) :
    (s.bufferCreate env key buf).Tidy := by
  unfold State.bufferCreate
  split
  · rename_i dom seed hdom hseed
    split
    · exact ht
    · split
      · exact ht
      · rename_i hpassed hmem
        simp only [Bool.not_eq_true] at hpassed
        simp only [Bool.not_eq_true', Bool.not_eq_false] at hmem
        have hupdated := ht.updateSeed (f := fun seed' => { seed' with
            messages := insertMessage (dom.newMessage env seed s.ticks buf) seed'.messages })
          hseed (fun _ => rfl)
          ((ht.windowed_of_seed hseed).insert hpassed (hclear hmem seed hseed)
            (hfresh seed hseed))
          (s.totalBuffered + buf.length)
          (by
            rw [storedBytes_perm (insertMessage_perm _ _)]
            simp only [storedBytes, List.map_cons, List.sum_cons]
            have : (dom.newMessage env seed s.ticks buf).size = buf.length := rfl
            omega)
        refine hupdated.of_kept ?_
        exact congrArg (fun k => (Prod.fst k, s.totalBuffered + buf.length))
          (State.kept_update (f := Domain.controlResetOrStart env) fun _ => rfl)
  · exact ht

theorem storedBytes_passed {seed seed' : Seed} (h : seed'.kept = seed.kept) (q : Seq) :
    storedBytes (seed'.passed q) = storedBytes (seed.passed q) := by
  have hsize : ∀ l : List Message,
      storedBytes (l.filter fun m => serialGreater q m.sequence) =
        (((l.map Message.kept).filter fun k => serialGreater q (BitVec.ofNat 8 k.1)).map
          Prod.snd).sum := by
    intro l
    rw [List.filter_map, List.map_map]
    rfl
  rw [Seed.passed, Seed.passed, hsize, hsize, Seed.messages_of_kept h]

/-- A message whose seed is known, in a state where it is clear. -/
theorem State.Tidy.processKnown {env : Env} {s t : State} (ht : s.Tidy) (dom : Domain)
    {seed : Seed} {buf : Data} {r : Bool} (hdom : s.lookup dom.key = some dom)
    (hseed : dom.seedLookup buf.id = some seed)
    (hclear : seed.isOpen buf.sequence → if dom.forwards buf then
        env.messageMemory → ∀ t, s.roomFor env dom buf = some t →
          ∀ seed', t.seed dom.key buf.id = some seed' →
            (buf.sequence - seed'.minSequence).toNat ≠ 128
      else ∀ m ∈ seed.messages, (buf.sequence + 1 - m.sequence).toNat ≠ 128)
    (h : s.processKnown env dom seed buf = some (r, t)) : t.Tidy := by
  have hhear := State.kept_hearFlag env s dom buf
  have hkept := State.kept_refresh_hearFlag env s dom buf
  have hfound : s.seed dom.key buf.id = some seed := by
    rw [State.seed, hdom, Option.bind_some, hseed]
  unfold State.processKnown at h
  split at h
  · cases h
    exact ht.of_kept hhear
  · split at h
    · cases h
      refine ht.of_kept ((State.kept_updateSeed fun _ => Seed.kept_hearAgain _ _).trans hhear)
    · rename_i hpassed hheld
      have hopen : seed.isOpen buf.sequence = true := by
        simp only [Bool.not_eq_true, Option.isSome_eq_false_iff] at hpassed hheld
        simp [Seed.isOpen, hpassed, hheld]
      have hclear := hclear hopen
      split at h
      · rename_i hforward
        rw [if_neg (by simpa using hforward)] at hclear
        cases h
        -- the window moves behind the message, which is not held
        have ht' := ht.of_kept hkept
        obtain ⟨seed', hseed', hsame⟩ := State.seed_of_kept hkept.symm hfound
        refine ht'.updateSeed (f := fun seed => seed.advance (buf.sequence + 1)) hseed'
          (fun _ => rfl) ((ht'.windowed_of_seed hseed').advance ?_) _ ?_
        · intro m hm
          have hmem : m.sequence ∈ seed.sequences := by
            rw [Seed.sequences_of_kept hsame]
            exact List.mem_map_of_mem hm
          obtain ⟨m', hm', heq⟩ := List.mem_map.mp hmem
          rw [← heq]
          exact hclear m' hm'
        · have hle := ht'.stored_le hseed'
          have hsplit := storedBytes_filter
            (fun m => serialGreater (buf.sequence + 1) m.sequence) seed'.messages
          have hpassed := storedBytes_passed hsame (buf.sequence + 1)
          change _ = storedBytes (seed'.messages.filter _) at hpassed
          change ((s.hearFlag env dom buf).refresh dom buf).totalBuffered -
            storedBytes (seed.passed (buf.sequence + 1)) + storedBytes seed'.messages =
              _ + storedBytes (seed'.messages.filter _)
          omega
      · rename_i hforward
        rw [if_pos (by simpa using hforward)] at hclear
        obtain ⟨room, hroom, heq⟩ := Option.map_eq_some_iff.mp h
        cases heq
        have hfresh : ∀ seed', ((s.hearFlag env dom buf).refresh dom buf).seed dom.key buf.id =
            some seed' → buf.sequence ∉ seed'.sequences := by
          intro seed' hseed'
          obtain ⟨old, hold, heq⟩ := State.seed_of_kept hkept hseed'
          rw [hfound] at hold
          cases hold
          rw [Seed.sequences_of_kept heq]
          exact (Seed.isOpen_iff.mp hopen).2
        refine ((ht.of_kept hkept).makeRoom hroom).bufferCreate
          ((ht.of_kept hkept).makeRoom_fresh hroom hfresh) fun hmem => hclear hmem room hroom

/-- A new seed has no messages, and its window starts at the message. -/
theorem State.Tidy.seedCreate {s : State} (ht : s.Tidy) {dom : Domain} {id : SeedId} {q : Seq}
    (hdom : s.lookup dom.key = some dom) (hnone : dom.seedLookup id = none)
    (hlength : id.length ∈ idLengths) :
    (s.update dom.key fun _ => dom.seedCreate id q).Tidy := by
  have hmem : dom ∈ s.domains := Keyed.mem_of_lookup hdom
  have hseeds : ∀ seed ∈ (dom.seedCreate id q).seeds,
      seed.Windowed ∧ seed.id.length ∈ idLengths := by
    intro seed hseed
    rcases List.mem_append.mp hseed with hseed | hseed
    · exact ⟨ht.windowed dom hmem seed hseed, ht.lengths dom hmem seed hseed⟩
    · rw [List.mem_singleton.mp hseed]
      exact ⟨⟨by simp [Seed.sequences], by simp [Seed.sequences]⟩, hlength⟩
  refine ht.update (g := fun _ => dom.seedCreate id q) hdom (fun _ _ => rfl) ?_ hseeds
    s.totalBuffered ?_
  · rw [Domain.seedCreate, List.map_append, List.nodup_append]
    refine ⟨ht.ids dom hmem, by simp, ?_⟩
    intro a ha b hb
    obtain ⟨seed, hseed, rfl⟩ := List.mem_map.mp ha
    rw [List.map_singleton, List.mem_singleton] at hb
    rw [hb]
    exact Keyed.lookup_eq_none.mp hnone seed hseed
  · simp [Domain.stored, Domain.seedCreate, storedBytes]

/-- An identifier has one of the lengths. -/
theorem Data.id_length (buf : Data) : buf.id.length ∈ idLengths := by
  have hoption := buf.option_length
  have hsource := buf.source_length
  unfold Data.id
  split
  · simp [hsource, idLengths]
  · rw [List.length_take, Nat.min_eq_left hoption]
    cases htype : buf.idType with
    | ipv6Src => contradiction
    | bits16 => simp [SeedIdType.len, idLengths]
    | bits64 => simp [SeedIdType.len, idLengths]
    | bits128 => simp [SeedIdType.len, idLengths]

/-- A seed without messages is left alone when room is made. -/
theorem State.Tidy.makeRoom_empty {len fuel : Nat} {s t : State} (ht : s.Tidy)
    (h : s.makeRoom len fuel = some t) {key : Nat} {id : SeedId} {seed : Seed}
    (hseed : s.seed key id = some seed) (hempty : seed.messages = []) :
    t.seed key id = some seed := by
  induction fuel generalizing s with
  | zero =>
      unfold State.makeRoom at h
      split at h
      · cases h
        exact hseed
      · cases h
  | succ fuel ih =>
      unfold State.makeRoom at h
      split at h
      · cases h
        exact hseed
      · split at h
        · rename_i hfuel hold
          cases hfuel
          rcases State.mem_of_oldest hold with hc | hc
          · refine ih (ht.freeSpace hc) h ?_
            rename_i c
            change (s.updateSeed c.key c.id Seed.dropFirst).seed key id = some seed
            have hne : (key, id) ≠ (c.key, c.id) := by
              intro heq
              cases heq
              obtain ⟨seed', rest, hseed', hm⟩ := ht.candidate hc
              rw [hseed] at hseed'
              cases hseed'
              rw [hempty] at hm
              cases hm
            rw [State.seed_updateSeed_ne Seed.dropFirst_id hne]
            exact hseed
          · cases hc
        · cases h

theorem Domain.seedLookup_seedCreate {dom : Domain} {id : SeedId} {q : Seq}
    (hnone : dom.seedLookup id = none) :
    (dom.seedCreate id q).seedLookup id =
      some ⟨id, dom.colour, dom.seedSetEntryLifetime, q, []⟩ := by
  have hnone : dom.seeds.find? (fun seed => decide (seed.id = id)) = none := hnone
  rw [Domain.seedLookup, Keyed.lookup, Domain.seedCreate, List.find?_append, hnone]
  simp

theorem State.lookup_replace {s : State} {key : Nat} {dom : Domain} (dom' : Domain)
    (hkey : dom'.key = key) (hdom : s.lookup key = some dom) : (s.update key fun _ => dom').lookup key = some dom' := by
  rw [State.lookup_update_self (g := fun _ => dom') fun _ _ => hkey, hdom]
  rfl

/-- **A data message keeps the invariant.** -/
theorem State.Tidy.process {env : Env} {s t : State} (ht : s.Tidy) {key : Nat} {buf : Data}
    {r : Bool} (hclear : Clear s (.data env key buf))
    (h : s.process env key buf = some (r, t)) : t.Tidy := by
  unfold State.process at h
  split at h
  · cases h
    exact ht
  · rename_i hloop
    split at h
    · cases h
      exact ht
    · rename_i dom hdom
      have hkey : dom.key = key := Keyed.key_of_lookup hdom
      subst hkey
      split at h
      · rename_i seed hseed
        refine ht.processKnown dom hdom hseed (fun hopen => hclear dom hdom seed hseed hopen ?_) h
        simp only [Bool.and_eq_true, Bool.not_eq_true', not_and, Bool.not_eq_true] at hloop
        cases hseeding : buf.seeding with
        | true => exact Or.inl rfl
        | false => exact Or.inr (by simp [hloop hseeding])
      · rename_i hnone
        split at h
        · cases h
          exact ht
        · dsimp only at h
          rw [Domain.seedLookup_seedCreate hnone] at h
          have ht' := ht.seedCreate (q := buf.sequence) hdom hnone buf.id_length
          have hdom' : (s.update dom.key fun _ => dom.seedCreate buf.id buf.sequence).lookup
              dom.key = some (dom.seedCreate buf.id buf.sequence) := by
            exact State.lookup_replace (dom.seedCreate buf.id buf.sequence) rfl hdom
          refine ht'.processKnown (dom.seedCreate buf.id buf.sequence) hdom'
            (Domain.seedLookup_seedCreate hnone) (fun _ => ?_) h
          -- the new seed has no messages and starts with this one
          split
          · intro _ room hroom seed' hseed'
            have hkept := State.kept_refresh_hearFlag env
              (s.update dom.key fun _ => dom.seedCreate buf.id buf.sequence)
              (dom.seedCreate buf.id buf.sequence) buf
            have hfound : (s.update dom.key fun _ => dom.seedCreate buf.id buf.sequence).seed
                dom.key buf.id = some ⟨buf.id, dom.colour, dom.seedSetEntryLifetime,
                  buf.sequence, []⟩ := by
              rw [State.seed, hdom', Option.bind_some, Domain.seedLookup_seedCreate hnone]
            obtain ⟨seed, hseed, heq⟩ := State.seed_of_kept hkept.symm hfound
            have hempty : seed.messages = [] := by
              have hlen := congrArg List.length (Seed.messages_of_kept heq)
              exact List.length_eq_zero_iff.mp (by simpa using hlen.symm)
            have hroom' := (ht'.of_kept hkept).makeRoom_empty hroom hseed hempty
            change room.seed dom.key buf.id = some seed' at hseed'
            rw [hroom'] at hseed'
            cases hseed'
            have hmin := Seed.minSequence_of_kept heq
            simp [← hmin]
          · intro m hm
            cases hm

/-! ## Control messages -/

theorem Seed.kept_mark (colour : Bool) (minSeqno : Seq) (names : List Seq) (seed : Seed) :
    (seed.mark colour minSeqno names).kept = seed.kept := by
  unfold Seed.kept Seed.mark
  rw [List.map_map]
  congr 2
  apply List.map_congr_left
  intro m _
  dsimp only [Function.comp]
  split <;> rfl

theorem Domain.kept_sweep (env : Env) (dom : Domain) : (dom.sweep env).kept = dom.kept := by
  unfold Domain.kept Domain.sweep
  rw [List.map_map]
  congr 1
  apply List.map_congr_left
  intro seed _
  unfold Seed.kept
  dsimp only [Function.comp]
  rw [List.map_map]
  congr 2
  apply List.map_congr_left
  intro m _
  dsimp only [Function.comp]
  split <;> rfl

/-- Reading records changes colours only. -/
theorem kept_scanControl {bits : Bits} {mem : Bytes} {fin : Nat} {source : SeedId} {fuel p : Nat}
    {dom dom' : Domain} {they they' : Bool}
    (h : scanControl bits mem fin source fuel p dom they = some (dom', they')) :
    dom'.kept = dom.kept := by
  induction fuel generalizing p dom they with
  | zero =>
      cases h
      rfl
  | succ fuel ih =>
      unfold scanControl at h
      split at h
      · cases h
        rfl
      · split at h
        · cases h
          rfl
        · dsimp only at h
          generalize (if idTypeOfCode ((mem (p + 1)).toNat % 4) = .ipv6Src then source
            else mem.read (p + 2) (idTypeOfCode ((mem (p + 1)).toNat % 4)).len) = id at h
          split at h
          · cases h
            rfl
          · split at h
            · exact ih h
            · split at h
              · cases h
              · exact (ih h).trans (Domain.kept_updateSeed fun _ => Seed.kept_mark _ _ _ _)

theorem kept_controlHandler {bits : Bits} {env : Env} {mem : Bytes} {p fin : Nat}
    {source : SeedId} {dom : Domain} {heard : Heard}
    (h : controlHandler bits env mem p fin source dom = some heard) :
    heard.domain.kept = dom.kept := by
  obtain ⟨⟨dom', they⟩, hscan, rfl⟩ := Option.map_eq_some_iff.mp h
  have hflipped := kept_scanControl hscan
  exact (Domain.kept_sweep env dom').trans hflipped

/-- A domain in place of another which holds the same. -/
theorem State.kept_replace {s : State} (ht : s.Tidy) {dom dom' : Domain}
    (hdom : s.lookup dom.key = some dom) (h : dom'.kept = dom.kept) :
    (s.update dom.key fun _ => dom').kept = s.kept := by
  unfold State.kept State.update Keyed.update
  rw [List.map_map]
  congr 1
  apply List.map_congr_left
  intro x hx
  dsimp only [Function.comp]
  split
  · rename_i hkey
    rw [Keyed.eq_of_lookup ht.keys hdom hx hkey]
    exact h
  · rfl

/-! ## Timers -/

theorem State.kept_fastTimer (env : Env) (s : State) : (s.fastTimer env).kept = s.kept := by
  unfold State.kept State.fastTimer
  rw [List.map_map]
  congr 1
  apply List.map_congr_left
  intro dom _
  unfold Domain.kept
  dsimp only [Function.comp]
  rw [List.map_map]
  congr 1
  apply List.map_congr_left
  intro seed _
  unfold Seed.kept
  dsimp only [Function.comp]
  rw [List.map_map]
  rfl

/-- What ages out and what stays is what was held. -/
theorem storedBytes_ageOut (old : Message → Bool) (q : Seq) (l : List Message) :
    storedBytes (ageOut old q l).2 + storedBytes (l.takeWhile old) = storedBytes l := by
  induction l generalizing q with
  | nil => rfl
  | cons m rest ih =>
      have hrest := ih (m.sequence + 1)
      cases hold : old m with
      | true =>
          simp only [ageOut, hold, if_true, List.takeWhile_cons]
          simp only [storedBytes, List.map_cons, List.sum_cons] at hrest ⊢
          omega
      | false => simp [ageOut, hold, storedBytes]

theorem storedBytes_append (l l' : List Message) :
    storedBytes (l ++ l') = storedBytes l + storedBytes l' := by
  simp [storedBytes]

/-- The seeds which the slow timer leaves, with what it deletes. -/
theorem storedBytes_slow (old : Message → Bool) (seconds : Nat) (seeds : List Seed) :
    ((seeds.filterMap (Seed.slow old seconds)).map fun seed => storedBytes seed.messages).sum +
      storedBytes (seeds.flatMap (Seed.slowDeleted old seconds)) =
        (seeds.map fun seed => storedBytes seed.messages).sum := by
  induction seeds with
  | nil => rfl
  | cons seed rest ih =>
      rw [List.flatMap_cons, storedBytes_append, List.map_cons, List.sum_cons]
      by_cases halive : seconds < seed.lifetime
      · have hage := storedBytes_ageOut old seed.minSequence seed.messages
        have hslow : seed.slow old seconds = some { seed with
            lifetime := seed.lifetime - seconds
            minSequence := (ageOut old seed.minSequence seed.messages).1
            messages := (ageOut old seed.minSequence seed.messages).2 } := by
          simp [Seed.slow, halive]
        rw [List.filterMap_cons_some hslow, List.map_cons, List.sum_cons, Seed.slowDeleted,
          if_pos halive]
        dsimp only
        omega
      · have hslow : seed.slow old seconds = none := by simp [Seed.slow, halive]
        rw [List.filterMap_cons_none hslow, Seed.slowDeleted, if_neg halive]
        omega

/-- A seed the slow timer leaves is the same seed, within its window. -/
theorem Seed.Windowed.slow {old : Message → Bool} {seconds : Nat} {seed seed' : Seed}
    (h : seed.Windowed) (hslow : seed.slow old seconds = some seed') :
    seed'.Windowed ∧ seed'.id = seed.id := by
  unfold Seed.slow at hslow
  split at hslow
  · cases hslow
    have hage := h.ageOut old
    exact ⟨⟨hage.within, hage.increasing⟩, rfl⟩
  · cases hslow

theorem ids_slow (old : Message → Bool) (seconds : Nat) (seeds : List Seed) :
    ((seeds.filterMap (Seed.slow old seconds)).map Seed.id).Sublist (seeds.map Seed.id) := by
  induction seeds with
  | nil => exact List.Sublist.refl _
  | cons seed rest ih =>
      cases hslow : seed.slow old seconds with
      | none =>
          rw [List.filterMap_cons_none hslow]
          exact ih.cons _
      | some seed' =>
          have hid : seed'.id = seed.id := by
            unfold Seed.slow at hslow
            split at hslow <;> cases hslow
            rfl
          rw [List.filterMap_cons_some hslow, List.map_cons, List.map_cons, hid]
          exact ih.cons_cons _

/-- What a sum of domains loses, the messages deleted take. -/
theorem sum_domains {domains : List Domain} {g : Domain → Domain}
    {deleted : Domain → List Message}
    (h : ∀ dom ∈ domains, (g dom).stored + storedBytes (deleted dom) = dom.stored) :
    (domains.map fun dom => (g dom).stored).sum + storedBytes (domains.flatMap deleted) =
      (domains.map Domain.stored).sum := by
  induction domains with
  | nil => rfl
  | cons dom rest ih =>
      have hhead := h dom List.mem_cons_self
      have hrest := ih fun dom' hdom' => h dom' (List.mem_cons_of_mem _ hdom')
      rw [List.flatMap_cons, storedBytes_append, List.map_cons, List.sum_cons, List.map_cons,
        List.sum_cons]
      omega

/-- **Every domain changed**: the seeds left are among those there were, and the
room of what they held and hold no longer is given back. -/
theorem State.Tidy.map {s : State} (ht : s.Tidy) {g : Domain → Domain}
    {deleted : Domain → List Message} (hkey : ∀ dom, (g dom).key = dom.key)
    (hids : ∀ dom, ((g dom).seeds.map Seed.id).Sublist (dom.seeds.map Seed.id))
    (hwindowed : ∀ dom ∈ s.domains, ∀ seed ∈ (g dom).seeds, seed.Windowed)
    (hstored : ∀ dom ∈ s.domains,
      (g dom).stored + storedBytes (deleted dom) = dom.stored) :
    State.Tidy (State.release { s with domains := s.domains.map g }
      (s.domains.flatMap deleted)) := by
  constructor
  · have hkeys : (s.domains.map g).map Domain.key = s.domains.map Domain.key := by
      rw [List.map_map]
      exact List.map_congr_left fun dom _ => hkey dom
    change ((s.domains.map g).map Domain.key).Nodup
    rw [hkeys]
    exact ht.keys
  · intro dom' hdom'
    obtain ⟨dom, hdom, rfl⟩ := List.mem_map.mp hdom'
    exact (ht.ids dom hdom).sublist (hids dom)
  · intro dom' hdom'
    obtain ⟨dom, hdom, rfl⟩ := List.mem_map.mp hdom'
    exact hwindowed dom hdom
  · intro dom' hdom' seed hseed
    obtain ⟨dom, hdom, rfl⟩ := List.mem_map.mp hdom'
    have hid := (hids dom).subset (List.mem_map_of_mem hseed)
    obtain ⟨seed', hseed', heq⟩ := List.mem_map.mp hid
    rw [← heq]
    exact ht.lengths dom hdom seed' hseed'
  · have hsum := sum_domains hstored
    have htotal := ht.total
    rw [State.stored] at htotal
    change s.totalBuffered - storedBytes (s.domains.flatMap deleted) =
      ((s.domains.map g).map Domain.stored).sum
    rw [List.map_map]
    change _ = (s.domains.map fun dom => (g dom).stored).sum
    omega

theorem State.Tidy.slowTimer {s : State} (ht : s.Tidy) (seconds : Nat) :
    (s.slowTimer seconds).Tidy := by
  refine ht.map
    (g := fun dom => { dom with seeds := dom.seeds.filterMap (Seed.slow (s.outdated dom) seconds) })
    (fun _ => rfl) (fun _ => ids_slow _ _ _) ?_ fun dom _ => storedBytes_slow _ _ dom.seeds
  intro dom hdom seed hseed
  obtain ⟨seed', hseed', hslow⟩ := List.mem_filterMap.mp hseed
  exact ((ht.windowed dom hdom seed' hseed').slow hslow).1

/-- The messages of a domain take the room it takes. -/
theorem Domain.stored_messages (dom : Domain) :
    storedBytes (dom.seeds.flatMap Seed.messages) = dom.stored := by
  unfold Domain.stored
  induction dom.seeds with
  | nil => rfl
  | cons seed rest ih =>
      rw [List.flatMap_cons, storedBytes_append, List.map_cons, List.sum_cons, ih]

theorem State.Tidy.clearSeeds {s : State} (ht : s.Tidy) (p : Domain → Bool) :
    (s.clearSeeds p).Tidy := by
  have hdeleted : allMessages (s.domains.filter p) = s.domains.flatMap fun dom =>
      if p dom then dom.seeds.flatMap Seed.messages else [] := by
    unfold allMessages
    induction s.domains with
    | nil => rfl
    | cons dom rest ih =>
        rw [List.flatMap_cons, ← ih]
        cases hp : p dom <;> simp [hp]
  unfold State.clearSeeds
  rw [hdeleted]
  refine ht.map (g := fun dom => if p dom then { dom with seeds := [] } else dom)
    (fun dom => ?_) (fun dom => ?_) (fun dom hdom seed hseed => ?_) fun dom _ => ?_
  · split <;> rfl
  · split
    · exact List.nil_sublist _
    · exact List.Sublist.refl _
  · split at hseed
    · cases hseed
    · exact ht.windowed dom hdom seed hseed
  · split
    · rw [Domain.stored_messages]
      simp [Domain.stored]
    · simp [storedBytes]

/-- Domains in which nothing is held count for nothing. -/
theorem sum_filter_stored {domains : List Domain} {p : Domain → Bool}
    (h : ∀ dom ∈ domains, p dom = false → dom.stored = 0) :
    (domains.map Domain.stored).sum = ((domains.filter p).map Domain.stored).sum := by
  induction domains with
  | nil => rfl
  | cons dom rest ih =>
      have hrest := ih fun dom' hdom' => h dom' (List.mem_cons_of_mem _ hdom')
      rw [List.map_cons, List.sum_cons, hrest]
      cases hp : p dom with
      | true => simp [hp]
      | false => simp [hp, h dom List.mem_cons_self hp]

/-- A domain deleted has no seeds left. -/
theorem State.Tidy.domainDelete {s : State} (ht : s.Tidy) (key : Nat) :
    (s.domainDelete key).Tidy := by
  have hclear := ht.clearSeeds fun dom => dom.key == key
  have hgone : ∀ dom ∈ (s.clearSeeds fun dom => dom.key == key).domains,
      (dom.key != key) = false → dom.stored = 0 := by
    intro dom hdom hkey
    obtain ⟨old, _, rfl⟩ := List.mem_map.mp hdom
    split at hkey
    · rw [if_pos ‹_›]
      rfl
    · rename_i hne
      simp only [bne_eq_false_iff_eq] at hkey
      simp [hkey] at hne
  unfold State.domainDelete
  generalize s.clearSeeds (fun dom => dom.key == key) = s' at hclear hgone
  have hmem : ∀ dom ∈ s'.domains.filter (fun dom => dom.key != key), dom ∈ s'.domains :=
    fun dom hdom => List.mem_of_mem_filter hdom
  refine ⟨hclear.keys.sublist (List.filter_sublist.map _),
    fun dom hdom => hclear.ids dom (hmem dom hdom),
    fun dom hdom => hclear.windowed dom (hmem dom hdom),
    fun dom hdom => hclear.lengths dom (hmem dom hdom), ?_⟩
  exact hclear.total.trans (sum_filter_stored hgone)

theorem State.Tidy.domainCreate {s : State} (ht : s.Tidy) (dom : Domain)
    (hfresh : (s.lookup dom.key).isSome = false) (hseeds : dom.seeds = []) :
    State.Tidy { s with domains := s.domains ++ [dom] } := by
  have hnew : ∀ dom' ∈ s.domains ++ [dom], dom' ∈ s.domains ∨ dom'.seeds = [] := by
    intro dom' hdom'
    rcases List.mem_append.mp hdom' with hold | hnew
    · exact Or.inl hold
    · rw [List.mem_singleton.mp hnew]
      exact Or.inr hseeds
  constructor
  · rw [List.map_append, List.nodup_append]
    refine ⟨ht.keys, by simp, ?_⟩
    intro a ha b hb
    obtain ⟨old, hold, rfl⟩ := List.mem_map.mp ha
    rw [List.map_singleton, List.mem_singleton] at hb
    rw [hb]
    rw [Option.isSome_eq_false_iff, Option.isNone_iff_eq_none] at hfresh
    exact Keyed.lookup_eq_none.mp hfresh old hold
  · intro dom' hdom'
    rcases hnew dom' hdom' with hold | hempty
    · exact ht.ids dom' hold
    · simp [hempty]
  · intro dom' hdom' seed hseed
    rcases hnew dom' hdom' with hold | hempty
    · exact ht.windowed dom' hold seed hseed
    · simp [hempty] at hseed
  · intro dom' hdom' seed hseed
    rcases hnew dom' hdom' with hold | hempty
    · exact ht.lengths dom' hold seed hseed
    · simp [hempty] at hseed
  · rw [ht.total, State.stored, State.stored, List.map_append]
    simp [Domain.stored, hseeds]

/-! ## Runs -/

theorem State.Tidy.init : State.init.Tidy := by
  constructor <;> simp [State.init, State.stored]

/-- **One step**, with no comparison of opposite numbers, keeps the invariant. -/
theorem State.Tidy.step {bits : Bits} {s t : State} {a : Act} (ht : s.Tidy) (hclear : Clear s a)
    (h : step bits s a = some t) : t.Tidy := by
  cases a with
  | domainCreate env cfg =>
      simp only [Mpl.step] at h
      split at h <;> cases h
      · exact ht
      · rename_i hfresh
        exact ht.domainCreate (cfg.domain env) (Bool.eq_false_of_not_eq_true hfresh) rfl
  | domainDelete key =>
      cases h
      exact ht.domainDelete key
  | changeTiming key data lifetime =>
      cases h
      exact ht.of_kept (State.kept_update fun _ => rfl)
  | clearRealmScope =>
      cases h
      exact ht.clearSeeds _
  | data env key buf =>
      obtain ⟨⟨r, t'⟩, hprocess, rfl⟩ := Option.map_eq_some_iff.mp h
      exact ht.process hclear hprocess
  | control env key mem p fin source =>
      simp only [Mpl.step] at h
      split at h
      · cases h
        exact ht
      · rename_i dom hdom
        obtain ⟨heard, hheard, rfl⟩ := Option.map_eq_some_iff.mp h
        have hkey : dom.key = key := Keyed.key_of_lookup hdom
        subst hkey
        exact ht.of_kept (State.kept_replace ht hdom (kept_controlHandler hheard))
  | slowTimer seconds =>
      cases h
      exact ht.slowTimer seconds
  | fastTimer env =>
      cases h
      exact ht.of_kept (State.kept_fastTimer env s)
  | tick =>
      cases h
      exact State.Tidy.of_kept (s := s) rfl ht

/-- **Every run** whose steps are clear keeps it. -/
theorem State.Tidy.run {bits : Bits} {acts : List Act} {t : State}
    (hclear : Runs.Meets (Mpl.step bits) Clear State.init acts)
    (h : Runs.run (Mpl.step bits) State.init acts = some t) : t.Tidy :=
  Runs.run_invariant State.Tidy (fun _ _ _ ht hok hstep => ht.step hok hstep) .init hclear h

end Mpl
