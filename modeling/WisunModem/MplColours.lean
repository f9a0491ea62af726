import WisunModem.MplInvariant

/-!
# Colours between control messages

A control message is handled by giving what it mentions the other colour.  For that
everything must have the colour of the domain before, as it has in every state
reached: new seeds and messages are born with it, and `sweep` restores it.
-/

namespace Mpl

/-- A seed and its messages have this colour. -/
def Seed.Uniform (colour : Bool) (seed : Seed) : Prop :=
  seed.colour = colour ∧ ∀ m ∈ seed.messages, m.colour = colour

/-- Everything in the domain has its colour. -/
def Domain.Uniform (dom : Domain) : Prop := ∀ seed ∈ dom.seeds, seed.Uniform dom.colour

/-- Every domain has one colour, and its own key. -/
structure State.Coloured (s : State) : Prop where
  keys : (s.domains.map Domain.key).Nodup
  uniform : ∀ dom ∈ s.domains, dom.Uniform

namespace Seed.Uniform

variable {c : Bool} {seed : Seed}

theorem sublist {messages : List Message} {q : Seq} {lifetime : Nat} (h : seed.Uniform c)
    (hsub : messages.Sublist seed.messages) :
    Seed.Uniform c { seed with lifetime, minSequence := q, messages } :=
  ⟨h.1, fun m hm => h.2 m (hsub.subset hm)⟩

theorem dropFirst (h : seed.Uniform c) : seed.dropFirst.Uniform c := by
  unfold Seed.dropFirst
  split
  · exact h
  · rename_i m rest hm
    refine ⟨h.1, fun m' hm' => h.2 m' ?_⟩
    rw [hm]
    exact List.mem_cons_of_mem _ hm'

/-- A timer changed leaves the colour. -/
theorem mapMessages {f : Message → Message} (h : seed.Uniform c)
    (hf : ∀ m, (f m).colour = m.colour) :
    Seed.Uniform c { seed with messages := seed.messages.map f } := by
  refine ⟨h.1, fun m' hm' => ?_⟩
  obtain ⟨m, hm, rfl⟩ := List.mem_map.mp hm'
  exact (hf m).trans (h.2 m hm)

theorem hearNewest (env : Env) (params : TrickleParams) (q : Seq) (h : seed.Uniform c) :
    (seed.hearNewest env params q).Uniform c :=
  h.mapMessages fun m => by split <;> rfl

theorem hearAgain (q : Seq) (h : seed.Uniform c) : (seed.hearAgain q).Uniform c :=
  h.mapMessages fun m => by split <;> rfl

theorem insert {message : Message} (h : seed.Uniform c) (hm : message.colour = c) :
    Seed.Uniform c { seed with messages := insertMessage message seed.messages } := by
  refine ⟨h.1, fun m hmem => ?_⟩
  rcases List.mem_cons.mp ((insertMessage_perm message seed.messages).mem_iff.mp hmem) with
    rfl | hmem
  · exact hm
  · exact h.2 m hmem

theorem slow {old : Message → Bool} {seconds : Nat} {seed' : Seed} (h : seed.Uniform c)
    (hslow : seed.slow old seconds = some seed') : seed'.Uniform c := by
  unfold Seed.slow at hslow
  split at hslow
  · cases hslow
    refine h.sublist ?_
    generalize seed.minSequence = q
    induction seed.messages generalizing q with
    | nil => exact List.Sublist.refl _
    | cons m rest ih =>
        unfold ageOut
        split
        · exact (ih _).cons _
        · exact List.Sublist.refl _
  · cases hslow

end Seed.Uniform

namespace State.Coloured

variable {s t : State} {key : Nat} {id : SeedId}

/-- One domain changed. -/
theorem update {g : Domain → Domain} (h : s.Coloured) (hkey : ∀ x, x.key = key → (g x).key = key)
    (hg : ∀ dom, s.lookup key = some dom → dom.Uniform → (g dom).Uniform) :
    (s.update key g).Coloured := by
  constructor
  · change ((Keyed.update Domain.key key g s.domains).map Domain.key).Nodup
    rw [Keyed.keys_update hkey]
    exact h.keys
  · intro dom' hdom'
    cases hdom : s.lookup key with
    | none =>
        change dom' ∈ Keyed.update Domain.key key g s.domains at hdom'
        rw [Keyed.update_of_lookup_none hdom] at hdom'
        exact h.uniform dom' hdom'
    | some dom =>
        rcases Keyed.mem_update h.keys hdom hdom' with rfl | ⟨hold, _⟩
        · exact hg dom hdom (h.uniform dom (Keyed.mem_of_lookup hdom))
        · exact h.uniform dom' hold

/-- One seed changed. -/
theorem updateSeed {f : Seed → Seed} (h : s.Coloured)
    (hf : ∀ dom, s.lookup key = some dom → ∀ seed, seed.Uniform dom.colour →
      (f seed).Uniform dom.colour) :
    (s.updateSeed key id f).Coloured := by
  refine h.update (fun _ hx => hx) fun dom hdom huniform seed' hseed' => ?_
  obtain ⟨seed, hseed, rfl⟩ := List.mem_map.mp hseed'
  split
  · exact hf dom hdom seed (huniform seed hseed)
  · exact huniform seed hseed

/-- Every domain changed. -/
theorem map {g : Domain → Domain} {total : Nat} (h : s.Coloured)
    (hkey : ∀ dom, (g dom).key = dom.key) (hg : ∀ dom, dom.Uniform → (g dom).Uniform) :
    State.Coloured { s with domains := s.domains.map g, totalBuffered := total } := by
  constructor
  · have hkeys : (s.domains.map g).map Domain.key = s.domains.map Domain.key := by
      rw [List.map_map]
      exact List.map_congr_left fun dom _ => hkey dom
    rw [hkeys]
    exact h.keys
  · intro dom' hdom'
    obtain ⟨dom, hdom, rfl⟩ := List.mem_map.mp hdom'
    exact hg dom (h.uniform dom hdom)

/-- The room taken and the time are no matter of colour. -/
theorem of_domains (h : s.Coloured) (heq : t.domains = s.domains) : t.Coloured :=
  ⟨heq ▸ h.keys, heq ▸ h.uniform⟩

theorem makeRoom {len fuel : Nat} (h : s.Coloured) (hroom : s.makeRoom len fuel = some t) :
    t.Coloured := by
  induction fuel generalizing s with
  | zero =>
      unfold State.makeRoom at hroom
      split at hroom <;> cases hroom
      exact h
  | succ fuel ih =>
      unfold State.makeRoom at hroom
      split at hroom
      · cases hroom
        exact h
      · split at hroom
        · rename_i hfuel _
          cases hfuel
          rename_i c _
          have hdrop : (s.updateSeed c.key c.id Seed.dropFirst).Coloured :=
            h.updateSeed fun _ _ _ hu => hu.dropFirst
          have hfree : (s.freeSpace c).Coloured := hdrop.of_domains rfl
          exact ih hfree hroom
        · cases hroom

theorem bufferCreate {env : Env} {buf : Data} (h : s.Coloured) :
    (s.bufferCreate env key buf).Coloured := by
  unfold State.bufferCreate
  split
  · rename_i dom seed hdom hseed
    split
    · exact h
    · split
      · exact h
      · refine of_domains (s := State.update _ key (Domain.controlResetOrStart env)) ?_ rfl
        refine update (updateSeed h fun dom' hdom' seed' hu => hu.insert ?_) (fun _ hx => hx)
          fun dom _ hu => hu
        rw [hdom] at hdom'
        cases hdom'
        obtain ⟨dom', hlook, hmem⟩ := State.seed_parts hseed
        rw [hdom] at hlook
        cases hlook
        exact (h.uniform dom (Keyed.mem_of_lookup hdom) seed (Keyed.mem_of_lookup hmem)).1
  · exact h

theorem hearFlag {env : Env} {dom : Domain} {buf : Data} (h : s.Coloured) :
    (s.hearFlag env dom buf).Coloured := by
  unfold State.hearFlag
  split
  · exact h.updateSeed fun _ _ _ hu => hu.hearNewest _ _ _
  · exact h

theorem refresh {dom : Domain} {buf : Data} (h : s.Coloured) : (s.refresh dom buf).Coloured :=
  h.updateSeed fun _ _ _ hu => hu

theorem processKnown {env : Env} {dom : Domain} {seed : Seed} {buf : Data} {r : Bool}
    (h : s.Coloured) (hprocess : s.processKnown env dom seed buf = some (r, t)) :
    t.Coloured := by
  unfold State.processKnown at hprocess
  split at hprocess
  · cases hprocess
    exact h.hearFlag
  · split at hprocess
    · cases hprocess
      exact h.hearFlag.updateSeed fun _ _ _ hu => hu.hearAgain _
    · split at hprocess
      · cases hprocess
        refine of_domains (h.hearFlag.refresh.updateSeed fun _ _ seed hu => ?_) rfl
        exact hu.sublist List.filter_sublist
      · obtain ⟨room, hroom, heq⟩ := Option.map_eq_some_iff.mp hprocess
        cases heq
        exact (h.hearFlag.refresh.makeRoom hroom).bufferCreate

theorem process {env : Env} {buf : Data} {r : Bool} (h : s.Coloured)
    (hprocess : s.process env key buf = some (r, t)) : t.Coloured := by
  unfold State.process at hprocess
  split at hprocess
  · cases hprocess
    exact h
  · split at hprocess
    · cases hprocess
      exact h
    · rename_i dom hdom
      split at hprocess
      · exact h.processKnown hprocess
      · split at hprocess
        · cases hprocess
          exact h
        · dsimp only at hprocess
          split at hprocess
          · refine processKnown (h.update (fun _ _ => ?_) fun _ _ _ => ?_) hprocess
            · exact (Keyed.key_of_lookup hdom : dom.key = key)
            · have hold := h.uniform dom (Keyed.mem_of_lookup hdom)
              intro seed hseed
              rcases List.mem_append.mp hseed with hseed | hseed
              · exact hold seed hseed
              · rw [List.mem_singleton.mp hseed]
                exact ⟨rfl, by simp⟩
          · cases hprocess
            exact h

end State.Coloured

/-- After a control message everything has the colour of the domain. -/
theorem sweep_uniform (env : Env) (dom : Domain) : (dom.sweep env).Uniform := by
  intro seed' hseed'
  obtain ⟨seed, _, rfl⟩ := List.mem_map.mp hseed'
  refine ⟨rfl, fun m' hm' => ?_⟩
  obtain ⟨m, _, rfl⟩ := List.mem_map.mp hm'
  split
  · rfl
  · rename_i hsame
    rw [bne_iff_ne, ne_eq, Decidable.not_not] at hsame
    exact hsame

theorem controlHandler_uniform {bits : Bits} {env : Env} {mem : Bytes} {p fin : Nat}
    {source : SeedId} {dom : Domain} {heard : Heard}
    (h : controlHandler bits env mem p fin source dom = some heard) : heard.domain.Uniform := by
  obtain ⟨⟨dom', they⟩, _, rfl⟩ := Option.map_eq_some_iff.mp h
  exact sweep_uniform env dom'

/-! ## Runs -/

theorem State.Coloured.step {bits : Bits} {s t : State} {a : Act} (h : s.Coloured)
    (hstep : step bits s a = some t) : t.Coloured := by
  cases a with
  | domainCreate env cfg =>
      simp only [Mpl.step] at hstep
      split at hstep <;> cases hstep
      · exact h
      · rename_i hfresh
        have hnone : s.lookup cfg.key = none := by simpa using hfresh
        constructor
        · rw [List.map_append, List.nodup_append]
          refine ⟨h.keys, by simp, ?_⟩
          intro a ha b hb
          obtain ⟨old, hold, rfl⟩ := List.mem_map.mp ha
          rw [List.map_singleton, List.mem_singleton] at hb
          rw [hb]
          exact Keyed.lookup_eq_none.mp hnone old hold
        · intro dom hdom
          rcases List.mem_append.mp hdom with hdom | hdom
          · exact h.uniform dom hdom
          · rw [List.mem_singleton.mp hdom]
            intro seed hseed
            cases hseed
  | domainDelete key =>
      cases hstep
      have hclear : (s.clearSeeds fun dom => dom.key == key).Coloured := by
        refine h.map (fun dom => ?_) fun dom hu => ?_
        · split <;> rfl
        · split
          · intro seed hseed
            cases hseed
          · exact hu
      exact ⟨hclear.keys.sublist (List.filter_sublist.map _),
        fun dom hdom => hclear.uniform dom (List.mem_of_mem_filter hdom)⟩
  | changeTiming key data lifetime =>
      cases hstep
      exact h.update (fun _ hx => hx) fun _ _ hu => hu
  | clearRealmScope =>
      cases hstep
      refine h.map (fun dom => ?_) fun dom hu => ?_
      · split <;> rfl
      · split
        · intro seed hseed
          cases hseed
        · exact hu
  | data env key buf =>
      obtain ⟨⟨r, t'⟩, hprocess, rfl⟩ := Option.map_eq_some_iff.mp hstep
      exact h.process hprocess
  | control env key mem p fin source =>
      simp only [Mpl.step] at hstep
      split at hstep
      · cases hstep
        exact h
      · rename_i dom hdom
        obtain ⟨heard, hheard, rfl⟩ := Option.map_eq_some_iff.mp hstep
        refine h.update (fun _ _ => ?_) fun _ _ _ => controlHandler_uniform hheard
        have hkey := Domain.key_of_kept (kept_controlHandler hheard)
        exact hkey.trans (Keyed.key_of_lookup hdom)
  | slowTimer seconds =>
      cases hstep
      refine h.map (fun _ => rfl) fun dom hu seed' hseed' => ?_
      obtain ⟨seed, hseed, hslow⟩ := List.mem_filterMap.mp hseed'
      exact (hu seed hseed).slow hslow
  | fastTimer env =>
      cases hstep
      refine h.map (fun _ => rfl) fun dom hu seed' hseed' => ?_
      obtain ⟨seed, hseed, rfl⟩ := List.mem_map.mp hseed'
      exact (hu seed hseed).mapMessages fun _ => rfl
  | tick =>
      cases hstep
      exact h.of_domains rfl

theorem State.Coloured.init : State.init.Coloured := by
  constructor <;> simp [State.init]

/-- **In every state reached**, everything has the colour of its domain. -/
theorem State.Coloured.run {bits : Bits} {acts : List Act} {t : State}
    (h : Runs.run (Mpl.step bits) State.init acts = some t) : t.Coloured :=
  Runs.run_invariant_free State.Coloured (fun _ _ _ hs hstep => hs.step hstep)
    .init h

end Mpl
