import WisunModem.MplColours
import WisunModem.MplRecord

/-!
# Each message at most once

A message accepted is remembered: it is held, or `min_sequence` is behind it.  The
numbers of the messages tell more than their low bytes do, and `Remembers` says
with them how far `min_sequence` may have gone beyond a message accepted, as long
as no number in the network is 128 beyond another.

The log watches one seed from the time its entry is made to the time it goes.
-/

namespace Mpl

/-- How far `min_sequence` is beyond a number. -/
def Seed.gap (seed : Seed) (n : Nat) : Nat := (seed.minSequence - BitVec.ofNat 8 n).toNat

/-- With `top` the greatest number heard: the messages held are no more than 127
behind it, and each number accepted within that reach is held or passed. -/
structure Seed.Remembers (seed : Seed) (top : Nat) (accepted : List Nat) : Prop where
  held : ∀ m ∈ seed.messages, m.number ≤ top ∧ top < m.number + 128
  known : ∀ a ∈ accepted, top < a + 128 →
    (∃ m ∈ seed.messages, m.number = a) ∨
      (0 < seed.gap a ∧ seed.gap a ≤ 128 ∧ a + seed.gap a ≤ top + 1)
  heard : ∀ a ∈ accepted, a ≤ top

/-- Later states of an entry: messages leave it from the front, and colours,
lifetimes and timers change. -/
inductive Seed.Ages : Seed → Seed → Prop
  | refl (seed : Seed) : Ages seed seed
  | kept {a b c : Seed} : Ages a b → c.kept = b.kept → Ages a c
  | drop {a b : Seed} : Ages a b → b.Windowed → Ages a b.dropFirst

theorem Seed.Ages.trans {a b c : Seed} (h : a.Ages b) (h' : b.Ages c) : a.Ages c := by
  induction h' with
  | refl => exact h
  | kept _ heq ih => exact ih.kept heq
  | drop _ hw ih => exact ih.drop hw

/-! ## Numbers and windows -/

theorem gap_behind (seed : Seed) {f a : Nat} (hmin : seed.minSequence = BitVec.ofNat 8 f + 1)
    (hle : a ≤ f) (hlt : f < a + 128) : seed.gap a = f + 1 - a := by
  rw [Seed.gap, hmin]
  bv_omega

/-- What is in the window of `base` is not within 128 before it. -/
theorem not_before {base : Seq} {n f : Nat} (hbase : base = BitVec.ofNat 8 n)
    (hwithin : (BitVec.ofNat 8 f - base).toNat < 128) (hlt : f < n) : f + 128 < n := by
  rw [hbase] at hwithin
  bv_omega

theorem gap_base (seed : Seed) (a : Nat) :
    seed.minSequence = BitVec.ofNat 8 (a + seed.gap a) := by
  unfold Seed.gap
  bv_omega

namespace Seed.Remembers

variable {seed seed' : Seed} {top : Nat} {accepted : List Nat}

/-- Only what is held and expected matters. -/
theorem of_kept (h : seed.Remembers top accepted) (heq : seed'.kept = seed.kept) :
    seed'.Remembers top accepted := by
  have hnumbers : seed'.messages.map Message.number = seed.messages.map Message.number := by
    have hnumber : ∀ l : List Message,
        l.map Message.number = (l.map Message.kept).map Prod.fst := by
      intro l
      rw [List.map_map]
      rfl
    rw [hnumber, hnumber, Seed.messages_of_kept heq]
  have hmem : ∀ n, (∃ m ∈ seed'.messages, m.number = n) ↔ ∃ m ∈ seed.messages, m.number = n := by
    intro n
    rw [← List.mem_map, ← List.mem_map, hnumbers]
  have hgap : ∀ n, seed'.gap n = seed.gap n := fun n => by
    rw [Seed.gap, Seed.minSequence_of_kept heq, Seed.gap]
  constructor
  · intro m hm
    obtain ⟨m', hm', hsame⟩ := (hmem m.number).mp ⟨m, hm, rfl⟩
    rw [← hsame]
    exact h.held m' hm'
  · intro a ha htop
    rw [hmem, hgap]
    exact h.known a ha htop
  · exact h.heard

/-- The first message goes. -/
theorem dropFirst (h : seed.Remembers top accepted) (hw : seed.Windowed) :
    seed.dropFirst.Remembers top accepted := by
  unfold Seed.dropFirst
  split
  · exact h
  · rename_i f rest hm
    have hf := h.held f (hm ▸ List.mem_cons_self)
    refine ⟨fun m hmem => h.held m (hm ▸ List.mem_cons_of_mem _ hmem), ?_, h.heard⟩
    intro a ha htop
    have hle := h.heard a ha
    have hbehind : a ≤ f.number → (∃ m ∈ rest, m.number = a) ∨
        (0 < Seed.gap { seed with minSequence := f.sequence + 1, messages := rest } a ∧
          Seed.gap { seed with minSequence := f.sequence + 1, messages := rest } a ≤ 128 ∧
          a + Seed.gap { seed with minSequence := f.sequence + 1, messages := rest } a ≤
            top + 1) := by
      intro hle
      rw [gap_behind { seed with minSequence := f.sequence + 1, messages := rest } rfl hle (by omega)]
      exact Or.inr (by omega)
    rcases h.known a ha htop with ⟨m, hmem, hnumber⟩ | ⟨hpos, hbound, htop'⟩
    · rw [hm] at hmem
      rcases List.mem_cons.mp hmem with rfl | hmem
      · exact hbehind hnumber.ge
      · exact Or.inl ⟨m, hmem, hnumber⟩
    · -- the window starts behind `a` and `f` is in it
      refine hbehind ?_
      have hwithin : (f.sequence - seed.minSequence).toNat < 128 :=
        hw.offset_lt (hm ▸ List.mem_cons_self)
      by_contra hlt
      have hbefore := not_before (gap_base seed a) hwithin (by omega)
      omega

theorem ages (h : seed.Remembers top accepted) (hages : seed.Ages seed') :
    seed'.Remembers top accepted := by
  induction hages with
  | refl => exact h
  | kept _ heq ih => exact ih.of_kept heq
  | drop _ hw ih => exact ih.dropFirst hw

/-- A number not far behind is heard. -/
theorem hear {n : Nat} (h : seed.Remembers top accepted)
    (hnear : ∀ m ∈ seed.messages, n < m.number + 128) :
    seed.Remembers (max top n) accepted := by
  constructor
  · intro m hm
    have hheld := h.held m hm
    have hnear := hnear m hm
    omega
  · intro a ha htop
    rcases h.known a ha (by omega) with hheld | hpassed
    · exact Or.inl hheld
    · exact Or.inr (by omega)
  · intro a ha
    have hheard := h.heard a ha
    omega

/-- **A number which is open was not accepted before.** -/
theorem fresh {n : Nat} (h : seed.Remembers top accepted) (htop : top < n + 128)
    (hopen : seed.isOpen (BitVec.ofNat 8 n) = true)
    (hne : (BitVec.ofNat 8 n - seed.minSequence).toNat ≠ 128) : n ∉ accepted := by
  intro hn
  obtain ⟨hpassed, hheld⟩ := Seed.isOpen_iff.mp hopen
  rcases h.known n hn htop with ⟨m, hm, rfl⟩ | ⟨hpos, hbound, _⟩
  · exact hheld (List.mem_map_of_mem hm)
  · have hnot : ¬serialGreater seed.minSequence (BitVec.ofNat 8 n) = true := by simp [hpassed]
    rw [serialGreater_iff] at hnot
    unfold Seed.gap at hpos hbound
    bv_omega

/-- A number which the window has passed is accepted. -/
theorem pass {n : Nat} (h : seed.Remembers top accepted) (hn : n ≤ top) (hpos : 0 < seed.gap n)
    (hbound : seed.gap n ≤ 128) (htop : n + seed.gap n ≤ top + 1) :
    seed.Remembers top (n :: accepted) := by
  refine ⟨h.held, ?_, ?_⟩
  · intro a ha hreach
    rcases List.mem_cons.mp ha with rfl | ha
    · exact Or.inr ⟨hpos, hbound, htop⟩
    · exact h.known a ha hreach
  · intro a ha
    rcases List.mem_cons.mp ha with rfl | ha
    · exact hn
    · exact h.heard a ha

/-- A number is accepted and held. -/
theorem insert (message : Message) (h : seed.Remembers top accepted) (hle : message.number ≤ top)
    (hlt : top < message.number + 128) :
    Seed.Remembers { seed with messages := insertMessage message seed.messages } top
      (message.number :: accepted) := by
  have hmem : ∀ m, m ∈ insertMessage message seed.messages ↔ m = message ∨ m ∈ seed.messages := by
    intro m
    rw [(insertMessage_perm message seed.messages).mem_iff, List.mem_cons]
  constructor
  · intro m hm
    rcases (hmem m).mp hm with rfl | hm
    · exact ⟨hle, hlt⟩
    · exact h.held m hm
  · intro a ha htop
    rcases List.mem_cons.mp ha with rfl | ha
    · exact Or.inl ⟨message, (hmem message).mpr (Or.inl rfl), rfl⟩
    · rcases h.known a ha htop with ⟨m, hm, hnumber⟩ | hpassed
      · exact Or.inl ⟨m, (hmem m).mpr (Or.inr hm), hnumber⟩
      · exact Or.inr hpassed
  · intro a ha
    rcases List.mem_cons.mp ha with rfl | ha
    · exact hle
    · exact h.heard a ha

/-- A number is accepted and not held: the window moves behind it. -/
theorem advance {n : Nat} (h : seed.Remembers top accepted) (hle : n ≤ top)
    (hlt : top < n + 128) (hopen : seed.isOpen (BitVec.ofNat 8 n) = true)
    (hne : (BitVec.ofNat 8 n - seed.minSequence).toNat ≠ 128) :
    (seed.advance (BitVec.ofNat 8 n + 1)).Remembers top (n :: accepted) := by
  have hgap : ∀ a, a ≤ n → n < a + 128 →
      (seed.advance (BitVec.ofNat 8 n + 1)).gap a = n + 1 - a := fun a hle hlt =>
    gap_behind _ rfl hle hlt
  have hpassed := (Seed.isOpen_iff.mp hopen).1
  constructor
  · intro m hm
    exact h.held m (List.mem_of_mem_filter hm)
  · intro a ha htop
    rcases List.mem_cons.mp ha with rfl | ha
    · rw [hgap a (Nat.le_refl _) (by omega)]
      exact Or.inr (by omega)
    · have hheard := h.heard a ha
      by_cases hbehind : a ≤ n
      · rw [hgap a hbehind (by omega)]
        exact Or.inr (by omega)
      · rcases h.known a ha htop with ⟨m, hm, rfl⟩ | ⟨hpos, hbound, htop'⟩
        · -- a message held beyond `n` stays
          refine Or.inl ⟨m, List.mem_filter.mpr ⟨hm, ?_⟩, rfl⟩
          have hnot : ¬serialGreater (BitVec.ofNat 8 n + 1) m.sequence = true := by
            rw [serialGreater_iff, Message.sequence]
            bv_omega
          simpa using hnot
        · -- the window was already beyond `n`
          have hnot : ¬serialGreater seed.minSequence (BitVec.ofNat 8 n) = true := by
            simp [hpassed]
          rw [serialGreater_iff] at hnot
          have hbase := gap_base seed a
          rw [hbase] at hnot hne
          exfalso
          bv_omega
  · intro a ha
    rcases List.mem_cons.mp ha with rfl | ha
    · exact hle
    · exact h.heard a ha

end Seed.Remembers

/-! ## The entry of a seed from state to state -/

/-- The entry in `t`, if there is one, is a later state of that in `s`. -/
def State.Follows (key : Nat) (id : SeedId) (s t : State) : Prop :=
  ∀ seed', t.seed key id = some seed' → ∃ seed, s.seed key id = some seed ∧ seed.Ages seed'

namespace State.Follows

variable {key : Nat} {id : SeedId} {s t u : State}

theorem refl (s : State) : State.Follows key id s s := fun seed h => ⟨seed, h, .refl seed⟩

theorem trans (h : State.Follows key id s t) (h' : State.Follows key id t u) :
    State.Follows key id s u := by
  intro seed'' hu
  obtain ⟨seed', ht, hages'⟩ := h' seed'' hu
  obtain ⟨seed, hs, hages⟩ := h seed' ht
  exact ⟨seed, hs, hages.trans hages'⟩

theorem of_kept (h : t.kept = s.kept) : State.Follows key id s t := by
  intro seed' hseed'
  obtain ⟨seed, hseed, heq⟩ := State.seed_of_kept h hseed'
  exact ⟨seed, hseed, .kept (.refl seed) heq⟩

theorem of_seed (h : t.seed key id = s.seed key id) : State.Follows key id s t :=
  fun seed' hseed' => ⟨seed', h ▸ hseed', .refl seed'⟩

/-- Something done to another entry. -/
theorem updateSeed_ne {f : Seed → Seed} {key' : Nat} {id' : SeedId} (hid : ∀ x, (f x).id = x.id)
    (h : (key, id) ≠ (key', id')) : State.Follows key id s (s.updateSeed key' id' f) :=
  of_seed (State.seed_updateSeed_ne hid h)

end State.Follows

/-- Room is made by dropping first messages. -/
theorem State.Tidy.freeSpace_ages {s : State} (ht : s.Tidy) (c : Candidate) {key : Nat}
    {id : SeedId} {seed : Seed} (hseed : s.seed key id = some seed) :
    ∃ seed', (s.freeSpace c).seed key id = some seed' ∧ seed.Ages seed' := by
  change ∃ seed', (s.updateSeed c.key c.id Seed.dropFirst).seed key id = some seed' ∧ _
  by_cases hsame : (key, id) = (c.key, c.id)
  · cases hsame
    rw [State.seed_updateSeed_self Seed.dropFirst_id, hseed]
    exact ⟨_, rfl, .drop (.refl seed) (ht.windowed_of_seed hseed)⟩
  · rw [State.seed_updateSeed_ne Seed.dropFirst_id hsame]
    exact ⟨seed, hseed, .refl seed⟩

theorem State.Tidy.makeRoom_ages {len fuel : Nat} {s t : State} (ht : s.Tidy)
    (h : s.makeRoom len fuel = some t) {key : Nat} {id : SeedId} {seed : Seed}
    (hseed : s.seed key id = some seed) : ∃ seed', t.seed key id = some seed' ∧ seed.Ages seed' := by
  induction fuel generalizing s seed with
  | zero =>
      unfold State.makeRoom at h
      split at h <;> cases h
      exact ⟨seed, hseed, .refl seed⟩
  | succ fuel ih =>
      unfold State.makeRoom at h
      split at h
      · cases h
        exact ⟨seed, hseed, .refl seed⟩
      · split at h
        · rename_i hfuel hold
          cases hfuel
          rename_i c
          have hc := (State.mem_of_oldest hold).resolve_right fun h => nomatch h
          obtain ⟨seed', hseed', hages⟩ := ht.freeSpace_ages c hseed
          obtain ⟨seed'', hseed'', hages'⟩ := ih (ht.freeSpace hc) h hseed'
          exact ⟨seed'', hseed'', hages.trans hages'⟩
        · cases h

/-- There is no entry where there was none. -/
theorem State.Tidy.makeRoom_follows {len fuel : Nat} {s t : State} (ht : s.Tidy)
    (h : s.makeRoom len fuel = some t) (key : Nat) (id : SeedId) : State.Follows key id s t := by
  induction fuel generalizing s with
  | zero =>
      unfold State.makeRoom at h
      split at h <;> cases h
      exact .refl _
  | succ fuel ih =>
      unfold State.makeRoom at h
      split at h
      · cases h
        exact .refl _
      · split at h
        · rename_i hfuel hold
          cases hfuel
          rename_i c
          have hc := (State.mem_of_oldest hold).resolve_right fun h => nomatch h
          refine .trans ?_ (ih (ht.freeSpace hc) h)
          intro seed' hseed'
          change (s.updateSeed c.key c.id Seed.dropFirst).seed key id = some seed' at hseed'
          by_cases hsame : (key, id) = (c.key, c.id)
          · cases hsame
            rw [State.seed_updateSeed_self Seed.dropFirst_id] at hseed'
            obtain ⟨seed, hseed, rfl⟩ := Option.map_eq_some_iff.mp hseed'
            exact ⟨seed, hseed, .drop (.refl seed) (ht.windowed_of_seed hseed)⟩
          · rw [State.seed_updateSeed_ne Seed.dropFirst_id hsame] at hseed'
            exact ⟨seed', hseed', .refl seed'⟩
        · cases h

/-- Messages age out from the front. -/
theorem Seed.Windowed.ageOut_ages {seed : Seed} (h : seed.Windowed) (old : Message → Bool) :
    seed.Ages { seed with
      minSequence := (Mpl.ageOut old seed.minSequence seed.messages).1
      messages := (Mpl.ageOut old seed.minSequence seed.messages).2 } := by
  obtain ⟨id, colour, lifetime, minSequence, messages⟩ := seed
  induction messages generalizing minSequence with
  | nil => exact .refl _
  | cons m rest ih =>
      unfold Mpl.ageOut
      dsimp only
      split
      · exact Seed.Ages.trans (.drop (.refl _) h) (ih _ (h.tail rfl))
      · exact .refl _

theorem Seed.Windowed.slow_ages {seed seed' : Seed} {old : Message → Bool} {seconds : Nat}
    (h : seed.Windowed) (hslow : seed.slow old seconds = some seed') : seed.Ages seed' := by
  unfold Seed.slow at hslow
  split at hslow
  · cases hslow
    exact .kept (h.ageOut_ages old) rfl
  · cases hslow

/-- A lookup in a domain whose seeds are some of those of another, changed. -/
theorem State.Tidy.map_follows {s : State} (ht : s.Tidy) {g : Domain → Domain} {total : Nat}
    (hkey : ∀ dom, (g dom).key = dom.key)
    (hseeds : ∀ dom ∈ s.domains, ∀ seed' ∈ (g dom).seeds,
      ∃ seed ∈ dom.seeds, seed.id = seed'.id ∧ seed.Ages seed') (key : Nat) (id : SeedId) :
    State.Follows key id s { s with domains := s.domains.map g, totalBuffered := total } := by
  intro seed' hseed'
  obtain ⟨dom', hdom', hlook'⟩ := State.seed_parts hseed'
  have hmem' : dom' ∈ s.domains.map g := Keyed.mem_of_lookup hdom'
  obtain ⟨dom, hdom, rfl⟩ := List.mem_map.mp hmem'
  obtain ⟨seed, hseed, hid, hages⟩ := hseeds dom hdom seed' (Keyed.mem_of_lookup hlook')
  have hdomKey : dom.key = key := (hkey dom).symm.trans (Keyed.key_of_lookup hdom')
  have hseedId : seed.id = id := hid.trans (Keyed.key_of_lookup hlook')
  refine ⟨seed, ?_, hages⟩
  rw [← hdomKey, ← hseedId]
  exact ht.seed_of_mem hdom hseed

theorem State.Tidy.slowTimer_follows {s : State} (ht : s.Tidy) (seconds key : Nat) (id : SeedId) :
    State.Follows key id s (s.slowTimer seconds) := by
  refine ht.map_follows
    (g := fun dom => { dom with seeds := dom.seeds.filterMap (Seed.slow (s.outdated dom) seconds) })
    (fun _ => rfl) (fun dom hdom seed' hseed' => ?_) key id
  obtain ⟨seed, hseed, hslow⟩ := List.mem_filterMap.mp hseed'
  have hw := ht.windowed dom hdom seed hseed
  exact ⟨seed, hseed, (hw.slow hslow).2.symm, hw.slow_ages hslow⟩

theorem State.Tidy.clearSeeds_follows {s : State} (ht : s.Tidy) (p : Domain → Bool) (key : Nat)
    (id : SeedId) : State.Follows key id s (s.clearSeeds p) := by
  refine ht.map_follows (g := fun dom => if p dom then { dom with seeds := [] } else dom)
    (fun dom => ?_) (fun dom _ seed' hseed' => ?_) key id
  · split <;> rfl
  · split at hseed'
    · cases hseed'
    · exact ⟨seed', hseed', rfl, .refl seed'⟩

theorem State.Tidy.domainDelete_follows {s : State} (ht : s.Tidy) (k key : Nat) (id : SeedId) :
    State.Follows key id s (s.domainDelete k) := by
  refine (ht.clearSeeds_follows (fun dom => dom.key == k) key id).trans ?_
  have hclear := ht.clearSeeds fun dom => dom.key == k
  unfold State.domainDelete
  generalize s.clearSeeds (fun dom => dom.key == k) = s' at hclear ⊢
  intro seed hseed
  obtain ⟨dom, hdom, hlook⟩ := State.seed_parts hseed
  have hmem : dom ∈ s'.domains := List.mem_of_mem_filter (Keyed.mem_of_lookup hdom)
  have hkey : dom.key = key := Keyed.key_of_lookup hdom
  have hid : seed.id = id := Keyed.key_of_lookup hlook
  refine ⟨seed, ?_, .refl seed⟩
  rw [← hkey, ← hid]
  exact hclear.seed_of_mem hmem (Keyed.mem_of_lookup hlook)

theorem State.domainCreate_follows {s : State} {dom : Domain} (hseeds : dom.seeds = [])
    (key : Nat) (id : SeedId) :
    State.Follows key id s { s with domains := s.domains ++ [dom] } := by
  intro seed hseed
  refine ⟨seed, ?_, .refl seed⟩
  obtain ⟨dom', hdom', hlook⟩ := State.seed_parts hseed
  have hfind : (s.domains ++ [dom]).find? (fun d => decide (d.key = key)) = some dom' := hdom'
  rw [List.find?_append] at hfind
  rcases Option.or_eq_some_iff.mp hfind with hold | ⟨_, hnew⟩
  · have hold : s.lookup key = some dom' := hold
    rw [State.seed, hold]
    exact hlook
  · have hmem := List.mem_of_find?_eq_some hnew
    rw [List.mem_singleton.mp hmem] at hlook
    have hlook := Keyed.mem_of_lookup hlook
    rw [hseeds] at hlook
    cases hlook

/-! ## A message of the seed -/

/-- Where the window of an older entry starts: where it did, or behind a message
which was held. -/
theorem Seed.Ages.moved {seed seed' : Seed} {top : Nat} {accepted : List Nat}
    (hages : seed.Ages seed') (h : seed.Remembers top accepted) :
    seed'.minSequence = seed.minSequence ∨
      ∃ f, seed'.minSequence = BitVec.ofNat 8 f + 1 ∧ f ≤ top ∧ top < f + 128 := by
  induction hages with
  | refl => exact Or.inl rfl
  | kept _ heq ih => rwa [Seed.minSequence_of_kept heq]
  | @drop b hb hw ih =>
      have hrem := h.ages hb
      cases hm : b.messages with
      | nil =>
          have hsame : b.dropFirst = b := by
            unfold Seed.dropFirst
            rw [hm]
          rwa [hsame]
      | cons f rest =>
          rw [Seed.dropFirst_eq hm]
          exact Or.inr ⟨f.number, rfl, hrem.held f (hm ▸ List.mem_cons_self)⟩

/-- The entry, its domain and the state with which a message is processed: the
entry is made if there is none. -/
def State.opened (env : Env) (s : State) (key : Nat) (buf : Data) :
    Option (State × Domain × Seed) :=
  (s.lookup key).bind fun dom =>
    match dom.seedLookup buf.id with
    | some seed => some (s, dom, seed)
    | none =>
      if env.seedMemory then
        let dom' := dom.seedCreate buf.id buf.sequence
        some (s.update key fun _ => dom', dom',
          ⟨buf.id, dom.colour, dom.seedSetEntryLifetime, buf.sequence, []⟩)
      else none

theorem State.process_eq (env : Env) (s : State) (key : Nat) (buf : Data) :
    s.process env key buf =
      if !buf.seeding && buf.multicastLoop then some (true, s)
      else match s.opened env key buf with
        | none => some (false, s)
        | some (s', dom, seed) => s'.processKnown env dom seed buf := by
  unfold State.process State.opened
  split
  · rfl
  · cases s.lookup key with
    | none => rfl
    | some dom =>
        rw [Option.bind_some]
        cases hlook : dom.seedLookup buf.id with
        | some seed =>
            dsimp only
            rw [hlook]
        | none =>
            cases hmemory : env.seedMemory with
            | false =>
                dsimp only
                rw [hlook]
                rfl
            | true =>
                dsimp only
                rw [hlook]
                dsimp only
                rw [Domain.seedLookup_seedCreate hlook]
                rfl

/-- A message accepted is remembered: nothing about it is left to a comparison of
opposite numbers, and there is memory to hold it. -/
def Recorded (s : State) : Act → Prop
  | .data env key buf =>
      Clear s (.data env key buf) ∧
        ((buf.seeding ∨ ¬buf.multicastLoop) → ∀ o, s.opened env key buf = some o →
          o.2.2.isOpen buf.sequence →
            (buf.sequence - o.2.2.minSequence).toNat ≠ 128 ∧
              (o.2.1.forwards buf → ∀ t, o.1.roomFor env o.2.1 buf = some t →
                ∀ seed', t.seed key buf.id = some seed' →
                  serialGreater seed'.minSequence buf.sequence = false → env.messageMemory))
  | _ => True

/-- An entry with one more message, and the control timer set. -/
theorem State.seed_hold (env : Env) {s : State} {key : Nat} {id : SeedId} {seed : Seed}
    (message : Message) (hseed : s.seed key id = some seed) :
    ∃ seed', ((s.updateSeed key id fun seed =>
        { seed with messages := insertMessage message seed.messages }).update key
          (Domain.controlResetOrStart env)).seed key id = some seed' ∧
      seed'.kept = Seed.kept { seed with messages := insertMessage message seed.messages } := by
  have hreset : ((s.updateSeed key id fun seed =>
      { seed with messages := insertMessage message seed.messages }).update key
        (Domain.controlResetOrStart env)).kept = _ := State.kept_update fun _ => rfl
  have hupdated : (s.updateSeed key id fun seed =>
      { seed with messages := insertMessage message seed.messages }).seed key id =
        some { seed with messages := insertMessage message seed.messages } := by
    rw [State.seed_updateSeed_self (f := fun seed =>
      { seed with messages := insertMessage message seed.messages }) fun _ => rfl, hseed]
    rfl
  obtain ⟨seed', hseed', heq⟩ := State.seed_of_kept hreset.symm hupdated
  exact ⟨seed', hseed', heq.symm⟩

instance Recorded.decidable : ∀ (s : State) (a : Act), Decidable (Recorded s a)
  | s, .data env key buf => inferInstanceAs (Decidable (Clear s (.data env key buf) ∧
      ((buf.seeding ∨ ¬buf.multicastLoop) → ∀ o, s.opened env key buf = some o →
        o.2.2.isOpen buf.sequence →
          (buf.sequence - o.2.2.minSequence).toNat ≠ 128 ∧
            (o.2.1.forwards buf → ∀ t, o.1.roomFor env o.2.1 buf = some t →
              ∀ seed', t.seed key buf.id = some seed' →
                serialGreater seed'.minSequence buf.sequence = false → env.messageMemory))))
  | _, .domainCreate .. | _, .domainDelete .. | _, .changeTiming .. | _, .clearRealmScope
  | _, .control .. | _, .slowTimer .. | _, .fastTimer .. | _, .tick => isTrue trivial

theorem Recorded.clear {s : State} {a : Act} (h : Recorded s a) : Clear s a := by
  cases a with
  | data env key buf => exact h.1
  | _ => trivial

/-- **A message of the seed**: accepted, it was not accepted before, and it is
remembered. -/
theorem State.Tidy.processKnown_remembers {env : Env} {s t : State} (ht : s.Tidy) (dom : Domain)
    {seed : Seed} {buf : Data} {r : Bool} {top : Nat} {accepted : List Nat}
    (hdom : s.lookup dom.key = some dom) (hseed : dom.seedLookup buf.id = some seed)
    (hrem : seed.Remembers top accepted) (hle : buf.number ≤ top) (hlt : top < buf.number + 128)
    (hrecorded : seed.isOpen buf.sequence →
      (buf.sequence - seed.minSequence).toNat ≠ 128 ∧
        (dom.forwards buf → ∀ t, s.roomFor env dom buf = some t →
          ∀ seed', t.seed dom.key buf.id = some seed' →
            serialGreater seed'.minSequence buf.sequence = false → env.messageMemory))
    (h : s.processKnown env dom seed buf = some (r, t)) :
    ∃ seed', t.seed dom.key buf.id = some seed' ∧
      seed'.Remembers top (if r then buf.number :: accepted else accepted) ∧
      (r = true → buf.number ∉ accepted) := by
  have hhear := State.kept_hearFlag env s dom buf
  have hkept := State.kept_refresh_hearFlag env s dom buf
  have hfound : s.seed dom.key buf.id = some seed := by
    rw [State.seed, hdom, Option.bind_some, hseed]
  have hrefused : ∀ u : State, u.kept = s.kept →
      ∃ seed', u.seed dom.key buf.id = some seed' ∧
        seed'.Remembers top (if false then buf.number :: accepted else accepted) ∧
        (false = true → buf.number ∉ accepted) := by
    intro u hu
    obtain ⟨seed', hseed', heq⟩ := State.seed_of_kept hu.symm hfound
    exact ⟨seed', hseed', hrem.of_kept heq.symm, fun h => absurd h Bool.false_ne_true⟩
  unfold State.processKnown at h
  split at h
  · cases h
    exact hrefused _ hhear
  · split at h
    · cases h
      exact hrefused _ ((State.kept_updateSeed fun _ => Seed.kept_hearAgain _ _).trans hhear)
    · rename_i hpassed hheld
      have hopen : seed.isOpen buf.sequence = true := by
        simp only [Bool.not_eq_true, Option.isSome_eq_false_iff] at hpassed hheld
        simp [Seed.isOpen, hpassed, hheld]
      obtain ⟨hne, hmemory⟩ := hrecorded hopen
      have hfresh : buf.number ∉ accepted := hrem.fresh hlt hopen hne
      obtain ⟨seed₀, hseed₀, heq₀⟩ := State.seed_of_kept hkept.symm hfound
      have hrem₀ : seed₀.Remembers top accepted := hrem.of_kept heq₀.symm
      have hmin₀ : seed₀.minSequence = seed.minSequence := (Seed.minSequence_of_kept heq₀).symm
      split at h
      · -- not forwarded: the window moves behind it
        cases h
        refine ⟨seed₀.advance (buf.sequence + 1), ?_, ?_, fun _ => hfresh⟩
        · change (State.updateSeed _ dom.key buf.id fun seed =>
            seed.advance (buf.sequence + 1)).seed dom.key buf.id = _
          rw [State.seed_updateSeed_self (f := fun seed => seed.advance (buf.sequence + 1))
            fun _ => rfl, hseed₀]
          rfl
        · refine hrem₀.advance hle hlt ?_ (hmin₀ ▸ hne)
          rw [Seed.isOpen_iff, hmin₀, ← Seed.sequences_of_kept heq₀, ← Seed.isOpen_iff]
          exact hopen
      · rename_i hforward
        obtain ⟨room, hroom, heq⟩ := Option.map_eq_some_iff.mp h
        cases heq
        obtain ⟨seed₁, hseed₁, hages⟩ := (ht.of_kept hkept).makeRoom_ages hroom hseed₀
        have hrem₁ := hrem₀.ages hages
        obtain ⟨dom₁, hdom₁, _⟩ := State.seed_parts hseed₁
        unfold State.bufferCreate
        rw [hdom₁, hseed₁]
        dsimp only
        split
        · -- what was dropped has taken the window past it
          rename_i hgreater
          refine ⟨seed₁, hseed₁, ?_, fun _ => hfresh⟩
          rw [if_pos rfl]
          rcases hages.moved hrem₀ with hsame | ⟨f, hf, hftop, htopf⟩
          · rw [hsame, hmin₀] at hgreater
            exact absurd hgreater hpassed
          · have hle' : buf.number ≤ f := by
              rw [hf, serialGreater_iff, Data.sequence] at hgreater
              by_contra hbefore
              bv_omega
            have hgap := gap_behind seed₁ hf hle' (by omega)
            exact hrem₁.pass hle (by omega) (by omega) (by omega)
        · rename_i hnot
          have hgranted := hmemory (by simpa using hforward) room hroom seed₁ hseed₁
            (by simpa using hnot)
          rw [if_neg (by simp [hgranted])]
          obtain ⟨seed₂, hseed₂, heq₂⟩ := State.seed_hold env
            (dom₁.newMessage env seed₁ room.ticks buf) hseed₁
          refine ⟨seed₂, hseed₂, ?_, fun _ => hfresh⟩
          rw [if_pos rfl]
          exact (hrem₁.insert (dom₁.newMessage env seed₁ room.ticks buf) hle hlt).of_kept
            heq₂

/-! ## The other seeds -/

/-- A domain changed in other respects. -/
theorem State.seed_update_seeds {g : Domain → Domain} {k : Nat} (hkey : ∀ x, (g x).key = x.key)
    (hseeds : ∀ x, (g x).seeds = x.seeds) (s : State) (key : Nat) (id : SeedId) :
    (s.update k g).seed key id = s.seed key id := by
  unfold State.seed
  by_cases h : key = k
  · subst h
    rw [State.lookup_update_self fun x hx => (hkey x).trans hx]
    cases s.lookup key with
    | none => rfl
    | some dom =>
        rw [Option.map_some, Option.bind_some, Option.bind_some, Domain.seedLookup, hseeds]
        rfl
  · rw [State.lookup_update_ne (fun x hx => (hkey x).trans hx) h]

theorem State.bufferCreate_follows {env : Env} {s : State} {key key' : Nat} {id : SeedId}
    {buf : Data} (hne : (key, id) ≠ (key', buf.id)) :
    State.Follows key id s (s.bufferCreate env key' buf) := by
  unfold State.bufferCreate
  split
  · split
    · exact .refl s
    · split
      · exact .refl s
      · refine .of_seed ?_
        have hreset := State.seed_update_seeds (g := Domain.controlResetOrStart env) (k := key')
          (fun _ => rfl) (fun _ => rfl)
        exact (hreset _ key id).trans (State.seed_updateSeed_ne (fun _ => rfl) hne)
  · exact .refl s

theorem State.Tidy.processKnown_follows {env : Env} {s t : State} (ht : s.Tidy) {dom : Domain}
    {seed : Seed} {buf : Data} {r : Bool} {key : Nat} {id : SeedId}
    (hne : (key, id) ≠ (dom.key, buf.id))
    (h : s.processKnown env dom seed buf = some (r, t)) : State.Follows key id s t := by
  have hhear := State.kept_hearFlag env s dom buf
  have hkept := State.kept_refresh_hearFlag env s dom buf
  unfold State.processKnown at h
  split at h
  · cases h
    exact .of_kept hhear
  · split at h
    · cases h
      exact .of_kept ((State.kept_updateSeed fun _ => Seed.kept_hearAgain _ _).trans hhear)
    · split at h
      · cases h
        refine State.Follows.trans (State.Follows.of_kept hkept) ?_
        refine State.Follows.trans (State.Follows.updateSeed_ne
          (f := fun seed => seed.advance (buf.sequence + 1)) (fun _ => rfl) hne) ?_
        exact .of_seed rfl
      · obtain ⟨room, hroom, heq⟩ := Option.map_eq_some_iff.mp h
        cases heq
        exact (State.Follows.of_kept hkept).trans
          (((ht.of_kept hkept).makeRoom_follows hroom key id).trans
            (State.bufferCreate_follows hne))

/-- What is known of the entry with which a message is processed. -/
theorem State.opened_cases {env : Env} {s s' : State} {key : Nat} {buf : Data} {dom : Domain}
    {seed : Seed} (h : s.opened env key buf = some (s', dom, seed)) :
    dom.key = key ∧ s'.lookup key = some dom ∧ dom.seedLookup buf.id = some seed ∧
      (s' = s ∧ s.seed key buf.id = some seed ∨
        s.seed key buf.id = none ∧ seed.messages = [] ∧
          ∃ old, s.lookup key = some old ∧ old.seedLookup buf.id = none ∧
            s' = s.update key fun _ => old.seedCreate buf.id buf.sequence) := by
  obtain ⟨old, hold, h⟩ := Option.bind_eq_some_iff.mp h
  have hkey : old.key = key := Keyed.key_of_lookup hold
  split at h
  · rename_i found hfound
    cases h
    refine ⟨hkey, hold, hfound, Or.inl ⟨rfl, ?_⟩⟩
    rw [State.seed, hold, Option.bind_some, hfound]
  · rename_i hnone
    split at h
    · cases h
      refine ⟨hkey, State.lookup_replace (old.seedCreate buf.id buf.sequence) hkey hold,
        Domain.seedLookup_seedCreate hnone, Or.inr ⟨?_, rfl, old, hold, hnone, rfl⟩⟩
      rw [State.seed, hold, Option.bind_some, hnone]
    · cases h

theorem State.Tidy.opened {env : Env} {s s' : State} (ht : s.Tidy) {key : Nat} {buf : Data}
    {dom : Domain} {seed : Seed} (h : s.opened env key buf = some (s', dom, seed)) :
    s'.Tidy := by
  obtain ⟨_, _, _, ⟨rfl, _⟩ | ⟨_, _, old, hold, hnone, rfl⟩⟩ := State.opened_cases h
  · exact ht
  · have hkey : old.key = key := Keyed.key_of_lookup hold
    subst hkey
    exact ht.seedCreate hold hnone buf.id_length

/-- An entry made is no other entry. -/
theorem State.opened_follows {env : Env} {s s' : State} {key key' : Nat} {id : SeedId}
    {buf : Data} {dom : Domain} {seed : Seed} (hne : (key, id) ≠ (key', buf.id))
    (h : s.opened env key' buf = some (s', dom, seed)) : State.Follows key id s s' := by
  obtain ⟨hkey, hdom, _, ⟨rfl, _⟩ | ⟨_, _, old, hold, hnone, rfl⟩⟩ := State.opened_cases h
  · exact .refl _
  · have hkey : old.key = key' := Keyed.key_of_lookup hold
    refine .of_seed ?_
    unfold State.seed
    by_cases hsame : key = key'
    · subst hsame
      have hid : id ≠ buf.id := fun heq => hne (by rw [heq])
      rw [State.lookup_replace (old.seedCreate buf.id buf.sequence) hkey hold, hold,
        Option.bind_some, Option.bind_some, Domain.seedLookup, Domain.seedLookup, Keyed.lookup,
        Keyed.lookup, Domain.seedCreate, List.find?_append]
      simp [Ne.symm hid]
    · rw [State.lookup_update_ne (g := fun _ => old.seedCreate buf.id buf.sequence)
        (fun _ _ => hkey) hsame]

/-! ## Watching one seed -/

/-- The numbers of the messages of a seed processed since its entry was made, and
those of them accepted, the latest first. -/
structure Log where
  heard : List Nat
  accepted : List Nat
  deriving DecidableEq, Repr

def Log.empty : Log := ⟨[], []⟩

/-- A copy of a message of the seed.  What the node loops back to itself is none: its
option has no sequence number yet, and is ignored. -/
def Data.copyOf (buf : Data) (id : SeedId) : Prop :=
  buf.id = id ∧ (buf.seeding = true ∨ ¬buf.multicastLoop = true)

instance (buf : Data) (id : SeedId) : Decidable (buf.copyOf id) :=
  inferInstanceAs (Decidable (_ ∧ _))

/-- What an act adds to the log. -/
def Log.after (s : State) (key : Nat) (id : SeedId) (log : Log) : Act → Log
  | .data env key' buf =>
      if key' = key ∧ buf.copyOf id then
        { heard := buf.number :: log.heard
          accepted :=
            if (s.process env key' buf).any Prod.fst then buf.number :: log.accepted
            else log.accepted }
      else log
  | _ => log

/-- The forwarder with the log of one seed, which ends with the entry. -/
def watch (bits : Bits) (key : Nat) (id : SeedId) : State × Log → Act → Option (State × Log)
  | (s, log), a => (step bits s a).map fun t =>
      (t, if (t.seed key id).isSome then log.after s key id a else .empty)

/-- The numbers of the seed in the network, those which come and those still held
to be sent again, span less than 128. -/
def Spans (key : Nat) (id : SeedId) : State × Log → Act → Prop
  | (s, log), .data _ key' buf =>
      key' = key ∧ buf.copyOf id →
        (∀ n ∈ log.heard, n < buf.number + 128) ∧
          ∀ seed, s.seed key id = some seed → ∀ m ∈ seed.messages, buf.number < m.number + 128
  | _, _ => True

instance Spans.decidable (key : Nat) (id : SeedId) :
    ∀ (p : State × Log) (a : Act), Decidable (Spans key id p a)
  | (s, log), .data _ key' buf => inferInstanceAs (Decidable (key' = key ∧ buf.copyOf id →
      (∀ n ∈ log.heard, n < buf.number + 128) ∧
        ∀ seed, s.seed key id = some seed → ∀ m ∈ seed.messages, buf.number < m.number + 128))
  | _, .domainCreate .. | _, .domainDelete .. | _, .changeTiming .. | _, .clearRealmScope
  | _, .control .. | _, .slowTimer .. | _, .fastTimer .. | _, .tick => isTrue trivial

/-- The greatest number heard. -/
def Log.top (log : Log) : Nat := log.heard.foldr max 0

theorem Log.top_lt {log : Log} {n : Nat} (hn : 0 < n) (h : ∀ m ∈ log.heard, m < n) :
    log.top < n := by
  obtain ⟨heard, accepted⟩ := log
  unfold Log.top
  induction heard with
  | nil => exact hn
  | cons m rest ih =>
      have hrest := ih fun m' hm' => h m' (List.mem_cons_of_mem _ hm')
      have hm := h m List.mem_cons_self
      rw [List.foldr_cons]
      dsimp only at hrest
      omega

/-- What holds of the watched seed throughout. -/
structure Once (key : Nat) (id : SeedId) (s : State) (log : Log) : Prop where
  tidy : s.Tidy
  nodup : log.accepted.Nodup
  absent : s.seed key id = none → log = .empty
  remembers : ∀ seed, s.seed key id = some seed → seed.Remembers log.top log.accepted

/-- A step which is no copy of a message of the seed. -/
theorem Once.follows {key : Nat} {id : SeedId} {s t : State} {log : Log} (h : Once key id s log)
    (ht : t.Tidy) (hfollows : State.Follows key id s t) :
    Once key id t (if (t.seed key id).isSome then log else .empty) := by
  cases hseed : t.seed key id with
  | none => exact ⟨ht, List.nodup_nil, fun _ => rfl, fun seed h => by rw [hseed] at h; cases h⟩
  | some seed' =>
      refine ⟨ht, h.nodup, fun hnone => ?_, fun found hfound => ?_⟩
      · rw [hseed] at hnone
        cases hnone
      · obtain ⟨seed, hold, hages⟩ := hfollows found hfound
        exact (h.remembers seed hold).ages hages

/-- **A copy of a message of the seed.** -/
theorem Once.copy {env : Env} {key : Nat} {s t : State} {log : Log} {buf : Data} {r : Bool}
    (h : Once key buf.id s log) (ht : t.Tidy) (hcopy : buf.copyOf buf.id)
    (hspan : Spans key buf.id (s, log) (.data env key buf))
    (hrecorded : Recorded s (.data env key buf)) (hprocess : s.process env key buf = some (r, t)) :
    Once key buf.id t (if (t.seed key buf.id).isSome then
      ⟨buf.number :: log.heard, if r then buf.number :: log.accepted else log.accepted⟩
      else .empty) := by
  obtain ⟨hheard, hheld⟩ := hspan ⟨rfl, hcopy⟩
  have hloop : ¬(!buf.seeding && buf.multicastLoop) = true := by
    rcases hcopy.2 with hseeding | hloop
    · simp [hseeding]
    · simp [hloop]
  rw [State.process_eq, if_neg hloop] at hprocess
  split at hprocess
  · -- no entry: nothing is remembered
    rename_i hopened
    cases hprocess
    have hnone : s.seed key buf.id = none := by
      cases hseed : s.seed key buf.id with
      | none => rfl
      | some seed =>
          obtain ⟨dom, hdom, hlook⟩ := State.seed_parts hseed
          rw [State.opened, hdom, Option.bind_some, hlook] at hopened
          cases hopened
    rw [hnone]
    exact ⟨ht, List.nodup_nil, fun _ => rfl, fun seed h => by rw [hnone] at h; cases h⟩
  · rename_i s' dom seed hopened
    obtain ⟨hkey, hdom, hlook, hcases⟩ := State.opened_cases hopened
    have hrem : seed.Remembers (max log.top buf.number) log.accepted := by
      rcases hcases with ⟨_, hseed⟩ | ⟨hnone, hempty, _⟩
      · exact (h.remembers seed hseed).hear (hheld seed hseed)
      · rw [h.absent hnone]
        refine ⟨fun m hm => ?_, fun a ha => (nomatch ha), fun a ha => (nomatch ha)⟩
        rw [hempty] at hm
        cases hm
    have htop : log.top < buf.number + 128 := Log.top_lt (by omega) hheard
    subst hkey
    obtain ⟨seed', hseed', hrem', hfresh⟩ := (h.tidy.opened hopened).processKnown_remembers dom
      hdom hlook hrem (le_max_right _ _) (by omega)
      (fun hopen => hrecorded.2 hcopy.2 _ hopened hopen) hprocess
    rw [hseed', Option.isSome_some, if_pos rfl]
    refine ⟨ht, ?_, fun hnone => ?_, fun found hfound => ?_⟩
    · cases r with
      | false => exact h.nodup
      | true => exact List.nodup_cons.mpr ⟨hfresh rfl, h.nodup⟩
    · rw [hseed'] at hnone
      cases hnone
    · rw [hseed'] at hfound
      cases hfound
      have hmax : Log.top ⟨buf.number :: log.heard,
          if r then buf.number :: log.accepted else log.accepted⟩ = max log.top buf.number :=
        max_comm _ _
      rw [hmax]
      exact hrem'

/-- What a message does to another seed. -/
theorem State.Tidy.process_follows {env : Env} {s t : State} (ht : s.Tidy) {key key' : Nat}
    {id : SeedId} {buf : Data} {r : Bool} (hne : ¬(key' = key ∧ buf.copyOf id))
    (h : s.process env key' buf = some (r, t)) : State.Follows key id s t := by
  rw [State.process_eq] at h
  split at h
  · cases h
    exact .refl _
  · rename_i hloop
    have hother : (key, id) ≠ (key', buf.id) := by
      intro heq
      cases heq
      refine hne ⟨rfl, rfl, ?_⟩
      cases hseeding : buf.seeding with
      | true => exact Or.inl rfl
      | false => exact Or.inr (by simpa [hseeding] using hloop)
    split at h
    · cases h
      exact .refl _
    · rename_i s' dom seed hopened
      have hkey := (State.opened_cases hopened).1
      subst hkey
      exact (State.opened_follows hother hopened).trans
        ((ht.opened hopened).processKnown_follows hother h)

/-- **One step.** -/
theorem Once.step {bits : Bits} {key : Nat} {id : SeedId} {s t : State} {log log' : Log} {a : Act}
    (h : Once key id s log) (hspan : Spans key id (s, log) a) (hrecorded : Recorded s a)
    (hstep : watch bits key id (s, log) a = some (t, log')) : Once key id t log' := by
  obtain ⟨_, ht', heq⟩ := Option.map_eq_some_iff.mp hstep
  cases heq
  have ht : t.Tidy := h.tidy.step (Recorded.clear hrecorded) ht'
  cases a with
  | data env key' buf =>
      obtain ⟨⟨r, t'⟩, hprocess, heq⟩ := Option.map_eq_some_iff.mp ht'
      cases heq
      by_cases hcopy : key' = key ∧ buf.copyOf id
      · obtain ⟨rfl, hid, hloop⟩ := hcopy
        subst hid
        have hafter := h.copy ht ⟨rfl, hloop⟩ hspan hrecorded hprocess
        have hlog : log.after s key' buf.id (.data env key' buf) =
            ⟨buf.number :: log.heard, if r then buf.number :: log.accepted else log.accepted⟩ := by
          simp only [Log.after]
          rw [if_pos ⟨trivial, rfl, hloop⟩, hprocess]
          rfl
        rw [hlog]
        exact hafter
      · have hlog : log.after s key id (.data env key' buf) = log := if_neg hcopy
        rw [hlog]
        exact h.follows ht (h.tidy.process_follows hcopy hprocess)
  | control env key' mem p fin source =>
      refine h.follows ht ?_
      simp only [Mpl.step] at ht'
      split at ht'
      · cases ht'
        exact .refl _
      · rename_i dom hdom
        obtain ⟨heard, hheard, rfl⟩ := Option.map_eq_some_iff.mp ht'
        have hkey : dom.key = key' := Keyed.key_of_lookup hdom
        subst hkey
        exact .of_kept (State.kept_replace h.tidy hdom (kept_controlHandler hheard))
  | domainCreate env cfg =>
      refine h.follows ht ?_
      simp only [Mpl.step] at ht'
      split at ht' <;> cases ht'
      · exact .refl _
      · exact State.domainCreate_follows rfl key id
  | domainDelete k =>
      refine h.follows ht ?_
      cases ht'
      exact h.tidy.domainDelete_follows k key id
  | changeTiming k data lifetime =>
      refine h.follows ht ?_
      cases ht'
      exact .of_kept (State.kept_update fun _ => rfl)
  | clearRealmScope =>
      refine h.follows ht ?_
      cases ht'
      exact h.tidy.clearSeeds_follows _ key id
  | slowTimer seconds =>
      refine h.follows ht ?_
      cases ht'
      exact h.tidy.slowTimer_follows seconds key id
  | fastTimer env =>
      refine h.follows ht ?_
      cases ht'
      exact .of_kept (State.kept_fastTimer env s)
  | tick =>
      refine h.follows ht ?_
      cases ht'
      exact .of_seed rfl

/-- **Each message is accepted at most once** as long as the entry of its seed lasts,
in every run in which what is accepted is remembered. -/
theorem accepted_once (bits : Bits) (key : Nat) (id : SeedId) (acts : List Act) (t : State)
    (log : Log) (hspan : Runs.Meets (watch bits key id) (Spans key id) (State.init, .empty) acts)
    (hrecorded : Runs.Meets (watch bits key id) (fun p => Recorded p.1) (State.init, .empty) acts)
    (hrun : Runs.run (watch bits key id) (State.init, .empty) acts = some (t, log)) :
    log.accepted.Nodup := by
  have hinit : Once key id State.init .empty :=
    ⟨.init, List.nodup_nil, fun _ => rfl, fun _ h => nomatch h⟩
  exact (Runs.run_invariant (fun p : State × Log => Once key id p.1 p.2)
    (fun _ _ _ h hok hstep => h.step hok.1 hok.2 hstep) hinit (hspan.and hrecorded) hrun).nodup

/-- Without memory for it a message is accepted each time it comes. -/
theorem accepted_twice :
    ∃ t log,
      Runs.Meets (watch Bits.plain 0 [0xfe, 0x01]) (Spans 0 [0xfe, 0x01]) (State.init, .empty)
        [.domainCreate plainEnv plainConfig, .data poorEnv 0 (plainData 0),
          .data plainEnv 0 (plainData 0)] ∧
      Runs.run (watch Bits.plain 0 [0xfe, 0x01]) (State.init, .empty)
        [.domainCreate plainEnv plainConfig, .data poorEnv 0 (plainData 0),
          .data plainEnv 0 (plainData 0)] = some (t, log) ∧
      ¬log.accepted.Nodup :=
  ⟨_, _, by decide, rfl, by decide⟩

/-- Copies out of order, with memory for what comes first. -/
theorem accepted_once_some :
    ∃ t log,
      Runs.run (watch Bits.plain 0 [0xfe, 0x01]) (State.init, .empty) (plainRun [3, 5, 3, 4, 5]) =
        some (t, log) ∧ log.accepted.Nodup :=
  ⟨_, _, rfl, accepted_once Bits.plain 0 [0xfe, 0x01] (plainRun [3, 5, 3, 4, 5]) _ _ (by decide)
    (by decide) rfl⟩

end Mpl
