import WisunModem.MplMachine
import Mathlib.Algebra.Order.BigOperators.Group.List
import Mathlib.Algebra.Order.Group.Nat
import Mathlib.Data.List.Perm.Basic

/-!
# The window of a seed

The messages held for a seed lie in the half-open window of 128 sequence numbers
from `min_sequence` on, in serial order, and `mpl_total_buffered` is the room they
take.  Then the bitmap of a control message, whose length is taken from the last
message alone, has a place for each of them.

All of this rests on comparisons of sequence numbers, and the comparison says
nothing about two numbers which are 128 apart.  `Clear` is the condition that no
such pair decides whether a message is held.
-/

namespace Mpl

/-! ## Serial arithmetic -/

theorem serialGreater_iff {a b : Seq} :
    serialGreater a b = true ↔ 0 < (a - b).toNat ∧ (a - b).toNat < 128 := by
  simp [serialGreater]

/-- Within a window of 128 numbers the serial order is that of the offsets. -/
theorem serialGreater_iff_offset {a b base : Seq} (ha : (a - base).toNat < 128)
    (hb : (b - base).toNat < 128) :
    serialGreater a b = true ↔ (b - base).toNat < (a - base).toNat := by
  rw [serialGreater_iff]
  bv_omega

/-- What is greater than `m` lies in the window behind `m`. -/
theorem offset_behind {a m : Seq} (h : serialGreater a m = true) :
    (a - (m + 1)).toNat < 128 := by
  rw [serialGreater_iff] at h
  bv_omega

/-- What `base` has not passed lies in its window, unless it is opposite. -/
theorem offset_of_not_passed {a base : Seq} (h : serialGreater base a = false)
    (hne : (a - base).toNat ≠ 128) : (a - base).toNat < 128 := by
  have h' : ¬serialGreater base a = true := by simp [h]
  rw [serialGreater_iff] at h'
  bv_omega

theorem serialGreater_irrefl (a : Seq) : serialGreater a a = false := by
  have h : ¬serialGreater a a = true := by
    rw [serialGreater_iff]
    bv_omega
  simpa using h

/-! ## One seed -/

/-- The sequence numbers held, in the order of the list. -/
def Seed.sequences (seed : Seed) : List Seq := seed.messages.map Message.sequence

/-- The messages are in the window of the seed, in strictly increasing serial
order. -/
structure Seed.Windowed (seed : Seed) : Prop where
  within : ∀ q ∈ seed.sequences, (q - seed.minSequence).toNat < 128
  increasing : seed.sequences.Pairwise fun a b => serialGreater b a = true

namespace Seed.Windowed

variable {seed : Seed}

theorem nodup (h : seed.Windowed) : seed.sequences.Nodup := by
  refine h.increasing.imp ?_
  rintro a b hab rfl
  rw [serialGreater_irrefl] at hab
  cases hab

theorem offset_lt (h : seed.Windowed) {m : Message} (hm : m ∈ seed.messages) :
    seed.offset m < 128 :=
  h.within _ (List.mem_map_of_mem hm)

/-- The last message is the furthest. -/
theorem offset_le_last (h : seed.Windowed) {m last : Message} (hm : m ∈ seed.messages)
    (hlast : seed.messages.getLast? = some last) : seed.offset m ≤ seed.offset last := by
  obtain ⟨init, hinit⟩ : ∃ init, seed.messages = init ++ [last] :=
    ⟨_, (List.dropLast_append_getLast? _ hlast).symm⟩
  have hlt : seed.offset last < 128 := h.offset_lt (by simp [hinit])
  rw [hinit] at hm
  rcases List.mem_append.mp hm with hm | hm
  · have hpair := h.increasing
    rw [Seed.sequences, hinit, List.map_append, List.pairwise_append] at hpair
    have hgreater := hpair.2.2 _ (List.mem_map_of_mem hm) last.sequence (by simp)
    have hm' : seed.offset m < 128 := h.offset_lt (by simp [hinit, hm])
    exact ((serialGreater_iff_offset hlt hm').mp hgreater).le
  · rw [List.mem_singleton.mp hm]

/-- Every message has a bit in the bitmap. -/
theorem offset_bit (h : seed.Windowed) {m : Message} (hm : m ∈ seed.messages) :
    seed.offset m / 8 < seed.bmLen := by
  cases hlast : seed.messages.getLast? with
  | none =>
      rw [List.getLast?_eq_none_iff.mp hlast] at hm
      cases hm
  | some last =>
      have hle := h.offset_le_last hm hlast
      rw [Seed.bmLen, hlast]
      dsimp only
      omega

/-- A bitmap is at most 16 bytes long. -/
theorem bmLen_le (h : seed.Windowed) : seed.bmLen ≤ 16 := by
  cases hlast : seed.messages.getLast? with
  | none => simp [Seed.bmLen, hlast]
  | some last =>
      have hlt := h.offset_lt (List.mem_of_getLast? hlast)
      rw [Seed.bmLen, hlast]
      dsimp only
      omega

/-- The front of the list goes, and the window starts behind it. -/
theorem tail {m : Message} {rest : List Message} (h : seed.Windowed)
    (hm : seed.messages = m :: rest) :
    Seed.Windowed { seed with minSequence := m.sequence + 1, messages := rest } := by
  have hpair := h.increasing
  rw [Seed.sequences, hm, List.map_cons, List.pairwise_cons] at hpair
  exact ⟨fun q hq => offset_behind (hpair.1 q hq), hpair.2⟩

theorem dropFirst (h : seed.Windowed) : seed.dropFirst.Windowed := by
  unfold Seed.dropFirst
  split
  · exact h
  · rename_i m rest hm
    exact h.tail hm

theorem ageOut (old : Message → Bool) (h : seed.Windowed) :
    Seed.Windowed { seed with
      minSequence := (ageOut old seed.minSequence seed.messages).1
      messages := (ageOut old seed.minSequence seed.messages).2 } := by
  obtain ⟨id, colour, lifetime, minSequence, messages⟩ := seed
  induction messages generalizing minSequence with
  | nil => exact h
  | cons m rest ih =>
      unfold Mpl.ageOut
      dsimp only
      split
      · exact ih _ (h.tail rfl)
      · exact h

/-- A later `min_sequence` which is opposite to no message held. -/
theorem advance {q : Seq} (h : seed.Windowed)
    (hne : ∀ m ∈ seed.messages, (q - m.sequence).toNat ≠ 128) : (seed.advance q).Windowed := by
  constructor
  · intro a ha
    obtain ⟨m, hm, rfl⟩ := List.mem_map.mp ha
    obtain ⟨hmem, hpassed⟩ := List.mem_filter.mp hm
    refine offset_of_not_passed (by simpa [Seed.advance] using hpassed) ?_
    have := hne m hmem
    change (m.sequence - q).toNat ≠ 128
    bv_omega
  · exact h.increasing.sublist ((List.filter_sublist).map _)

end Seed.Windowed

/-- The new message goes among the others. -/
theorem insertMessage_perm (message : Message) (l : List Message) :
    (insertMessage message l).Perm (message :: l) := by
  induction l with
  | nil => exact List.Perm.refl _
  | cons m rest ih =>
      unfold insertMessage
      split
      · exact (ih.cons m).trans (List.Perm.swap message m rest)
      · exact List.Perm.refl _

/-- Into a list in serial order within the window, a new number of the window is
inserted in order. -/
theorem insertMessage_increasing {base : Seq} {message : Message} {l : List Message}
    (hwithin : ∀ q ∈ l.map Message.sequence, (q - base).toNat < 128)
    (hincreasing : (l.map Message.sequence).Pairwise fun a b => serialGreater b a = true)
    (hnew : (message.sequence - base).toNat < 128)
    (hfresh : message.sequence ∉ l.map Message.sequence) :
    ((insertMessage message l).map Message.sequence).Pairwise
      fun a b => serialGreater b a = true := by
  induction l with
  | nil => simp [insertMessage]
  | cons m rest ih =>
      simp only [List.map_cons, List.mem_cons, forall_eq_or_imp, not_or, List.pairwise_cons] at *
      have hrest := ih hwithin.2 hincreasing.2 hfresh.2
      unfold insertMessage
      split
      · rename_i hbehind
        -- the new number is greater than `m`, at once or over a later message
        have hgreater : serialGreater message.sequence m.sequence = true := by
          rcases Bool.or_eq_true _ _ |>.mp hbehind with hany | h
          · obtain ⟨m', hm', h'⟩ := List.any_eq_true.mp hany
            have hseq := List.mem_map_of_mem (f := Message.sequence) hm'
            have hlater := hincreasing.1 _ hseq
            rw [serialGreater_iff_offset (hwithin.2 _ hseq) hwithin.1] at hlater
            rw [serialGreater_iff_offset hnew (hwithin.2 _ hseq)] at h'
            rw [serialGreater_iff_offset hnew hwithin.1]
            omega
          · exact h
        rw [List.map_cons, List.pairwise_cons]
        refine ⟨fun q hq => ?_, hrest⟩
        have hperm := (insertMessage_perm message rest).map Message.sequence
        rcases List.mem_cons.mp (hperm.mem_iff.mp hq) with rfl | hq
        · exact hgreater
        · exact hincreasing.1 q hq
      · rename_i hbefore
        simp only [Bool.or_eq_true, List.any_eq_true, not_or, not_exists, not_and,
          Bool.not_eq_true] at hbefore
        have hle : ∀ q ∈ m.sequence :: rest.map Message.sequence,
            serialGreater q message.sequence = true := by
          intro q hq
          have hq' : (q - base).toNat < 128 := by
            rcases List.mem_cons.mp hq with rfl | hq
            · exact hwithin.1
            · exact hwithin.2 q hq
          have hnot : serialGreater message.sequence q = false := by
            rcases List.mem_cons.mp hq with rfl | hq
            · exact hbefore.2
            · obtain ⟨m', hm', rfl⟩ := List.mem_map.mp hq
              exact hbefore.1 m' hm'
          have hne : q ≠ message.sequence := by
            rcases List.mem_cons.mp hq with rfl | hq
            · exact Ne.symm hfresh.1
            · rintro rfl
              exact hfresh.2 hq
          rw [serialGreater_iff_offset hq' hnew]
          have hnot' : ¬serialGreater message.sequence q = true := by simp [hnot]
          rw [serialGreater_iff_offset hnew hq'] at hnot'
          bv_omega
        rw [List.map_cons, List.map_cons, List.pairwise_cons, List.pairwise_cons]
        exact ⟨hle, hincreasing.1, hincreasing.2⟩

/-- An open number of the window can be held. -/
theorem Seed.Windowed.insert {seed : Seed} {message : Message} (h : seed.Windowed)
    (hopen : serialGreater seed.minSequence message.sequence = false)
    (hne : (message.sequence - seed.minSequence).toNat ≠ 128)
    (hfresh : message.sequence ∉ seed.sequences) :
    Seed.Windowed { seed with messages := insertMessage message seed.messages } := by
  have hnew := offset_of_not_passed hopen hne
  constructor
  · intro q hq
    have hperm := (insertMessage_perm message seed.messages).map Message.sequence
    rcases List.mem_cons.mp (hperm.mem_iff.mp hq) with rfl | hq
    · exact hnew
    · exact h.within q hq
  · exact insertMessage_increasing h.within h.increasing hnew hfresh

/-! ## What the invariants are about -/

/-- Of a message, what stays as long as it is held. -/
def Message.kept (m : Message) : Nat × Nat := (m.number, m.size)

/-- Of a seed, what says which messages it holds and expects. -/
def Seed.kept (seed : Seed) : SeedId × Seq × List (Nat × Nat) :=
  (seed.id, seed.minSequence, seed.messages.map Message.kept)

def Domain.kept (dom : Domain) : Nat × List (SeedId × Seq × List (Nat × Nat)) :=
  (dom.key, dom.seeds.map Seed.kept)

/-- Colours, lifetimes and timers aside, the state. -/
def State.kept (s : State) : List (Nat × List (SeedId × Seq × List (Nat × Nat))) × Nat :=
  (s.domains.map Domain.kept, s.totalBuffered)

namespace Seed

variable {seed seed' : Seed}

theorem id_of_kept (h : seed'.kept = seed.kept) : seed'.id = seed.id := congrArg Prod.fst h

theorem minSequence_of_kept (h : seed'.kept = seed.kept) :
    seed'.minSequence = seed.minSequence :=
  congrArg (fun k => k.2.1) h

theorem messages_of_kept (h : seed'.kept = seed.kept) :
    seed'.messages.map Message.kept = seed.messages.map Message.kept :=
  congrArg (fun k => k.2.2) h

theorem sequences_of_kept (h : seed'.kept = seed.kept) : seed'.sequences = seed.sequences := by
  have hseq : ∀ l : List Message, l.map Message.sequence =
      (l.map Message.kept).map fun k => BitVec.ofNat 8 k.1 := by
    intro l
    rw [List.map_map]
    rfl
  rw [sequences, sequences, hseq, hseq, messages_of_kept h]

theorem stored_of_kept (h : seed'.kept = seed.kept) :
    storedBytes seed'.messages = storedBytes seed.messages := by
  have hsize : ∀ l : List Message, storedBytes l = ((l.map Message.kept).map Prod.snd).sum := by
    intro l
    rw [List.map_map]
    rfl
  rw [hsize, hsize, messages_of_kept h]

theorem Windowed.of_kept (h : seed'.kept = seed.kept) (hw : seed.Windowed) : seed'.Windowed := by
  constructor
  · rw [sequences_of_kept h, minSequence_of_kept h]
    exact hw.within
  · rw [sequences_of_kept h]
    exact hw.increasing

end Seed

/-- The room the messages of a domain take. -/
def Domain.stored (dom : Domain) : Nat := (dom.seeds.map fun seed => storedBytes seed.messages).sum

def State.stored (s : State) : Nat := (s.domains.map Domain.stored).sum

/-- The lengths an identifier can have. -/
def idLengths : List Nat := [2, 8, 16]

/-- **The invariant.**  Domains and seeds are told apart by their keys, every seed
is within its window, and the room taken is accounted for. -/
structure State.Tidy (s : State) : Prop where
  keys : (s.domains.map Domain.key).Nodup
  ids : ∀ dom ∈ s.domains, (dom.seeds.map Seed.id).Nodup
  windowed : ∀ dom ∈ s.domains, ∀ seed ∈ dom.seeds, seed.Windowed
  lengths : ∀ dom ∈ s.domains, ∀ seed ∈ dom.seeds, seed.id.length ∈ idLengths
  total : s.totalBuffered = s.stored

namespace Domain

variable {dom dom' : Domain}

theorem key_of_kept (h : dom'.kept = dom.kept) : dom'.key = dom.key := congrArg Prod.fst h

theorem seeds_of_kept (h : dom'.kept = dom.kept) :
    dom'.seeds.map Seed.kept = dom.seeds.map Seed.kept :=
  congrArg Prod.snd h

theorem ids_of_kept (h : dom'.kept = dom.kept) :
    dom'.seeds.map Seed.id = dom.seeds.map Seed.id := by
  have hid : ∀ l : List Seed, l.map Seed.id = (l.map Seed.kept).map Prod.fst := by
    intro l
    rw [List.map_map]
    rfl
  rw [hid, hid, seeds_of_kept h]

theorem stored_of_kept (h : dom'.kept = dom.kept) : dom'.stored = dom.stored := by
  have hlen := congrArg List.length (seeds_of_kept h)
  rw [List.length_map, List.length_map] at hlen
  unfold stored
  congr 1
  refine List.ext_getElem (by simpa using hlen) fun i hi hi' => ?_
  rw [List.length_map] at hi hi'
  rw [List.getElem_map, List.getElem_map]
  apply Seed.stored_of_kept
  have hget := List.getElem_of_eq (seeds_of_kept h) (i := i) (by simpa using hi)
  simpa using hget

theorem mem_of_kept (h : dom'.kept = dom.kept) {seed' : Seed} (hm : seed' ∈ dom'.seeds) :
    ∃ seed ∈ dom.seeds, seed'.kept = seed.kept := by
  have hmem : seed'.kept ∈ dom.seeds.map Seed.kept := by
    rw [← seeds_of_kept h]
    exact List.mem_map_of_mem hm
  obtain ⟨seed, hseed, heq⟩ := List.mem_map.mp hmem
  exact ⟨seed, hseed, heq.symm⟩

end Domain

namespace State

variable {s s' : State}

theorem domains_of_kept (h : s'.kept = s.kept) :
    s'.domains.map Domain.kept = s.domains.map Domain.kept :=
  congrArg Prod.fst h

theorem mem_of_kept (h : s'.kept = s.kept) {dom' : Domain} (hm : dom' ∈ s'.domains) :
    ∃ dom ∈ s.domains, dom'.kept = dom.kept := by
  have hmem : dom'.kept ∈ s.domains.map Domain.kept := by
    rw [← domains_of_kept h]
    exact List.mem_map_of_mem hm
  obtain ⟨dom, hdom, heq⟩ := List.mem_map.mp hmem
  exact ⟨dom, hdom, heq.symm⟩

theorem stored_of_kept (h : s'.kept = s.kept) : s'.stored = s.stored := by
  have hlen := congrArg List.length (domains_of_kept h)
  rw [List.length_map, List.length_map] at hlen
  unfold stored
  congr 1
  refine List.ext_getElem (by simpa using hlen) fun i hi hi' => ?_
  rw [List.length_map] at hi hi'
  rw [List.getElem_map, List.getElem_map]
  apply Domain.stored_of_kept
  have hget := List.getElem_of_eq (domains_of_kept h) (i := i) (by simpa using hi)
  simpa using hget

/-- What leaves the messages alone keeps the invariant. -/
theorem Tidy.of_kept (h : s'.kept = s.kept) (ht : s.Tidy) : s'.Tidy := by
  have hkey : ∀ l : List Domain, l.map Domain.key = (l.map Domain.kept).map Prod.fst := by
    intro l
    rw [List.map_map]
    rfl
  constructor
  · rw [hkey, domains_of_kept h, ← hkey]
    exact ht.keys
  · intro dom' hdom'
    obtain ⟨dom, hdom, heq⟩ := mem_of_kept h hdom'
    rw [Domain.ids_of_kept heq]
    exact ht.ids dom hdom
  · intro dom' hdom' seed' hseed'
    obtain ⟨dom, hdom, heq⟩ := mem_of_kept h hdom'
    obtain ⟨seed, hseed, hkept⟩ := Domain.mem_of_kept heq hseed'
    exact (ht.windowed dom hdom seed hseed).of_kept hkept
  · intro dom' hdom' seed' hseed'
    obtain ⟨dom, hdom, heq⟩ := mem_of_kept h hdom'
    obtain ⟨seed, hseed, hkept⟩ := Domain.mem_of_kept heq hseed'
    rw [Seed.id_of_kept hkept]
    exact ht.lengths dom hdom seed hseed
  · rw [show s'.totalBuffered = s.totalBuffered from congrArg Prod.snd h, stored_of_kept h]
    exact ht.total

end State

/-! ## Changing one seed -/

theorem Domain.kept_updateSeed {dom : Domain} {id : SeedId} {f : Seed → Seed}
    (hf : ∀ seed, (f seed).kept = seed.kept) : (dom.updateSeed id f).kept = dom.kept := by
  unfold Domain.kept Domain.updateSeed Keyed.update
  rw [List.map_map]
  congr 1
  apply List.map_congr_left
  intro seed _
  dsimp only [Function.comp]
  split
  · exact hf seed
  · rfl

theorem State.kept_update {s : State} {key : Nat} {f : Domain → Domain}
    (hf : ∀ dom, (f dom).kept = dom.kept) : (s.update key f).kept = s.kept := by
  unfold State.kept State.update Keyed.update
  rw [List.map_map]
  congr 1
  apply List.map_congr_left
  intro dom _
  dsimp only [Function.comp]
  split
  · exact hf dom
  · rfl

theorem State.kept_updateSeed {s : State} {key : Nat} {id : SeedId} {f : Seed → Seed}
    (hf : ∀ seed, (f seed).kept = seed.kept) : (s.updateSeed key id f).kept = s.kept :=
  State.kept_update fun _ => Domain.kept_updateSeed hf

section Lookup

variable {s : State} {key key' : Nat} {id id' : SeedId} {f : Seed → Seed}

theorem Domain.seedLookup_updateSeed_self {dom : Domain} (hid : ∀ x, (f x).id = x.id) :
    (dom.updateSeed id f).seedLookup id = (dom.seedLookup id).map f :=
  Keyed.lookup_update_self fun x hx => (hid x).trans hx

theorem State.lookup_update_self {g : Domain → Domain}
    (hkey : ∀ x, x.key = key → (g x).key = key) :
    (s.update key g).lookup key = (s.lookup key).map g :=
  Keyed.lookup_update_self hkey

theorem State.lookup_update_ne {g : Domain → Domain}
    (hkey : ∀ x, x.key = key → (g x).key = key) (h : key' ≠ key) :
    (s.update key g).lookup key' = s.lookup key' :=
  Keyed.lookup_update_ne hkey h

@[simp] theorem State.seed_updateSeed_self (hid : ∀ x, (f x).id = x.id) :
    (s.updateSeed key id f).seed key id = (s.seed key id).map f := by
  unfold State.seed State.updateSeed
  rw [State.lookup_update_self (g := fun dom => dom.updateSeed id f) fun _ h => h]
  cases s.lookup key with
  | none => rfl
  | some dom => exact Domain.seedLookup_updateSeed_self hid

theorem State.seed_updateSeed_ne (hid : ∀ x, (f x).id = x.id) (h : (key', id') ≠ (key, id)) :
    (s.updateSeed key id f).seed key' id' = s.seed key' id' := by
  unfold State.seed State.updateSeed
  by_cases hkey : key' = key
  · subst hkey
    have hne : id' ≠ id := fun heq => h (by rw [heq])
    rw [State.lookup_update_self (g := fun dom => dom.updateSeed id f) fun _ h => h]
    cases s.lookup key' with
    | none => rfl
    | some dom => exact Keyed.lookup_update_ne (fun x hx => (hid x).trans hx) hne
  · rw [State.lookup_update_ne (g := fun dom => dom.updateSeed id f) (fun _ h => h) hkey]

end Lookup

theorem State.seed_parts {s : State} {key : Nat} {id : SeedId} {seed : Seed}
    (h : s.seed key id = some seed) :
    ∃ dom, s.lookup key = some dom ∧ dom.seedLookup id = some seed :=
  Option.bind_eq_some_iff.mp h

namespace State.Tidy

variable {s : State} {key : Nat} {id : SeedId} {seed : Seed} {f : Seed → Seed}

/-- **One domain changed**: its seeds are as they should be, and the room taken
changes as theirs does. -/
theorem update (ht : s.Tidy) {dom : Domain} {g : Domain → Domain}
    (hdom : s.lookup key = some dom) (hkey : ∀ x, x.key = key → (g x).key = key)
    (hids : ((g dom).seeds.map Seed.id).Nodup)
    (hseeds : ∀ seed ∈ (g dom).seeds, seed.Windowed ∧ seed.id.length ∈ idLengths)
    (total : Nat) (htotal : total + dom.stored = s.totalBuffered + (g dom).stored) :
    State.Tidy { s.update key g with totalBuffered := total } := by
  have hsplit : ∀ dom' ∈ (s.update key g).domains, dom' = g dom ∨ dom' ∈ s.domains :=
    fun dom' hdom' => (Keyed.mem_update ht.keys hdom hdom').imp_right And.left
  constructor
  · change ((Keyed.update Domain.key key g s.domains).map Domain.key).Nodup
    rw [Keyed.keys_update hkey]
    exact ht.keys
  · intro dom' hdom'
    rcases hsplit dom' hdom' with rfl | hold
    · exact hids
    · exact ht.ids dom' hold
  · intro dom' hdom' seed' hseed'
    rcases hsplit dom' hdom' with rfl | hold
    · exact (hseeds seed' hseed').1
    · exact ht.windowed dom' hold seed' hseed'
  · intro dom' hdom' seed' hseed'
    rcases hsplit dom' hdom' with rfl | hold
    · exact (hseeds seed' hseed').2
    · exact ht.lengths dom' hold seed' hseed'
  · have hdoms := Keyed.sum_update (f := g) Domain.stored ht.keys hdom
    have hold := ht.total
    change total = ((Keyed.update Domain.key key g s.domains).map Domain.stored).sum
    change _ = s.stored + _ at hdoms
    omega

/-- **One seed changed**: it is still in its window, and the room taken changes as
the seed does. -/
theorem updateSeed (ht : s.Tidy) (hseed : s.seed key id = some seed)
    (hid : ∀ x, (f x).id = x.id) (hw : (f seed).Windowed) (total : Nat)
    (htotal : total + storedBytes seed.messages =
      s.totalBuffered + storedBytes (f seed).messages) :
    State.Tidy { s.updateSeed key id f with totalBuffered := total } := by
  obtain ⟨dom, hdom, hlook⟩ := State.seed_parts hseed
  have hmem : dom ∈ s.domains := Keyed.mem_of_lookup hdom
  refine ht.update (g := fun dom => dom.updateSeed id f) hdom (fun _ h => h) ?_ ?_ total ?_
  · change ((Keyed.update Seed.id id f dom.seeds).map Seed.id).Nodup
    rw [Keyed.keys_update fun x hx => (hid x).trans hx]
    exact ht.ids dom hmem
  · intro seed' hseed'
    rcases Keyed.mem_update (ht.ids dom hmem) hlook hseed' with rfl | ⟨hold, _⟩
    · rw [hid]
      exact ⟨hw, ht.lengths dom hmem seed (Keyed.mem_of_lookup hlook)⟩
    · exact ⟨ht.windowed dom hmem seed' hold, ht.lengths dom hmem seed' hold⟩
  · have hseeds := Keyed.sum_update (f := f) (fun seed => storedBytes seed.messages)
      (ht.ids dom hmem) hlook
    change _ = dom.stored + _ at hseeds
    change total + dom.stored = s.totalBuffered +
      ((Keyed.update Seed.id id f dom.seeds).map fun seed => storedBytes seed.messages).sum
    omega

/-- The room a seed takes is part of the room taken. -/
theorem stored_le (ht : s.Tidy) (hseed : s.seed key id = some seed) :
    storedBytes seed.messages ≤ s.totalBuffered := by
  obtain ⟨dom, hdom, hlook⟩ := State.seed_parts hseed
  have hseeds : storedBytes seed.messages ≤ dom.stored :=
    List.single_le_sum (by simp) _
      (List.mem_map_of_mem (f := fun seed => storedBytes seed.messages)
        (Keyed.mem_of_lookup hlook))
  have hdoms : dom.stored ≤ s.stored :=
    List.single_le_sum (by simp) _ (List.mem_map_of_mem (Keyed.mem_of_lookup hdom))
  rw [ht.total]
  exact hseeds.trans hdoms

theorem windowed_of_seed (ht : s.Tidy) (hseed : s.seed key id = some seed) : seed.Windowed := by
  obtain ⟨dom, hdom, hlook⟩ := State.seed_parts hseed
  exact ht.windowed dom (Keyed.mem_of_lookup hdom) seed (Keyed.mem_of_lookup hlook)

/-- What is looked up is what is there. -/
theorem seed_of_mem (ht : s.Tidy) {dom : Domain} (hdom : dom ∈ s.domains)
    (hseed : seed ∈ dom.seeds) : s.seed dom.key seed.id = some seed := by
  unfold State.seed State.lookup Domain.seedLookup
  rw [Keyed.lookup_of_mem ht.keys hdom, Option.bind_some,
    Keyed.lookup_of_mem (ht.ids dom hdom) hseed]

end State.Tidy

/-! ## Making room -/

/-- The oldest message is one of the candidates. -/
theorem State.mem_of_oldest {s : State} {cs : List Candidate} {best : Option Candidate}
    {c : Candidate} (h : s.oldest cs best = some c) : c ∈ cs ∨ best = some c := by
  induction cs generalizing best with
  | nil => exact Or.inr h
  | cons d rest ih =>
      cases best with
      | none =>
          rcases ih h with hmem | heq
          · exact Or.inl (List.mem_cons_of_mem _ hmem)
          · rw [Option.some.inj heq]
            exact Or.inl List.mem_cons_self
      | some b =>
          rcases ih h with hmem | heq
          · exact Or.inl (List.mem_cons_of_mem _ hmem)
          · have heq := Option.some.inj heq
            split at heq
            · rw [heq]
              exact Or.inl List.mem_cons_self
            · rw [heq]
              exact Or.inr rfl

/-- A candidate is the first message of a seed. -/
theorem State.Tidy.candidate {s : State} (ht : s.Tidy) {c : Candidate}
    (hc : c ∈ s.candidates) :
    ∃ seed rest, s.seed c.key c.id = some seed ∧ seed.messages = c.first :: rest := by
  obtain ⟨dom, hdom, hc⟩ := List.mem_flatMap.mp hc
  obtain ⟨seed, hseed, hc⟩ := List.mem_filterMap.mp hc
  cases hm : seed.messages with
  | nil =>
      rw [hm] at hc
      cases hc
  | cons m rest =>
      rw [hm] at hc
      cases hc
      exact ⟨seed, rest, ht.seed_of_mem hdom hseed, hm⟩

theorem Seed.dropFirst_eq {seed : Seed} {m : Message} {rest : List Message}
    (h : seed.messages = m :: rest) :
    seed.dropFirst = { seed with minSequence := m.sequence + 1, messages := rest } := by
  unfold Seed.dropFirst
  rw [h]

theorem Seed.dropFirst_id (seed : Seed) : seed.dropFirst.id = seed.id := by
  unfold Seed.dropFirst
  split <;> rfl

theorem Seed.sequences_dropFirst {seed : Seed} {q : Seq} (h : q ∈ seed.dropFirst.sequences) :
    q ∈ seed.sequences := by
  unfold Seed.dropFirst at h
  split at h
  · exact h
  · rename_i m rest hm
    rw [Seed.sequences, hm]
    exact List.mem_cons_of_mem _ h

theorem State.Tidy.freeSpace {s : State} (ht : s.Tidy) {c : Candidate}
    (hc : c ∈ s.candidates) : (s.freeSpace c).Tidy := by
  obtain ⟨seed, rest, hseed, hm⟩ := ht.candidate hc
  have hle := ht.stored_le hseed
  refine ht.updateSeed hseed Seed.dropFirst_id (ht.windowed_of_seed hseed).dropFirst _ ?_
  rw [Seed.dropFirst_eq hm]
  change s.totalBuffered - storedBytes [c.first] + storedBytes seed.messages =
    s.totalBuffered + storedBytes rest
  rw [hm] at hle ⊢
  simp only [storedBytes, List.map_cons, List.sum_cons, List.map_nil, List.sum_nil] at hle ⊢
  omega

theorem State.Tidy.makeRoom {len fuel : Nat} {s t : State} (ht : s.Tidy)
    (h : s.makeRoom len fuel = some t) : t.Tidy := by
  induction fuel generalizing s with
  | zero =>
      unfold State.makeRoom at h
      split at h
      · cases h
        exact ht
      · cases h
  | succ fuel ih =>
      unfold State.makeRoom at h
      split at h
      · cases h
        exact ht
      · split at h
        · rename_i hfuel hold
          cases hfuel
          rcases State.mem_of_oldest hold with hc | hc
          · exact ih (ht.freeSpace hc) h
          · cases hc
        · cases h

/-- Room is made by dropping messages, so a message which was not held is not held
after it. -/
theorem State.Tidy.makeRoom_fresh {len fuel : Nat} {s t : State} (ht : s.Tidy)
    (h : s.makeRoom len fuel = some t) {key : Nat} {id : SeedId} {q : Seq}
    (hfresh : ∀ seed, s.seed key id = some seed → q ∉ seed.sequences) :
    ∀ seed, t.seed key id = some seed → q ∉ seed.sequences := by
  induction fuel generalizing s with
  | zero =>
      unfold State.makeRoom at h
      split at h
      · cases h
        exact hfresh
      · cases h
  | succ fuel ih =>
      unfold State.makeRoom at h
      split at h
      · cases h
        exact hfresh
      · split at h
        · rename_i hfuel hold
          cases hfuel
          rcases State.mem_of_oldest hold with hc | hc
          · refine ih (ht.freeSpace hc) h fun seed hseed => ?_
            rename_i c
            change (s.updateSeed c.key c.id Seed.dropFirst).seed key id = some seed at hseed
            by_cases hsame : (key, id) = (c.key, c.id)
            · cases hsame
              rw [State.seed_updateSeed_self Seed.dropFirst_id] at hseed
              obtain ⟨old, hold, rfl⟩ := Option.map_eq_some_iff.mp hseed
              exact fun hq => hfresh old hold (Seed.sequences_dropFirst hq)
            · rw [State.seed_updateSeed_ne Seed.dropFirst_id hsame] at hseed
              exact hfresh seed hseed
          · cases hc
        · cases h

end Mpl
