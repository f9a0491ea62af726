import WisunModem.MplRecord

/-!
# Whether the input handling of MPL ends

The loops of `mpl_control_handler` and of `mpl_buffer_create` turn by turn.  The bits of a
bitmap are counted in 8 bits, so those of a bitmap of 32 bytes are never all counted, and
the loop that makes room goes on when there is nothing left to delete.
-/

namespace Mpl

variable {bits : Bits} {mem : Bytes} {fin : Nat} {source : SeedId}

/-! ## The loops -/

/-- `for (uint8_t i = 0; i / 8 < bm_len; i++)` from `i` on: the numbers named so far. -/
def bitLoop (bits : Bits) (mem : Bytes) (p bmLen : Nat) (minSeqno : Seq) :
    Nat → UInt8 → List Seq → Option (List Seq)
  | 0, _, _ => none
  | fuel + 1, i, names =>
      if i.toNat / 8 < bmLen then
        bitLoop bits mem p bmLen minSeqno fuel (i + 1)
          (if mem.bitTest bits p i.toNat then names ++ [minSeqno + BitVec.ofNat 8 i.toNat]
           else names)
      else some names

/-- The loop over the records from `p` to `fin`; `fuel` is for this loop and for those over
the bitmaps. -/
def recordLoop (bits : Bits) (mem : Bytes) (fin : Nat) (source : SeedId) :
    Nat → Nat → Domain → Bool → Option (Domain × Bool)
  | 0, _, _, _ => none
  | fuel + 1, p, dom, they =>
    if fin ≤ p then some (dom, they)
    -- "MPL control error"
    else if fin - p < 2 then some (dom, they)
    else
      let minSeqno := BitVec.ofNat 8 (mem p).toNat
      let bmLen := (mem (p + 1)).toNat / 4
      let type := idTypeOfCode ((mem (p + 1)).toNat % 4)
      let p := p + 2
      if 32 < bmLen ∨ fin - p < type.len + bmLen then some (dom, they)
      else
        let id := if type = .ipv6Src then source else mem.read p type.len
        let p := p + type.len
        match dom.seedLookup id with
        | none => recordLoop bits mem fin source fuel (p + bmLen) dom true
        | some seed =>
            match bitLoop bits mem p bmLen minSeqno fuel 0 [] with
            | none => none
            | some names =>
                recordLoop bits mem fin source fuel (p + bmLen)
                  (dom.updateSeed id (Seed.mark dom.colour minSeqno names))
                  (they || seed.lacks names)

/-- The loop of `mpl_buffer_create`; `mpl_free_space` returns where nothing is held. -/
def roomLoop (len : Nat) : Nat → State → Option State
  | 0, _ => none
  | fuel + 1, s =>
      if s.totalBuffered + len ≤ maxBufferedMessagesSize then some s
      else
        match s.oldest s.candidates none with
        | some c => roomLoop len fuel (s.freeSpace c)
        | none => roomLoop len fuel s

/-- From `p` on there is a record with a bitmap of 32 bytes for the seed `id`. -/
inductive FullBitmap (mem : Bytes) (fin : Nat) (source : SeedId) (id : SeedId) : Nat → Prop
  | here {p : Nat} {type : SeedIdType} (header : p + 2 ≤ fin)
      (named : type = idTypeOfCode ((mem (p + 1)).toNat % 4))
      (full : (mem (p + 1)).toNat / 4 = 32) (inside : p + 2 + (type.len + 32) ≤ fin)
      (seed : id = if type = .ipv6Src then source else mem.read (p + 2) type.len) :
      FullBitmap mem fin source id p
  | later {p bmLen : Nat} {type : SeedIdType} (header : p + 2 ≤ fin)
      (named : type = idTypeOfCode ((mem (p + 1)).toNat % 4))
      (length : bmLen = (mem (p + 1)).toNat / 4) (short : bmLen ≤ 32)
      (inside : p + 2 + (type.len + bmLen) ≤ fin)
      (rest : FullBitmap mem fin source id (p + 2 + type.len + bmLen)) :
      FullBitmap mem fin source id p

/-- The messages held are those that are counted, and keys are told apart. -/
structure State.Counted (s : State) : Prop where
  keys : (s.domains.map Domain.key).Nodup
  ids : ∀ dom ∈ s.domains, (dom.seeds.map Seed.id).Nodup
  total : s.totalBuffered = s.stored

/-! ## Bitmaps -/

/-- An index of 8 bits does not get past 32 bytes. -/
theorem bitLoop_full (p : Nat) (minSeqno : Seq) (fuel : Nat) (i : UInt8) (names : List Seq) :
    bitLoop bits mem p 32 minSeqno fuel i names = none := by
  induction fuel generalizing i names with
  | zero => rfl
  | succ fuel ih =>
    have hlt := i.toNat_lt
    rw [bitLoop, if_pos (by omega)]
    exact ih _ _

variable (bits mem) in
/-- A shorter bitmap is read up to its end. -/
theorem bitLoop_ends {bmLen : Nat} (h : bmLen < 32) (p : Nat) (minSeqno : Seq) (left fuel : Nat)
    (i : UInt8) (names : List Seq) (hleft : 8 * bmLen ≤ i.toNat + left) (hfuel : left < fuel) :
    ∃ names', bitLoop bits mem p bmLen minSeqno fuel i names = some names' := by
  induction left generalizing fuel i names with
  | zero =>
    obtain ⟨fuel, rfl⟩ := Nat.exists_eq_succ_of_ne_zero (Nat.ne_of_gt hfuel)
    rw [bitLoop, if_neg (by omega)]
    exact ⟨names, rfl⟩
  | succ left ih =>
    obtain ⟨fuel, rfl⟩ := Nat.exists_eq_succ_of_ne_zero (Nat.ne_of_gt (Nat.zero_lt_of_lt hfuel))
    rw [bitLoop]
    by_cases hin : i.toNat / 8 < bmLen
    · rw [if_pos hin]
      have hnext : (i + 1).toNat = i.toNat + 1 := by
        rw [UInt8.toNat_add, UInt8.toNat_one, Nat.mod_eq_of_lt (by omega)]
      exact ih fuel _ _ (by omega) (by omega)
    · rw [if_neg hin]
      exact ⟨names, rfl⟩

/-! ## Records -/

theorem seedLookup_mark (dom : Domain) (id id' : SeedId) (minSeqno : Seq) (names : List Seq) :
    ((dom.updateSeed id (Seed.mark dom.colour minSeqno names)).seedLookup id').isSome
      = (dom.seedLookup id').isSome := by
  by_cases hsame : id' = id
  · have hself : (dom.updateSeed id (Seed.mark dom.colour minSeqno names)).seedLookup id
        = (dom.seedLookup id).map (Seed.mark dom.colour minSeqno names) :=
      Domain.seedLookup_updateSeed_self fun _ => rfl
    rw [hsame, hself, Option.isSome_map]
  · exact congrArg Option.isSome (Keyed.lookup_update_ne (fun x hx => hx) hsame)

/-- A record that is read moves the cursor on and does not change which seeds there are. -/
theorem recordLoop_succ {fuel p : Nat} {dom : Domain} {they : Bool}
    (hheader : p + 2 ≤ fin)
    (hshort : (mem (p + 1)).toNat / 4 ≤ 32)
    (hinside : p + 2 + ((idTypeOfCode ((mem (p + 1)).toNat % 4)).len + (mem (p + 1)).toNat / 4)
      ≤ fin) :
    recordLoop bits mem fin source (fuel + 1) p dom they =
      let minSeqno := BitVec.ofNat 8 (mem p).toNat
      let bmLen := (mem (p + 1)).toNat / 4
      let type := idTypeOfCode ((mem (p + 1)).toNat % 4)
      let id := if type = .ipv6Src then source else mem.read (p + 2) type.len
      let q := p + 2 + type.len
      match dom.seedLookup id with
      | none => recordLoop bits mem fin source fuel (q + bmLen) dom true
      | some seed =>
          match bitLoop bits mem q bmLen minSeqno fuel 0 [] with
          | none => none
          | some names =>
              recordLoop bits mem fin source fuel (q + bmLen)
                (dom.updateSeed id (Seed.mark dom.colour minSeqno names))
                (they || seed.lacks names) := by
  rw [recordLoop, if_neg (by omega), if_neg (by omega)]
  dsimp only
  rw [if_neg (by omega)]

/-- **A full bitmap for a seed of the set** is never read to its end. -/
theorem recordLoop_full {id : SeedId} {p : Nat} (h : FullBitmap mem fin source id p)
    {dom : Domain} (hseed : (dom.seedLookup id).isSome) (fuel : Nat) (they : Bool) :
    recordLoop bits mem fin source fuel p dom they = none := by
  induction h generalizing fuel dom they with
  | @here p type header named full inside seed =>
    cases fuel with
    | zero => rfl
    | succ fuel =>
      subst named
      rw [recordLoop_succ header (by omega) (by omega)]
      dsimp only
      rw [← seed, full]
      obtain ⟨found, hfound⟩ := Option.isSome_iff_exists.mp hseed
      rw [hfound]
      dsimp only
      rw [bitLoop_full]
  | @later p bmLen type header named length short inside rest ih =>
    cases fuel with
    | zero => rfl
    | succ fuel =>
      subst named length
      rw [recordLoop_succ header short inside]
      dsimp only
      split
      · exact ih hseed fuel true
      · split
        · rfl
        · exact ih (by rwa [seedLookup_mark]) fuel _

variable (bits) in
/-- **Without one** the records are read to the end. -/
theorem recordLoop_ends {p : Nat} {dom : Domain} (they : Bool) {fuel : Nat}
    (h : ∀ id, FullBitmap mem fin source id p → dom.seedLookup id = none)
    (hfuel : fin - p + 256 < fuel) :
    ∃ r, recordLoop bits mem fin source fuel p dom they = some r := by
  induction fuel generalizing p dom they with
  | zero => omega
  | succ fuel ih =>
    by_cases hheader : p + 2 ≤ fin
    case neg =>
      rw [recordLoop]
      by_cases hend : fin ≤ p
      · rw [if_pos hend]
        exact ⟨_, rfl⟩
      · rw [if_neg hend, if_pos (by omega)]
        exact ⟨_, rfl⟩
    by_cases hread : (mem (p + 1)).toNat / 4 ≤ 32 ∧
        p + 2 + ((idTypeOfCode ((mem (p + 1)).toNat % 4)).len + (mem (p + 1)).toNat / 4) ≤ fin
    case neg =>
      rw [recordLoop, if_neg (by omega), if_neg (by omega)]
      dsimp only
      rw [if_pos (by omega)]
      exact ⟨_, rfl⟩
    obtain ⟨hshort, hinside⟩ := hread
    rw [recordLoop_succ hheader hshort hinside]
    dsimp only
    have hlater : ∀ id, FullBitmap mem fin source id (p + 2 +
        (idTypeOfCode ((mem (p + 1)).toNat % 4)).len + (mem (p + 1)).toNat / 4) →
        dom.seedLookup id = none :=
      fun id hid => h id (.later hheader rfl rfl hshort hinside hid)
    split
    · exact ih true hlater (by omega)
    · next seed hseed =>
      -- the bitmap is shorter, as there is a seed for it
      have hlt : (mem (p + 1)).toNat / 4 < 32 := by
        refine Nat.lt_of_le_of_ne hshort fun hfull => ?_
        have hnone := h _ (.here hheader rfl hfull (by omega) rfl)
        rw [hnone] at hseed
        cases hseed
      obtain ⟨names, hnames⟩ := bitLoop_ends bits mem hlt
        (p + 2 + (idTypeOfCode ((mem (p + 1)).toNat % 4)).len) (BitVec.ofNat 8 (mem p).toNat)
        255 fuel 0 [] (by simp; omega) (by omega)
      rw [hnames]
      refine ih _ (fun id hid => ?_) (by omega)
      rw [← Option.not_isSome_iff_eq_none, seedLookup_mark, Option.not_isSome_iff_eq_none]
      exact hlater id hid

/-! ## Room -/

namespace State.Counted

variable {s : State}

/-- A candidate is the first message of a seed. -/
theorem candidate (h : s.Counted) {c : Candidate} (hc : c ∈ s.candidates) :
    ∃ dom seed rest, s.lookup c.key = some dom ∧ dom.seedLookup c.id = some seed ∧
      seed.messages = c.first :: rest := by
  obtain ⟨dom, hdom, hc⟩ := List.mem_flatMap.mp hc
  obtain ⟨seed, hseed, hc⟩ := List.mem_filterMap.mp hc
  cases hm : seed.messages with
  | nil =>
    rw [hm] at hc
    cases hc
  | cons m rest =>
    rw [hm] at hc
    cases hc
    exact ⟨dom, seed, rest, Keyed.lookup_of_mem h.keys hdom,
      Keyed.lookup_of_mem (h.ids dom hdom) hseed, hm⟩

/-- Deleting a message takes what it is long from what is counted. -/
theorem freeSpace (h : s.Counted) {c : Candidate} (hc : c ∈ s.candidates) :
    (s.freeSpace c).Counted ∧ (s.freeSpace c).held + 1 = s.held := by
  obtain ⟨dom, seed, rest, hdom, hseed, hm⟩ := h.candidate hc
  have hmem : dom ∈ s.domains := Keyed.mem_of_lookup hdom
  have hdrop := Seed.dropFirst_eq hm
  have hseeds := Keyed.sum_update (f := Seed.dropFirst) (fun seed => storedBytes seed.messages)
    (h.ids dom hmem) hseed
  have hcounts := Keyed.sum_update (f := Seed.dropFirst) (fun seed => seed.messages.length)
    (h.ids dom hmem) hseed
  have hdoms := Keyed.sum_update (f := fun dom => dom.updateSeed c.id Seed.dropFirst)
    Domain.stored h.keys hdom
  have hheld := Keyed.sum_update (f := fun dom => dom.updateSeed c.id Seed.dropFirst)
    (fun dom => (dom.seeds.map fun seed => seed.messages.length).sum) h.keys hdom
  refine ⟨⟨?_, fun dom' hdom' => ?_, ?_⟩, ?_⟩
  · change ((Keyed.update Domain.key c.key _ s.domains).map Domain.key).Nodup
    have hsame : (Keyed.update Domain.key c.key (fun dom => dom.updateSeed c.id Seed.dropFirst)
        s.domains).map Domain.key = s.domains.map Domain.key := Keyed.keys_update fun _ hx => hx
    rw [hsame]
    exact h.keys
  · rcases Keyed.mem_update h.keys hdom hdom' with rfl | ⟨hold, -⟩
    · change ((Keyed.update Seed.id c.id Seed.dropFirst dom.seeds).map Seed.id).Nodup
      rw [Keyed.keys_update fun x hx => (Seed.dropFirst_id x).trans hx]
      exact h.ids dom hmem
    · exact h.ids dom' hold
  · change s.totalBuffered - storedBytes [c.first] =
      ((Keyed.update Domain.key c.key _ s.domains).map Domain.stored).sum
    change _ = dom.stored + _ at hseeds
    change _ = s.stored + _ at hdoms
    change ((Keyed.update Seed.id c.id Seed.dropFirst dom.seeds).map _).sum + _ = _ at hseeds
    have htotal := h.total
    change _ = _ + (List.map _ (Keyed.update Seed.id c.id Seed.dropFirst dom.seeds)).sum at hdoms
    rw [hdrop, hm] at hseeds
    simp only [storedBytes, List.map_cons, List.sum_cons, List.map_nil, List.sum_nil]
      at hseeds hdoms ⊢
    omega
  · change ((Keyed.update Domain.key c.key _ s.domains).map _).sum + 1 = _
    change _ = s.held + (List.map _ (Keyed.update Seed.id c.id Seed.dropFirst dom.seeds)).sum
      at hheld
    rw [hdrop, hm, List.length_cons] at hcounts
    dsimp only at hcounts
    omega

/-- Where bytes are counted there is a message to delete. -/
theorem oldest_isSome (h : s.Counted) (hpos : 0 < s.totalBuffered) :
    ∃ c ∈ s.candidates, s.oldest s.candidates none = some c := by
  have hsome : ∀ (cs : List Candidate) (best : Option Candidate), cs ≠ [] ∨ best.isSome →
      (s.oldest cs best).isSome := by
    intro cs
    induction cs with
    | nil => exact fun best hbest => hbest.resolve_left fun hne => hne rfl
    | cons c cs ih =>
      intro best _
      cases best with
      | none => exact ih _ (.inr rfl)
      | some best => exact ih _ (.inr rfl)
  have hne : s.candidates ≠ [] := by
    intro hnil
    rw [h.total] at hpos
    refine Nat.ne_of_gt hpos (List.sum_eq_zero fun x hx => ?_)
    obtain ⟨dom, hdom, rfl⟩ := List.mem_map.mp hx
    refine List.sum_eq_zero fun y hy => ?_
    obtain ⟨seed, hseed, rfl⟩ := List.mem_map.mp hy
    cases hm : seed.messages with
    | nil => rfl
    | cons m rest =>
      have hmem : (⟨dom.key, seed.id, m⟩ : Candidate) ∈ s.candidates :=
        List.mem_flatMap.mpr ⟨dom, hdom, List.mem_filterMap.mpr ⟨seed, hseed, by rw [hm]; rfl⟩⟩
      rw [hnil] at hmem
      cases hmem
  obtain ⟨c, hc⟩ := Option.isSome_iff_exists.mp (hsome s.candidates none (.inl hne))
  refine ⟨c, ?_, hc⟩
  rcases State.mem_of_oldest hc with hmem | hnone
  · exact hmem
  · cases hnone

end State.Counted

/-- The loop ends with room for the message. -/
theorem roomLoop_room {len fuel : Nat} {s t : State} (h : roomLoop len fuel s = some t) :
    t.totalBuffered + len ≤ maxBufferedMessagesSize := by
  induction fuel generalizing s with
  | zero => cases h
  | succ fuel ih =>
    rw [roomLoop] at h
    split at h
    · next hroom =>
      cases h
      exact hroom
    · split at h
      · exact ih h
      · exact ih h

/-- For a message not longer than all the room, as many turns as there are messages do. -/
theorem roomLoop_ends {len fuel : Nat} {s : State} (h : s.Counted)
    (hlen : len ≤ maxBufferedMessagesSize) (hfuel : s.held < fuel) :
    ∃ t, roomLoop len fuel s = some t := by
  induction fuel generalizing s with
  | zero => omega
  | succ fuel ih =>
    rw [roomLoop]
    by_cases hroom : s.totalBuffered + len ≤ maxBufferedMessagesSize
    · rw [if_pos hroom]
      exact ⟨s, rfl⟩
    · rw [if_neg hroom]
      obtain ⟨c, hc, hold⟩ := h.oldest_isSome (by omega)
      obtain ⟨hcounted, hheld⟩ := h.freeSpace hc
      rw [hold]
      exact ih hcounted (by omega)

/-! ## When the input handling ends -/

/-- **The input handling of MPL ends** exactly where no record of a control message has a
bitmap of 32 bytes for a seed of the set, and no data message is longer than all the room. -/
theorem input_ends_iff (bits : Bits) (mem : Bytes) (p fin : Nat) (source : SeedId) (dom : Domain)
    (they : Bool) (s : State) (len : Nat) :
    ((∃ fuel r, recordLoop bits mem fin source fuel p dom they = some r) ↔
      ∀ id, FullBitmap mem fin source id p → dom.seedLookup id = none) ∧
    (s.Counted →
      ((∃ fuel t, roomLoop len fuel s = some t) ↔ len ≤ maxBufferedMessagesSize)) := by
  constructor
  · constructor
    · rintro ⟨fuel, r, hr⟩ id hid
      rw [← Option.not_isSome_iff_eq_none]
      intro hseed
      rw [recordLoop_full hid hseed] at hr
      cases hr
    · intro h
      obtain ⟨r, hr⟩ := recordLoop_ends bits they h (Nat.lt_succ_self _)
      exact ⟨_, r, hr⟩
  · intro hs
    constructor
    · rintro ⟨fuel, t, ht⟩
      have hroom := roomLoop_room ht
      omega
    · intro hlen
      obtain ⟨t, ht⟩ := roomLoop_ends hs hlen (Nat.lt_succ_self _)
      exact ⟨_, t, ht⟩

/-- A seed, and a control message with one record for it: the number 0, a bitmap of 32
bytes and an identifier of 2 bytes. -/
def hungDomain : Domain where
  key := 0
  realmScope := false
  colour := false
  proactiveForwarding := true
  seedSetEntryLifetime := 1800
  seeds := [{ id := [0, 0], colour := false, lifetime := 1800, minSequence := 0, messages := [] }]
  trickle := ⟨0, 0, 0, 0, 0⟩
  dataTrickleParams := ⟨1, 1, 1, 3⟩
  controlTrickleParams := ⟨1, 1, 1, 10⟩

def hungMessage : Bytes := fun q => if q = 1 then 129 else 0

/-- The message hangs the handler, and so does a data message of 8193 bytes. -/
theorem input_hangs :
    (∀ (bits : Bits) (fuel : Nat),
      recordLoop bits hungMessage 36 [] fuel 0 hungDomain false = none) ∧
    ∀ fuel, roomLoop 8193 fuel State.init = none := by
  constructor
  · intro bits fuel
    have hfull : FullBitmap hungMessage 36 [] [0, 0] 0 :=
      .here (by decide) rfl (by decide) (by decide) (by decide)
    exact recordLoop_full hfull (by decide) fuel false
  · intro fuel
    cases hloop : roomLoop 8193 fuel State.init with
    | none => rfl
    | some t =>
      have hroom := roomLoop_room hloop
      have hmax : maxBufferedMessagesSize = 8192 := rfl
      omega

/-- The same message for a set without the seed is read to its end, and there is room for
8192 bytes. -/
theorem input_ends :
    (∃ fuel r, recordLoop Bits.plain hungMessage 36 [] fuel 0 { hungDomain with seeds := [] } false
      = some r) ∧
    ∃ fuel t, roomLoop 8192 fuel State.init = some t := by
  have hends := input_ends_iff Bits.plain hungMessage 0 36 [] { hungDomain with seeds := [] } false
    State.init 8192
  refine ⟨hends.1.mpr fun id _ => rfl, (hends.2 ⟨?_, ?_, rfl⟩).mpr (Nat.le_refl _)⟩
  · exact List.nodup_nil
  · intro dom hdom
    cases hdom

end Mpl
