import Mathlib.Data.List.Basic
import Mathlib.Tactic.Common
import WisunModem.Keyed

/-!
# 6LoWPAN contexts

`lowpan_context.c`.  The list has the longest prefixes first.  An entry that is updated is taken
out and put back at its new place; the timer counts an entry down twice, first to the end of
compression and from there to its removal.

The copy and the comparison of bit strings are parameters: what they do to single bits is all
that the list relies on.
-/

namespace LowpanContexts

abbrev Address := BitVec 128

/-- `lowpan_context_t` -/
structure Context where
  lifetime : Nat
  length : Nat
  cid : Nat
  compression : Bool
  expiring : Bool
  stable : Bool
  pfx : Address
deriving DecidableEq, Repr

/-- `bitcopy` writes the first bits, and no others. -/
def Copies (bitcopy : Address → Address → Nat → Address) : Prop :=
  ∀ dst src bits i, (bitcopy dst src bits).getMsbD i =
    if i < bits then src.getMsbD i else dst.getMsbD i

/-- `bitsequal` compares the first bits. -/
def Compares (bitsequal : Address → Address → Nat → Bool) : Prop :=
  ∀ a b bits, bitsequal a b bits = true ↔ ∀ i < bits, a.getMsbD i = b.getMsbD i

section Code

variable (bitcopy : Address → Address → Nat → Address)
variable (bitsequal : Address → Address → Nat → Bool)

/-- `LOWPAN_CONTEXT_CID_MASK` -/
def cidOf (cidFlags : UInt8) : Nat := (cidFlags &&& 0x0f).toNat

/-- `lowpan_context_get_by_id` -/
def getById (list : List Context) (id : UInt8) : Option Context :=
  list.find? fun entry => entry.cid = cidOf id

/-- `lowpan_context_get_by_address` -/
def getByAddress (list : List Context) (ipv6Address : Address) : Option Context :=
  list.find? fun entry => bitsequal entry.pfx ipv6Address entry.length

/-- The loop that inserts before the first entry which is not longer. -/
def insert (ctx : Context) : List Context → List Context
  | [] => [ctx]
  | entry :: list =>
      if ctx.length ≥ entry.length then ctx :: entry :: list else entry :: insert ctx list

/-- What `lowpan_context_update` writes to an entry. -/
def contextOf (cidFlags : UInt8) (lifetime : UInt16) (pfx : Address) (len : Nat) (stable : Bool) :
    Context where
  lifetime := lifetime.toNat * 600
  length := len
  cid := cidOf cidFlags
  compression := cidFlags &&& 0x10 ≠ 0
  expiring := false
  stable := stable
  pfx := bitcopy 0 pfx len

/-- `lowpan_context_update`; `alloc` says whether there is memory. -/
def update (alloc : Bool) (list : List Context) (cidFlags : UInt8) (lifetime : UInt16)
    (pfx : Address) (len : Nat) (stable : Bool) : Int × List Context :=
  let ctx := getById list cidFlags
  let list := if ctx.isSome then list.eraseP fun entry => entry.cid = cidOf cidFlags else list
  if lifetime = 0 then (0, list)
  else if ctx.isNone && !alloc then (-2, list)
  else (0, insert (contextOf bitcopy cidFlags lifetime pfx len stable) list)

/-- `lowpan_context_timer` for one entry; without an entry left it is deleted. -/
def age (ticks : Nat) (ctx : Context) : Option Context :=
  if ctx.lifetime > ticks then some { ctx with lifetime := ctx.lifetime - ticks }
  else if !ctx.expiring then
    some { ctx with compression := false, expiring := true, lifetime := 2 * 18000 }
  else none

/-- `lowpan_context_timer` -/
def timer (list : List Context) (ticks : Nat) : List Context := list.filterMap (age ticks)

/-- What happens to the list. -/
inductive Op
  | update (alloc : Bool) (cidFlags : UInt8) (lifetime : UInt16) (pfx : Address) (len : Fin 129)
      (stable : Bool)
  | timer (ticks : Nat)

def step (list : List Context) : Op → List Context
  | .update alloc cidFlags lifetime pfx len stable =>
      (update bitcopy alloc list cidFlags lifetime pfx len stable).2
  | .timer ticks => timer list ticks

def run (list : List Context) (ops : List Op) : List Context := ops.foldl (step bitcopy) list

end Code

/-! ## The order of the list -/

variable {bitcopy : Address → Address → Nat → Address}
variable {bitsequal : Address → Address → Nat → Bool}
variable {list : List Context} {ctx entry : Context}

/-- What every operation keeps. -/
structure Ordered (list : List Context) : Prop where
  cids : (list.map Context.cid).Nodup
  lengths : list.Pairwise fun a b => b.length ≤ a.length
  padded : ∀ ctx ∈ list, ∀ i, ctx.length ≤ i → ctx.pfx.getMsbD i = false

theorem Ordered.nil : Ordered [] :=
  ⟨List.nodup_nil, List.Pairwise.nil, fun _ hmem => nomatch hmem⟩

theorem Ordered.sublist {list' : List Context} (h : Ordered list) (hsub : list'.Sublist list) :
    Ordered list' :=
  ⟨h.cids.sublist (hsub.map _), h.lengths.sublist hsub, fun ctx hmem =>
    h.padded ctx (hsub.subset hmem)⟩

theorem perm_insert (ctx : Context) (list : List Context) :
    (insert ctx list).Perm (ctx :: list) := by
  induction list with
  | nil => exact List.Perm.refl _
  | cons entry list ih =>
    unfold insert
    split
    · exact List.Perm.refl _
    · exact (ih.cons entry).trans (List.Perm.swap ctx entry list)

theorem pairwise_insert (h : list.Pairwise fun a b => b.length ≤ a.length) :
    (insert ctx list).Pairwise fun a b => b.length ≤ a.length := by
  induction list with
  | nil => exact List.pairwise_singleton _ _
  | cons entry list ih =>
    obtain ⟨hfirst, hrest⟩ := List.pairwise_cons.mp h
    unfold insert
    split
    · next hlonger =>
      refine List.pairwise_cons.mpr ⟨fun other hmem => ?_, h⟩
      rcases List.mem_cons.mp hmem with rfl | hmem
      · exact hlonger
      · exact Nat.le_trans (hfirst other hmem) hlonger
    · next hshorter =>
      refine List.pairwise_cons.mpr ⟨fun other hmem => ?_, ih hrest⟩
      rcases List.mem_cons.mp ((perm_insert ctx list).subset hmem) with rfl | hmem
      · omega
      · exact hfirst other hmem

/-- An entry is put back where no other has its id. -/
theorem Ordered.insert (h : Ordered list) (hnew : ∀ entry ∈ list, entry.cid ≠ ctx.cid)
    (hpad : ∀ i, ctx.length ≤ i → ctx.pfx.getMsbD i = false) :
    Ordered (LowpanContexts.insert ctx list) where
  cids := by
    refine ((perm_insert ctx list).map Context.cid).nodup_iff.mpr ?_
    refine List.nodup_cons.mpr ⟨fun hmem => ?_, h.cids⟩
    obtain ⟨entry, hentry, hcid⟩ := List.mem_map.mp hmem
    exact hnew entry hentry hcid
  lengths := pairwise_insert h.lengths
  padded := by
    intro entry hmem
    rcases List.mem_cons.mp ((perm_insert ctx list).subset hmem) with rfl | hmem
    · exact hpad
    · exact h.padded entry hmem

theorem cid_age {ticks : Nat} {ctx' : Context} (h : age ticks ctx = some ctx') :
    ctx'.cid = ctx.cid ∧ ctx'.length = ctx.length ∧ ctx'.pfx = ctx.pfx := by
  unfold age at h
  split at h
  · cases h
    exact ⟨rfl, rfl, rfl⟩
  · split at h
    · cases h
      exact ⟨rfl, rfl, rfl⟩
    · cases h

theorem Ordered.timer (h : Ordered list) (ticks : Nat) :
    Ordered (LowpanContexts.timer list ticks) where
  cids := by
    have hcids := List.pairwise_map.mp h.cids
    refine List.pairwise_map.mpr (List.Pairwise.filterMap _ ?_ hcids)
    intro a b hne a' ha b' hb heq
    exact hne ((cid_age ha).1.symm.trans (heq.trans (cid_age hb).1))
  lengths := by
    refine List.Pairwise.filterMap _ ?_ h.lengths
    intro a b hle a' ha b' hb
    rw [(cid_age ha).2.1, (cid_age hb).2.1]
    exact hle
  padded := by
    intro ctx' hmem i hi
    obtain ⟨ctx, hctx, hage⟩ := List.mem_filterMap.mp hmem
    obtain ⟨-, hlength, hpfx⟩ := cid_age hage
    rw [hpfx]
    exact h.padded ctx hctx i (hlength ▸ hi)

/-! ## Entries by id -/

/-- The entry of an id. -/
def entryOf (list : List Context) (cid : Nat) : Option Context :=
  Keyed.lookup Context.cid cid list

theorem getById_eq (list : List Context) (id : UInt8) :
    getById list id = entryOf list (cidOf id) := rfl

/-- The entries without the one that is taken out. -/
def without (list : List Context) (cid : Nat) : List Context :=
  list.eraseP fun entry => entry.cid = cid

theorem entryOf_cons (entry : Context) (list : List Context) (cid : Nat) :
    entryOf (entry :: list) cid = if entry.cid = cid then some entry else entryOf list cid := by
  unfold entryOf Keyed.lookup
  rw [List.find?_cons]
  by_cases h : entry.cid = cid <;> simp [h]

theorem entryOf_eq_none {cid : Nat} :
    entryOf list cid = none ↔ ∀ entry ∈ list, entry.cid ≠ cid :=
  Keyed.lookup_eq_none

theorem entryOf_insert_self (h : ∀ entry ∈ list, entry.cid ≠ ctx.cid) :
    entryOf (insert ctx list) ctx.cid = some ctx := by
  induction list with
  | nil => rw [insert, entryOf_cons, if_pos rfl]
  | cons entry list ih =>
    unfold insert
    split
    · rw [entryOf_cons, if_pos rfl]
    · rw [entryOf_cons, if_neg (h entry (List.mem_cons_self ..))]
      exact ih fun other hmem => h other (List.mem_cons_of_mem _ hmem)

theorem entryOf_insert_ne {cid : Nat} (h : ctx.cid ≠ cid) :
    entryOf (insert ctx list) cid = entryOf list cid := by
  induction list with
  | nil => rw [insert, entryOf_cons, if_neg h]
  | cons entry list ih =>
    unfold insert
    split
    · rw [entryOf_cons ctx, if_neg h]
    · rw [entryOf_cons entry, entryOf_cons entry, ih]

theorem entryOf_without_ne {cid other : Nat} (h : cid ≠ other) :
    entryOf (without list cid) other = entryOf list other := by
  induction list with
  | nil => rfl
  | cons entry list ih =>
    unfold without at ih ⊢
    rw [List.eraseP_cons]
    by_cases hcid : entry.cid = cid
    · simp [hcid, entryOf_cons, h]
    · simp only [hcid, decide_false, cond_false]
      rw [entryOf_cons, entryOf_cons, ih]

/-- Once taken out, no other entry has the id. -/
theorem Ordered.fresh (h : Ordered list) (cid : Nat) :
    ∀ entry ∈ without list cid, entry.cid ≠ cid := by
  have hcids := h.cids
  clear h
  induction list with
  | nil => exact fun _ hmem => nomatch hmem
  | cons first list ih =>
    rw [List.map_cons, List.nodup_cons] at hcids
    unfold without at ih ⊢
    rw [List.eraseP_cons]
    by_cases hcid : first.cid = cid
    · simp only [hcid, decide_true, cond_true]
      intro entry hmem heq
      exact hcids.1 (hcid ▸ heq ▸ List.mem_map_of_mem hmem)
    · simp only [hcid, decide_false, cond_false]
      intro entry hmem
      rcases List.mem_cons.mp hmem with rfl | hmem
      · exact hcid
      · exact ih hcids.2 entry hmem

theorem without_of_none {cid : Nat} (h : entryOf list cid = none) : without list cid = list := by
  refine List.eraseP_of_forall_not fun entry hmem => ?_
  simpa using entryOf_eq_none.mp h entry hmem

/-- The timer ages the entry of an id. -/
theorem Ordered.entryOf_timer (h : Ordered list) (ticks cid : Nat) :
    entryOf (LowpanContexts.timer list ticks) cid = (entryOf list cid).bind (age ticks) := by
  have hcids := h.cids
  clear h
  induction list with
  | nil => rfl
  | cons entry list ih =>
    rw [List.map_cons, List.nodup_cons] at hcids
    have hrest := ih hcids.2
    unfold LowpanContexts.timer at hrest ⊢
    rw [List.filterMap_cons, entryOf_cons]
    cases hage : age ticks entry with
    | some aged =>
      dsimp only
      rw [entryOf_cons, (cid_age hage).1]
      split
      · exact hage.symm
      · exact hrest
    | none =>
      dsimp only
      split
      · next hcid =>
        have hnone : entryOf list cid = none := entryOf_eq_none.mpr fun other hmem heq =>
          hcids.1 (List.mem_map.mpr ⟨other, hmem, heq.trans hcid.symm⟩)
        rw [hrest, hnone]
        exact hage.symm
      · exact hrest

/-! ## Updates -/

section Update

variable (bitcopy) (alloc : Bool) (list) (cidFlags : UInt8) (lifetime : UInt16) (pfx : Address)
variable (len : Nat) (stable : Bool)

/-- What `lowpan_context_update` can do. -/
theorem update_eq :
    update bitcopy alloc list cidFlags lifetime pfx len stable =
      if lifetime = 0 then (0, without list (cidOf cidFlags))
      else if entryOf list (cidOf cidFlags) = none ∧ alloc = false then (-2, list)
      else (0, insert (contextOf bitcopy cidFlags lifetime pfx len stable)
        (without list (cidOf cidFlags))) := by
  unfold update
  dsimp only
  rw [getById_eq]
  cases hfound : entryOf list (cidOf cidFlags) with
  | some found => simp [without]
  | none => simp [without_of_none hfound]

end Update

/-- A copy into zeros has zeros behind it. -/
theorem padded_contextOf (hcopy : Copies bitcopy) (cidFlags : UInt8) (lifetime : UInt16)
    (pfx : Address) (len : Nat) (stable : Bool) (i : Nat) (hi : len ≤ i) :
    (contextOf bitcopy cidFlags lifetime pfx len stable).pfx.getMsbD i = false := by
  change (bitcopy 0 pfx len).getMsbD i = false
  rw [hcopy, if_neg (Nat.not_lt_of_le hi)]
  simp

theorem Ordered.step (hcopy : Copies bitcopy) (h : Ordered list) (op : Op) :
    Ordered (LowpanContexts.step bitcopy list op) := by
  cases op with
  | timer ticks => exact h.timer ticks
  | update alloc cidFlags lifetime pfx len stable =>
    have hout : Ordered (without list (cidOf cidFlags)) := h.sublist List.eraseP_sublist
    change Ordered (update bitcopy alloc list cidFlags lifetime pfx len stable).2
    rw [update_eq]
    split
    · exact hout
    · split
      · exact h
      · exact hout.insert (h.fresh _) (padded_contextOf hcopy cidFlags lifetime pfx len stable)

theorem Ordered.run (hcopy : Copies bitcopy) (h : Ordered list) (ops : List Op) :
    Ordered (LowpanContexts.run bitcopy list ops) := by
  induction ops generalizing list with
  | nil => exact h
  | cons op ops ih => exact ih (h.step hcopy op)

/-- The first match in a list with the longest first. -/
theorem Ordered.longest (h : Ordered list) (hequal : Compares bitsequal) (address : Address) :
    match getByAddress bitsequal list address with
    | some entry => entry ∈ list ∧ bitsequal entry.pfx address entry.length = true ∧
        ∀ other ∈ list, (∀ i < other.length, other.pfx.getMsbD i = address.getMsbD i) →
          other.length ≤ entry.length
    | none => ∀ entry ∈ list, ¬∀ i < entry.length, entry.pfx.getMsbD i = address.getMsbD i := by
  have hlengths := h.lengths
  clear h
  unfold getByAddress
  induction list with
  | nil => exact fun _ hmem => nomatch hmem
  | cons first list ih =>
    obtain ⟨hfirst, hrest⟩ := List.pairwise_cons.mp hlengths
    rw [List.find?_cons]
    cases hmatch : bitsequal first.pfx address first.length with
    | true =>
      refine ⟨List.mem_cons_self .., hmatch, fun other hmem _ => ?_⟩
      rcases List.mem_cons.mp hmem with rfl | hmem
      · exact Nat.le_refl _
      · exact hfirst other hmem
    | false =>
      have hno : ¬∀ i < first.length, first.pfx.getMsbD i = address.getMsbD i := fun hsame =>
        Bool.false_ne_true (hmatch.symm.trans ((hequal ..).mpr hsame))
      have hfound := ih hrest
      dsimp only
      split
      · next entry heq =>
        rw [heq] at hfound
        refine ⟨List.mem_cons_of_mem _ hfound.1, hfound.2.1, fun other hmem hsame => ?_⟩
        rcases List.mem_cons.mp hmem with rfl | hmem
        · exact absurd hsame hno
        · exact hfound.2.2 other hmem hsame
      · next heq =>
        rw [heq] at hfound
        intro entry hmem
        rcases List.mem_cons.mp hmem with rfl | hmem
        · exact hno
        · exact hfound entry hmem

/-! ## The two countdowns -/

/-- An entry after several timer calls. -/
def aged (entry : Option Context) (ticks : List Nat) : Option Context :=
  ticks.foldl (fun entry ticks => entry.bind (age ticks)) entry

theorem aged_none (ticks : List Nat) : aged none ticks = none := by
  induction ticks with
  | nil => rfl
  | cons first ticks ih => exact ih

theorem aged_cons (first : Nat) (ticks : List Nat) :
    aged (some ctx) (first :: ticks) = aged (age first ctx) ticks := rfl

/-- Before its lifetime is over an entry only gets older. -/
theorem aged_alive {ticks : List Nat} (h : ticks.sum < ctx.lifetime) :
    aged (some ctx) ticks = some { ctx with lifetime := ctx.lifetime - ticks.sum } := by
  induction ticks generalizing ctx with
  | nil => rfl
  | cons first ticks ih =>
    rw [List.sum_cons] at h
    have hage : age first ctx = some { ctx with lifetime := ctx.lifetime - first } :=
      if_pos (by omega)
    have hlater : ticks.sum < ctx.lifetime - first := by omega
    rw [aged_cons, hage, ih hlater, List.sum_cons, Nat.sub_sub]

/-- An entry that is expiring, when the time is over. -/
theorem aged_over {ticks : List Nat} (hexpiring : ctx.expiring = true) (hpos : 0 < ctx.lifetime)
    (h : ctx.lifetime ≤ ticks.sum) : aged (some ctx) ticks = none := by
  induction ticks generalizing ctx with
  | nil => exact absurd h (Nat.not_le_of_lt hpos)
  | cons first ticks ih =>
    rw [List.sum_cons] at h
    rw [aged_cons]
    by_cases hmore : ctx.lifetime > first
    · have hage : age first ctx = some { ctx with lifetime := ctx.lifetime - first } :=
        if_pos hmore
      have hleft : 0 < ctx.lifetime - first := by omega
      have hover : ctx.lifetime - first ≤ ticks.sum := by omega
      rw [hage]
      exact @ih { ctx with lifetime := ctx.lifetime - first } hexpiring hleft hover
    · have hage : age first ctx = none := by
        unfold age
        rw [if_neg hmore, hexpiring]
        rfl
      rw [hage, aged_none]

/-- An entry that is expiring is there until the time is over. -/
theorem isSome_aged_iff {ticks : List Nat} (hexpiring : ctx.expiring = true)
    (hpos : 0 < ctx.lifetime) : (aged (some ctx) ticks).isSome ↔ ticks.sum < ctx.lifetime := by
  constructor
  · intro hsome
    apply Classical.byContradiction
    intro hlong
    rw [aged_over hexpiring hpos (Nat.le_of_not_lt hlong)] at hsome
    cases hsome
  · intro hwithin
    rw [aged_alive hwithin]
    rfl

/-- Compression does not come back. -/
theorem compression_aged {ticks : List Nat} (h : aged (some ctx) ticks = some entry)
    (hcompression : entry.compression = true) :
    ctx.compression = true ∧ (ctx.expiring = false → ticks.sum < ctx.lifetime ∨ ticks = []) := by
  induction ticks generalizing ctx with
  | nil =>
    cases h
    exact ⟨hcompression, fun _ => Or.inr rfl⟩
  | cons first ticks ih =>
    rw [aged_cons] at h
    by_cases hmore : ctx.lifetime > first
    · have hage : age first ctx = some { ctx with lifetime := ctx.lifetime - first } :=
        if_pos hmore
      rw [hage] at h
      obtain ⟨hon, hlater⟩ := ih h
      refine ⟨hon, fun hexpiring => Or.inl ?_⟩
      rw [List.sum_cons]
      have hwithin : ticks.sum < ctx.lifetime - first ∨ ticks = [] := hlater hexpiring
      rcases hwithin with hwithin | rfl
      · omega
      · simpa using hmore
    · -- an entry that is kept here has lost its flag
      unfold age at h
      rw [if_neg hmore] at h
      split at h
      · exact absurd (ih h).1 Bool.false_ne_true
      · rw [aged_none] at h
        cases h

/-- The timer calls of a sequence. -/
def ticksOf (ops : List Op) : List Nat :=
  ops.filterMap fun
    | .timer ticks => some ticks
    | .update .. => none

/-- The ticks that go by. -/
def elapsed (ops : List Op) : Nat := (ticksOf ops).sum

/-- The operation is an update of this id. -/
def Updates (cid : Nat) : Op → Prop
  | .update _ cidFlags _ _ _ _ => cidOf cidFlags = cid
  | .timer _ => False

/-- Only the timer changes the entry of an id that is not updated. -/
theorem Ordered.entryOf_run (hcopy : Copies bitcopy) (h : Ordered list) {cid : Nat}
    {ops : List Op} (hops : ∀ op ∈ ops, ¬Updates cid op) :
    entryOf (LowpanContexts.run bitcopy list ops) cid = aged (entryOf list cid) (ticksOf ops) := by
  induction ops generalizing list with
  | nil => rfl
  | cons op ops ih =>
    have hrest := ih (h.step hcopy op) fun other hmem => hops other (List.mem_cons_of_mem _ hmem)
    refine hrest.trans ?_
    cases op with
    | timer ticks =>
      change aged (entryOf (LowpanContexts.timer list ticks) cid) _ = _
      rw [h.entryOf_timer]
      rfl
    | update alloc cidFlags lifetime pfx len stable =>
      have hother : cidOf cidFlags ≠ cid := hops _ (List.mem_cons_self ..)
      change aged (entryOf (update bitcopy alloc list cidFlags lifetime pfx len stable).2 cid) _
        = _
      rw [update_eq]
      split
      · exact congrArg (aged · _) (entryOf_without_ne hother)
      · split
        · rfl
        · have hnew : (contextOf bitcopy cidFlags lifetime pfx len stable).cid ≠ cid := hother
          exact congrArg (aged · _) ((entryOf_insert_ne hnew).trans (entryOf_without_ne hother))

/-- The entry of an id, in the list as it is when these operations have come after its last
update.  With the timer call in which the lifetime is over the further hour begins. -/
structure Timed (cidFlags : UInt8) (lifetime : UInt16) (ops : List Op) (list : List Context) :
    Prop where
  compressing : elapsed ops < lifetime.toNat * 600 →
    ∃ entry, getById list cidFlags = some entry ∧
      entry.compression = decide (cidFlags &&& 0x10 ≠ 0)
  ended : ∀ entry, getById list cidFlags = some entry → entry.compression = true →
    elapsed ops < lifetime.toNat * 600
  removed : ∀ before ticks after, ops = before ++ .timer ticks :: after →
    elapsed before < lifetime.toNat * 600 → lifetime.toNat * 600 ≤ elapsed before + ticks →
    ((getById list cidFlags).isSome ↔ elapsed after < 2 * 18000)

theorem Ordered.timed (hcopy : Copies bitcopy) (h : Ordered list) {cidFlags : UInt8}
    {lifetime : UInt16} {pfx : Address} {len : Nat} {stable : Bool} {ops : List Op}
    (hlifetime : lifetime ≠ 0) (hops : ∀ op ∈ ops, ¬Updates (cidOf cidFlags) op)
    (hentry : entryOf list (cidOf cidFlags)
      = some (contextOf bitcopy cidFlags lifetime pfx len stable)) :
    Timed cidFlags lifetime ops (LowpanContexts.run bitcopy list ops) := by
  have hpos : 0 < lifetime.toNat * 600 := by
    have hne : lifetime.toNat ≠ 0 := fun hzero => hlifetime (UInt16.toNat_inj.mp hzero)
    omega
  have hfound := h.entryOf_run hcopy hops
  rw [hentry] at hfound
  refine ⟨fun helapsed => ?_, fun entry hmem hon => ?_,
    fun before ticks after heq hbefore hover => ?_⟩
  · exact ⟨_, hfound.trans (aged_alive helapsed), rfl⟩
  · obtain ⟨-, hwithin⟩ := compression_aged (hfound.symm.trans hmem) hon
    rcases hwithin rfl with hwithin | hnone
    · exact hwithin
    · rw [elapsed, hnone]
      exact hpos
  · subst heq
    have hticks : ticksOf (before ++ .timer ticks :: after)
        = ticksOf before ++ ticks :: ticksOf after := by
      unfold ticksOf
      rw [List.filterMap_append, List.filterMap_cons]
    have hsplit : ∀ entry, aged entry (ticksOf before ++ ticks :: ticksOf after)
        = aged ((aged entry (ticksOf before)).bind (age ticks)) (ticksOf after) := by
      intro entry
      unfold aged
      rw [List.foldl_append, List.foldl_cons]
    have hexpired : ∀ ctx : Context, ctx.expiring = false → ctx.lifetime ≤ ticks →
        age ticks ctx
          = some { ctx with compression := false, expiring := true, lifetime := 2 * 18000 } := by
      intro ctx hfirst hshort
      unfold age
      rw [if_neg (Nat.not_lt_of_le hshort), hfirst]
      rfl
    have hshort : lifetime.toNat * 600 - (ticksOf before).sum ≤ ticks :=
      Nat.sub_le_of_le_add (Nat.add_comm _ _ ▸ hover)
    have halive := @aged_alive (contextOf bitcopy cidFlags lifetime pfx len stable) _ hbefore
    rw [getById_eq, hfound, hticks, hsplit, halive, Option.bind_some, hexpired _ rfl hshort]
    exact isSome_aged_iff rfl (Nat.zero_lt_succ _)

/-- The first bits of the source, the others as they were. -/
def copyBits (dst src : Address) (bits : Nat) : Address :=
  let mask : Address := BitVec.allOnes 128 <<< (128 - bits)
  src &&& mask ||| dst &&& ~~~mask

/-- The first bits, one by one. -/
def sameBits (a b : Address) (bits : Nat) : Bool :=
  (List.range bits).all fun i => a.getMsbD i == b.getMsbD i

/-- The bits of a mask of ones shifted to the left. -/
theorem getMsbD_ones (w i n : Nat) :
    (BitVec.allOnes w <<< n).getMsbD i = decide (i + n < w) := by
  simp

theorem copies_copyBits : Copies copyBits := by
  intro dst src bits i
  by_cases hin : i < 128
  · unfold copyBits
    rw [BitVec.getMsbD_or, BitVec.getMsbD_and, BitVec.getMsbD_and, BitVec.getMsbD_not,
      getMsbD_ones]
    have hmask : i + (128 - bits) < 128 ↔ i < bits := by omega
    by_cases hfirst : i < bits <;> simp [hin, hmask, hfirst]
  · have hout : ∀ word : Address, word.getMsbD i = false := fun word =>
      BitVec.getMsbD_of_ge word i (Nat.le_of_not_lt hin)
    rw [hout, hout, hout, ite_self]

theorem compares_sameBits : Compares sameBits := by
  intro a b bits
  simp [sameBits]

end LowpanContexts
