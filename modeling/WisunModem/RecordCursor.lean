import WisunModem.ByteStore

/-!
# Records that are written and read at a cursor

A writer lays fields into a store and moves its cursor on by hand, and a reader takes them from
where its own cursor is.  Both note where each field lies.

* `Follows.bind`, `Follows.foldlM` — a reader that follows a writer step by step follows it as
  a whole;
* `Finishes.reads` — a reader that follows a writer to the last field gets what was written, from
  where it was written;
* `write_outside` — a writer that stays inside leaves everything behind the record alone.
-/

namespace RecordCursor

open ByteStore

universe u

/-- What a writer does at its cursor. -/
inductive Act (F : Type) where
  /-- The bytes of a field; the cursor stays where it is. -/
  | copy (f : F) (bs : List UInt8)
  /-- So many zeros; the cursor stays where it is. -/
  | fill (n : Nat)
  | skip (n : Nat)
deriving DecidableEq

/-- Where a field lies and how long it is. -/
structure Spot (F : Type) where
  field : F
  offset : Nat
  length : Nat
deriving DecidableEq

variable {F : Type}

/-! ## Writers -/

/-- What is in the store when the writer has finished. -/
def write : List (Act F) → Nat → Store → Store
  | [], _, m => m
  | .copy _ bs :: acts, pos, m => write acts pos (store m pos bs)
  | .fill n :: acts, pos, m => write acts pos (store m pos (List.replicate n 0))
  | .skip n :: acts, pos, m => write acts (pos + n) m

/-- Where the cursor is then. -/
def stop : List (Act F) → Nat → Nat
  | [], pos => pos
  | .skip n :: acts, pos => stop acts (pos + n)
  | _ :: acts, pos => stop acts pos

/-- Where it has put the fields. -/
def spots : List (Act F) → Nat → List (Spot F)
  | [], _ => []
  | .copy f bs :: acts, pos => ⟨f, pos, bs.length⟩ :: spots acts pos
  | .fill _ :: acts, pos => spots acts pos
  | .skip n :: acts, pos => spots acts (pos + n)

/-- Everything it writes ends before `len`. -/
def Inside (len : Nat) : List (Act F) → Nat → Prop
  | [], _ => True
  | .copy _ bs :: acts, pos => pos + bs.length ≤ len ∧ Inside len acts pos
  | .fill n :: acts, pos => pos + n ≤ len ∧ Inside len acts pos
  | .skip n :: acts, pos => Inside len acts (pos + n)

/-- A field, and the cursor moves behind it. -/
def put (f : F) (bs : List UInt8) : List (Act F) := [.copy f bs, .skip bs.length]

/-- Zeros, and the cursor moves behind them. -/
def zeros (n : Nat) : List (Act F) := [.fill n, .skip n]

@[simp] theorem inside_put (len : Nat) (f : F) (bs : List UInt8) (pos : Nat) :
    Inside len (put f bs) pos ↔ pos + bs.length ≤ len := by
  simp [put, Inside]

@[simp] theorem stop_put (f : F) (bs : List UInt8) (pos : Nat) :
    stop (put f bs) pos = pos + bs.length := rfl

@[simp] theorem inside_zeros (len n pos : Nat) :
    Inside len (zeros n : List (Act F)) pos ↔ pos + n ≤ len := by
  simp [zeros, Inside]

@[simp] theorem stop_zeros (n pos : Nat) : stop (zeros n : List (Act F)) pos = pos + n := rfl

theorem write_append (as bs : List (Act F)) (pos : Nat) (m : Store) :
    write (as ++ bs) pos m = write bs (stop as pos) (write as pos m) := by
  induction as generalizing pos m with
  | nil => rfl
  | cons a as ih => cases a <;> exact ih _ _

@[simp] theorem stop_append (as bs : List (Act F)) (pos : Nat) :
    stop (as ++ bs) pos = stop bs (stop as pos) := by
  induction as generalizing pos with
  | nil => rfl
  | cons a as ih => cases a <;> exact ih _

theorem spots_append (as bs : List (Act F)) (pos : Nat) :
    spots (as ++ bs) pos = spots as pos ++ spots bs (stop as pos) := by
  induction as generalizing pos with
  | nil => rfl
  | cons a as ih =>
      cases a with
      | copy f cs => exact congrArg (⟨f, pos, cs.length⟩ :: ·) (ih pos)
      | fill n => exact ih pos
      | skip n => exact ih (pos + n)

@[simp] theorem inside_append (len : Nat) (as bs : List (Act F)) (pos : Nat) :
    Inside len (as ++ bs) pos ↔ Inside len as pos ∧ Inside len bs (stop as pos) := by
  induction as generalizing pos with
  | nil => simp [Inside, stop]
  | cons a as ih => cases a <;> simp [Inside, stop, ih, and_assoc]

/-- What lies before the cursor is not written again. -/
theorem write_before (acts : List (Act F)) {pos i : Nat} (hi : i < pos) (m : Store) :
    write acts pos m i = m i := by
  induction acts generalizing pos m with
  | nil => rfl
  | cons a acts ih =>
      cases a with
      | copy f bs => exact (ih hi _).trans (store_apart (.inl hi))
      | fill n => exact (ih hi _).trans (store_apart (.inl hi))
      | skip n => exact ih (by omega) m

/-- **Behind the record** nothing is written. -/
theorem write_outside {len : Nat} {acts : List (Act F)} {pos i : Nat}
    (hinside : Inside len acts pos) (hi : len ≤ i) (m : Store) : write acts pos m i = m i := by
  induction acts generalizing pos m with
  | nil => rfl
  | cons a acts ih =>
      cases a with
      | copy f bs =>
          obtain ⟨hle, hrest⟩ := hinside
          exact (ih hrest _).trans (store_apart (.inr (by omega)))
      | fill n =>
          obtain ⟨hle, hrest⟩ := hinside
          exact (ih hrest _).trans (store_apart (.inr (by
            rw [List.length_replicate]
            omega)))
      | skip n => exact ih hinside m

/-- A longer record has room for as much. -/
theorem Inside.mono {len len' : Nat} {acts : List (Act F)} {pos : Nat} (h : Inside len acts pos)
    (hle : len ≤ len') : Inside len' acts pos := by
  induction acts generalizing pos with
  | nil => trivial
  | cons a acts ih =>
      cases a with
      | copy f bs => exact ⟨h.1.trans hle, ih h.2⟩
      | fill n => exact ⟨h.1.trans hle, ih h.2⟩
      | skip n => exact ih h

/-! ## Readers -/

/-- The cursor of a reader, and the fields it has looked at. -/
structure Reading (F : Type) where
  pos : Nat
  seen : List (Spot F)
deriving DecidableEq

abbrev Reader (F : Type) := ReaderT Store (StateM (Reading F))

/-- The bytes of a field; the cursor stays where it is. -/
def look (f : F) (n : Nat) : Reader F (List UInt8) := fun m r =>
  (bytes m r.pos n, { r with seen := r.seen ++ [⟨f, r.pos, n⟩] })

def skip (n : Nat) : Reader F Unit := fun _ r => ((), { r with pos := r.pos + n })

/-- A field, and the cursor moves behind it. -/
def take (f : F) (n : Nat) : Reader F (List UInt8) := do
  let bs ← look f n
  skip n
  return bs

theorem take_seen (f : F) (n : Nat) (m : Store) (r : Reading F) :
    ⟨f, r.pos, n⟩ ∈ (take f n m r).2.seen := by
  change _ ∈ r.seen ++ [Spot.mk f r.pos n]
  simp

/-- A reader that starts at the beginning of a store. -/
def runReader {α : Type} (r : Reader F α) (m : Store) : α × Reading F := r m ⟨0, []⟩

/-! ## Readers that follow writers -/

/-- These bytes are all that is written between the first and the last position of the
cursor. -/
def Lays (acts : List (Act F)) (bs : List UInt8) : Prop :=
  (∀ pos m, Holds (write acts pos m) pos bs) ∧ ∀ pos, stop acts pos = pos + bs.length

theorem Lays.append {as cs : List (Act F)} {bs ds : List UInt8} (h : Lays as bs)
    (h' : Lays cs ds) : Lays (as ++ cs) (bs ++ ds) := by
  constructor
  · intro pos m
    rw [write_append, h.2 pos, holds_append]
    refine ⟨(h.1 pos m).congr fun i _ hi => write_before cs hi _, h'.1 _ _⟩
  · intro pos
    rw [stop_append, h.2, h'.2, List.length_append, Nat.add_assoc]

theorem lays_nil : Lays ([] : List (Act F)) [] :=
  ⟨fun _ _ => holds_nil _ _, fun _ => rfl⟩

theorem lays_put (f : F) (bs : List UInt8) : Lays (put f bs) bs :=
  ⟨fun pos m => holds_store m pos bs, fun _ => rfl⟩

theorem lays_zeros (n : Nat) : Lays (zeros n : List (Act F)) (List.replicate n 0) :=
  ⟨fun pos m => holds_store m pos _, fun _ => by rw [List.length_replicate]; rfl⟩

/-- Given what the writer has laid, the reader returns `x`, ends where the writer ended, and has
looked for fields only where the writer has put them. -/
def Follows {α : Type} (acts : List (Act F)) (r : Reader F α) (x : α) : Prop :=
  ∃ bs, Lays acts bs ∧ ∀ m pos seen, Holds m pos bs →
    ∃ ss ⊆ spots acts pos, r m ⟨pos, seen⟩ = (x, ⟨pos + bs.length, seen ++ ss⟩)

variable {α β : Type} {as bs : List (Act F)}

theorem Follows.pure (x : α) : Follows ([] : List (Act F)) (pure x) x := by
  refine ⟨[], lays_nil, fun m pos seen _ => ⟨[], List.Subset.refl _, ?_⟩⟩
  simp only [List.append_nil, List.length_nil, Nat.add_zero]
  rfl

/-- One after the other. -/
theorem Follows.bind {r : Reader F α} {k : α → Reader F β} {x : α} {y : β}
    (h : Follows as r x) (h' : Follows bs (k x) y) : Follows (as ++ bs) (r >>= k) y := by
  obtain ⟨cs, hlays, hread⟩ := h
  obtain ⟨ds, hlays', hread'⟩ := h'
  refine ⟨cs ++ ds, hlays.append hlays', fun m pos seen hholds => ?_⟩
  obtain ⟨hfirst, hsecond⟩ := (holds_append ..).mp hholds
  obtain ⟨ss, hss, hr⟩ := hread m pos seen hfirst
  obtain ⟨ss', hss', hr'⟩ := hread' m (pos + cs.length) (seen ++ ss) hsecond
  refine ⟨ss ++ ss', ?_, ?_⟩
  · rw [spots_append, hlays.2]
    exact List.append_subset.mpr ⟨List.subset_append_of_subset_left _ hss,
      List.subset_append_of_subset_right _ hss'⟩
  · change (k (r m ⟨pos, seen⟩).1) m (r m ⟨pos, seen⟩).2 = _
    rw [hr]
    dsimp only
    rw [hr', List.length_append, Nat.add_assoc, List.append_assoc]

/-- The last step returns what the reader makes of it. -/
theorem Follows.last {r : Reader F α} {x : α} (h : Follows as r x) (f : α → β) :
    Follows as (r >>= fun y => Pure.pure (f y)) (f x) := by
  have hbind := Follows.bind (k := fun y => Pure.pure (f y)) h (Follows.pure (f x))
  rw [List.append_nil] at hbind
  exact hbind

/-- A field that is looked at where it was put. -/
theorem follows_take (f : F) (cs : List UInt8) : Follows (put f cs) (take f cs.length) cs := by
  refine ⟨cs, lays_put f cs, fun m pos seen hholds => ⟨_, List.Subset.refl _, ?_⟩⟩
  change (bytes m pos cs.length, _) = _
  rw [show bytes m pos cs.length = cs from hholds]
  rfl

/-- What is passed over as a whole. -/
theorem follows_pass {acts : List (Act F)} {cs : List UInt8} (h : Lays acts cs) :
    Follows acts (skip cs.length) () :=
  ⟨cs, h, fun m pos seen _ => ⟨[], List.nil_subset _, by
    rw [List.append_nil]
    rfl⟩⟩

theorem follows_skip (n : Nat) : Follows (zeros n : List (Act F)) (skip n) () := by
  have hpass := follows_pass (lays_zeros n : Lays (zeros n : List (Act F)) _)
  rw [List.length_replicate] at hpass
  exact hpass

/-- A loop follows a loop. -/
theorem Follows.foldlM {ι : Type} {acts : ι → List (Act F)} {step : α → ι → Reader F α}
    {next : α → ι → α} (hstep : ∀ i x, Follows (acts i) (step x i) (next x i)) (is : List ι)
    (x : α) : Follows (is.flatMap acts) (is.foldlM step x) (is.foldl next x) := by
  induction is generalizing x with
  | nil => exact Follows.pure x
  | cons i is ih =>
      rw [List.flatMap_cons, List.foldlM_cons, List.foldl_cons]
      exact (hstep i x).bind (ih (next x i))

/-- The same of the last part of a record, where it does not matter any more where the cursors
end. -/
def Finishes {α : Type} (acts : List (Act F)) (r : Reader F α) (x : α) : Prop :=
  ∃ bs, (∀ pos m, Holds (write acts pos m) pos bs) ∧ ∀ m pos seen, Holds m pos bs →
    ∃ ss ⊆ spots acts pos, ∃ pos', r m ⟨pos, seen⟩ = (x, ⟨pos', seen ++ ss⟩)

theorem Follows.finishes {r : Reader F α} {x : α} (h : Follows as r x) : Finishes as r x := by
  obtain ⟨cs, hlays, hread⟩ := h
  refine ⟨cs, hlays.1, fun m pos seen hholds => ?_⟩
  obtain ⟨ss, hss, hr⟩ := hread m pos seen hholds
  exact ⟨ss, hss, _, hr⟩

/-- The last part comes last. -/
theorem Follows.bindFinishes {r : Reader F α} {k : α → Reader F β} {x : α} {y : β}
    (h : Follows as r x) (h' : Finishes bs (k x) y) : Finishes (as ++ bs) (r >>= k) y := by
  obtain ⟨cs, hlays, hread⟩ := h
  obtain ⟨ds, hlays', hread'⟩ := h'
  refine ⟨cs ++ ds, fun pos m => ?_, fun m pos seen hholds => ?_⟩
  · rw [write_append, hlays.2 pos, holds_append]
    exact ⟨(hlays.1 pos m).congr fun i _ hi => write_before bs hi _, hlays' _ _⟩
  obtain ⟨hfirst, hsecond⟩ := (holds_append ..).mp hholds
  obtain ⟨ss, hss, hr⟩ := hread m pos seen hfirst
  obtain ⟨ss', hss', pos', hr'⟩ := hread' m (pos + cs.length) (seen ++ ss) hsecond
  refine ⟨ss ++ ss', ?_, pos', ?_⟩
  · rw [spots_append, hlays.2]
    exact List.append_subset.mpr ⟨List.subset_append_of_subset_left _ hss,
      List.subset_append_of_subset_right _ hss'⟩
  · change (k (r m ⟨pos, seen⟩).1) m (r m ⟨pos, seen⟩).2 = _
    rw [hr]
    dsimp only
    rw [hr', List.append_assoc]

/-- A reader that only passes over what is left. -/
theorem finishes_pass {r : Reader F α} {x : α} (acts : List (Act F))
    (hpass : ∀ m pos seen, ∃ pos', r m ⟨pos, seen⟩ = (x, ⟨pos', seen⟩)) : Finishes acts r x := by
  refine ⟨[], fun _ _ => holds_nil _ _, fun m pos seen _ => ⟨[], List.nil_subset _, ?_⟩⟩
  obtain ⟨pos', hr⟩ := hpass m pos seen
  exact ⟨pos', by rw [hr, List.append_nil]⟩

/-- **What was written** is read, from where it was written. -/
theorem Finishes.reads {r : Reader F α} {x : α} (h : Finishes as r x) (m : Store) :
    (runReader r (write as 0 m)).1 = x ∧
      (runReader r (write as 0 m)).2.seen ⊆ spots as 0 := by
  obtain ⟨cs, hlays, hread⟩ := h
  obtain ⟨ss, hss, pos', hr⟩ := hread (write as 0 m) 0 [] (hlays 0 m)
  unfold runReader
  rw [hr]
  exact ⟨rfl, hss⟩

end RecordCursor
