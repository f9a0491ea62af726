import WisunModem.GtkTable

/-!
# The table of group keys over time

Whatever calls of `sec_prot_keys.c` follow each other on an empty table, the keys that
are set are numbered without a gap in the order of their installation, and one of them
at most is active.

* `packed_clear`, `packed_set` — the numbers when a key is cleared or set;
* `Sound.call` — one call;
* `table_sound` — any calls.
-/

namespace GtkTable

namespace Gtks

/-- The numbers given are those from 0 on, each to one key. -/
def Packed (orders : Fin 4 → Option (Fin 4)) : Prop :=
  ∀ i, ∀ o ∈ orders i, (∀ j, o ∈ orders j → j = i) ∧ ∀ o' < o, ∃ j, o' ∈ orders j

instance (orders : Fin 4 → Option (Fin 4)) : Decidable (Packed orders) :=
  inferInstanceAs (Decidable (∀ i, ∀ o ∈ orders i, _))

theorem packed_clear : ∀ ord : Fin 4 → Option (Fin 4), Packed ord → ∀ i,
    Packed (compress (Function.update ord i none)) ∧
      compress (Function.update ord i none) i = none := by
  decide +kernel

theorem packed_set : ∀ ord : Fin 4 → Option (Fin 4), Packed ord → ∀ i, ord i = none →
    Packed (Function.update ord i (some (Fin.ofNat 4 (lastOrder ord)))) := by
  decide +kernel

/-- What holds of the table between two calls. -/
structure Sound (t : Gtks) : Prop where
  packed : Packed t.orders
  set : ∀ i, (t.gtk i).status = .active → (t.gtk i).set = true
  once : ∀ i j, (t.gtk i).status = .active → (t.gtk j).status = .active → i = j

variable {t t' : Gtks}

/-- A key that is active was so before, and is as much set. -/
def Passive (k k' : GtkKey) : Prop :=
  k'.status = .active → k.status = .active ∧ k'.set = k.set

theorem Sound.passive (h : t.Sound) (hkeys : ∀ i, Passive (t.gtk i) (t'.gtk i))
    (hpacked : Packed t'.orders) : t'.Sound where
  packed := hpacked
  set i hi := by
    obtain ⟨hactive, hset⟩ := hkeys i hi
    rw [hset]
    exact h.set i hactive
  once i j hi hj := h.once i j (hkeys i hi).1 (hkeys j hj).1

theorem passive_put {i : Fin 4} {k : GtkKey} (hk : Passive (t.gtk i) k) (j : Fin 4) :
    Passive (t.gtk j) ((t.put i k).gtk j) := by
  by_cases hj : j = i
  · subst hj
    rw [put_gtk_self]
    exact hk
  · rw [put_gtk_of_ne t k hj]
    exact fun hactive => ⟨hactive, rfl⟩

theorem Sound.clear (h : t.Sound) (i : Fin 4) : (t.gtkClear i).Sound := by
  refine h.passive (fun j => ?_) ?_
  · unfold gtkClear
    rw [installOrderUpdate_moved _ j]
    refine passive_put (fun hactive => ?_) j
    cases hactive
  · rw [orders_gtkClear]
    exact (packed_clear t.orders h.packed i).1

theorem sound_gtkSet (h : t.Sound) {i : Fin 4} {gtk : BitVec 128} {lifetime : UInt32}
    (hset : t.gtkSet i gtk lifetime = some t') : t'.Sound := by
  have horders := orders_gtkSet hset
  obtain ⟨hpacked, hnone⟩ := packed_clear t.orders h.packed i
  unfold gtkSet at hset
  split at hset
  · cases hset
  · cases hset
    refine (h.clear i).passive (passive_put fun hactive => ?_) ?_
    · cases hactive
    · rw [horders]
      exact packed_set _ hpacked i hnone

/-- One key changes, which is set as before. -/
theorem Sound.put (h : t.Sound) (i : Fin 4) {k : GtkKey} (hset : k.set = (t.gtk i).set)
    (horder : k.installOrder = (t.gtk i).installOrder)
    (hactive : k.status = .active → (t.gtk i).status = .active) : (t.put i k).Sound := by
  refine h.passive (passive_put fun hne => ⟨hactive hne, hset⟩) ?_
  rw [orders_put, hset, horder]
  exact (Function.update_eq_self i t.orders).symm ▸ h.packed

theorem Sound.status (h : t.Sound) (i : Fin 4) {status : Status} (hother : status ≠ .active) :
    (t.put i { t.gtk i with status := status }).Sound :=
  h.put i rfl rfl fun hactive => absurd hactive hother

theorem Sound.mark (h : t.Sound) (changed : Bool) : (t.mark changed).Sound :=
  ⟨h.packed, h.set, h.once⟩

theorem Sound.fresh (h : t.Sound) (i : Fin 4) : (t.gtkStatusFreshSet i).Sound := by
  unfold gtkStatusFreshSet
  split
  · exact (h.status i fun hne => by cases hne).mark true
  · exact h

theorem Sound.foldl {ι : Type} {f : Gtks → ι → Gtks} (hf : ∀ t i, t.Sound → (f t i).Sound)
    (is : List ι) (h : t.Sound) : (is.foldl f t).Sound := by
  induction is generalizing t with
  | nil => exact h
  | cons i is ih => exact ih (hf t i h)

theorem Sound.old (h : t.Sound) (i : Fin 4) : (t.activeToOld i).Sound := by
  unfold activeToOld
  split
  · exact (h.status i fun hne => by cases hne).mark true
  · exact h

/-- Behind the loop no key is active that it has come by. -/
theorem foldl_activeToOld_active {is : List (Fin 4)} {j : Fin 4}
    (hactive : ((is.foldl activeToOld t).gtk j).status = .active) :
    (t.gtk j).status = .active ∧ j ∉ is := by
  induction is generalizing t with
  | nil => exact ⟨hactive, List.not_mem_nil⟩
  | cons i is ih =>
      obtain ⟨hstep, hrest⟩ := ih hactive
      unfold activeToOld at hstep
      split at hstep
      · by_cases hj : j = i
        · subst hj
          rw [mark_gtk, put_gtk_self] at hstep
          cases hstep
        · rw [mark_gtk, put_gtk_of_ne _ _ hj] at hstep
          exact ⟨hstep, by simp [hj, hrest]⟩
      · rename_i hother
        refine ⟨hstep, ?_⟩
        rw [List.mem_cons, not_or]
        exact ⟨fun hj => hother (hj ▸ hstep), hrest⟩

theorem Sound.activate (h : t.Sound) {i : Fin 4} (hset : t.gtkStatusActiveSet i = some t') :
    t'.Sound := by
  unfold gtkStatusActiveSet at hset
  split at hset
  · rename_i hfresh
    cases hset
    have hold := h.foldl (fun _ i ht => ht.old i) (List.finRange 4)
    have hkept := foldl_activeToOld_fresh hfresh.2 (List.finRange 4)
    have hnone (j : Fin 4) : (((List.finRange 4).foldl activeToOld t).gtk j).status ≠ .active :=
      fun hactive => (foldl_activeToOld_active hactive).2 (List.mem_finRange j)
    generalize (List.finRange 4).foldl activeToOld t = u at hold hkept hnone
    have honly (j : Fin 4)
        (hactive : ((u.put i { u.gtk i with status := .active }).gtk j).status = .active) :
        j = i := by
      by_contra hj
      rw [put_gtk_of_ne _ _ hj] at hactive
      exact hnone j hactive
    refine ⟨?_, fun j hj => ?_, fun j k hj hk => (honly j hj).trans (honly k hk).symm⟩
    · rw [orders_put]
      exact (Function.update_eq_self i u.orders).symm ▸ hold.packed
    · obtain rfl := honly j hj
      rw [put_gtk_self, hkept]
      exact hfresh.1
  · cases hset

/-! ## Any calls -/

/-- The calls on the table, but those which put back what was stored. -/
inductive Call
  | gtkSet (i : Fin 4) (gtk : BitVec 128) (lifetime : UInt32)
  | gtkClear (i : Fin 4)
  | gtksClear
  | updatedReset
  | expirytimeSet (i : Fin 4) (expirytime : UInt64)
  | statusFreshSet (i : Fin 4)
  | statusAllFreshSet
  | statusActiveSet (i : Fin 4)
  | statusActiveToFreshSet
  | lifetimeDecrement (i : Fin 4) (currentTime : UInt64) (seconds : UInt16) (enable : Bool)
  | hashUpdate (gtkhash : Fin 4 → BitVec 64)

variable (hash : BitVec 128 → BitVec 64)

/-- A call which fails leaves the table as it is. -/
def call (t : Gtks) : Call → Gtks
  | .gtkSet i gtk lifetime => (t.gtkSet i gtk lifetime).getD t
  | .gtkClear i => t.gtkClear i
  | .gtksClear => t.gtksClear
  | .updatedReset => t.updatedReset
  | .expirytimeSet i expirytime => t.gtkExpirytimeSet i expirytime
  | .statusFreshSet i => t.gtkStatusFreshSet i
  | .statusAllFreshSet => t.gtkStatusAllFreshSet
  | .statusActiveSet i => (t.gtkStatusActiveSet i).getD t
  | .statusActiveToFreshSet => t.gtkStatusActiveToFreshSet
  | .lifetimeDecrement i currentTime seconds enable =>
      t.gtkLifetimeDecrement i currentTime seconds enable
  | .hashUpdate gtkhash => gtksHashUpdate hash t gtkhash

theorem sound_init : gtksInit.Sound where
  packed i o ho := by cases ho
  set i hi := by cases hi
  once i j hi _ := by cases hi

theorem Sound.call (h : t.Sound) (c : Call) : (t.call hash c).Sound := by
  cases c with
  | gtkSet i gtk lifetime =>
      unfold Gtks.call
      dsimp only
      cases hset : t.gtkSet i gtk lifetime with
      | none => exact h
      | some t' => exact sound_gtkSet h hset
  | gtkClear i => exact h.clear i
  | gtksClear => exact sound_init
  | updatedReset => exact ⟨h.packed, h.set, h.once⟩
  | expirytimeSet i expirytime =>
      unfold Gtks.call gtkExpirytimeSet
      dsimp only
      split
      · exact h.put i rfl rfl id
      · exact h
  | statusFreshSet i => exact h.fresh i
  | statusAllFreshSet => exact h.foldl (fun _ i ht => ht.fresh i) _
  | statusActiveSet i =>
      unfold Gtks.call
      dsimp only
      cases hset : t.gtkStatusActiveSet i with
      | none => exact h
      | some t' => exact h.activate hset
  | statusActiveToFreshSet =>
      unfold Gtks.call gtkStatusActiveToFreshSet
      dsimp only
      split
      · exact h
      · unfold gtkStatusSet
        split
        · exact (h.status _ fun hne => by cases hne).mark _
        · exact h
  | lifetimeDecrement i currentTime seconds enable =>
      apply Sound.mark
      exact h.put i rfl rfl id
  | hashUpdate gtkhash =>
      refine h.foldl (fun t i ht => ?_) _
      unfold gtkHashUpdate
      split
      · split
        · exact ht.clear i
        · split
          · exact ht.fresh i
          · exact ht.clear i
      · exact ht

/-- **The table over time.**  After any calls on an empty table the keys that are set are
numbered from 0 on without a gap, and one at most is active, which is set. -/
theorem table_sound (calls : List Call) : (calls.foldl (Gtks.call hash) gtksInit).Sound :=
  sound_init.foldl (fun _ c ht => ht.call hash c) calls

end Gtks

end GtkTable
