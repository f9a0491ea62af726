import Mathlib.Tactic.Common
import Mathlib.Data.Fintype.Pi
import Mathlib.Data.Fintype.Option

/-!
# The table of group keys

The four GTKs of `sec_prot_gtk_keys_t` with all that is kept of each, and the functions of
`sec_prot_keys.c` that change them.  Each has a status and a place in the order in which the keys
were installed; clearing a key closes the gap it leaves in that order.

* `gtkClear_other`, `gtkSet_other` — of other keys only the install order moves;
* `orders_gtkClear`, `orders_gtkSet` — how it moves depends on the install orders alone;
* `Flagged` — what each function owes to the `updated` flag.
-/

namespace GtkTable

/-- `GTK_STATUS_NEW` and so on, two bits. -/
inductive Status where
  | new
  | fresh
  | active
  | old
deriving DecidableEq, Repr

def Status.toBits : Status → Nat
  | .new => 0
  | .fresh => 1
  | .active => 2
  | .old => 3

/-- What two bits hold of a number. -/
def Status.ofBits (n : Nat) : Status :=
  match n % 4 with
  | 0 => .new
  | 1 => .fresh
  | 2 => .active
  | _ => .old

theorem Status.ofBits_toBits (s : Status) : Status.ofBits s.toBits = s := by cases s <;> rfl

theorem Status.toBits_lt (s : Status) : s.toBits < 4 := by cases s <;> decide

/-- The state as far as it lasts: an active key is made fresh when the node starts again. -/
def Status.lasting : Status → Status
  | .active => .fresh
  | s => s

/-- `gtk_key_t`. -/
structure GtkKey where
  key : BitVec 128
  expirytime : UInt64
  lifetime : UInt32
  status : Status
  installOrder : Fin 4
  set : Bool
deriving DecidableEq, Repr

/-- All bytes zero. -/
def GtkKey.zero : GtkKey :=
  { key := 0, expirytime := 0, lifetime := 0, status := .new, installOrder := 0, set := false }

/-- `sec_prot_gtk_keys_t`. -/
structure Gtks where
  gtk : Fin 4 → GtkKey
  updated : Bool
deriving DecidableEq

/-- `sec_prot_keys_gtks_init`. -/
def gtksInit : Gtks := { gtk := fun _ => .zero, updated := false }

namespace Gtks

/-- One key is replaced. -/
def put (t : Gtks) (i : Fin 4) (k : GtkKey) : Gtks :=
  { t with gtk := Function.update t.gtk i k }

@[simp] theorem put_gtk_self (t : Gtks) (i : Fin 4) (k : GtkKey) : (t.put i k).gtk i = k :=
  Function.update_self ..

theorem put_gtk_of_ne (t : Gtks) (k : GtkKey) {i j : Fin 4} (hne : j ≠ i) :
    (t.put i k).gtk j = t.gtk j :=
  Function.update_of_ne hne ..

/-- The `updated` flag goes up if the condition holds. -/
def mark (t : Gtks) (changed : Bool) : Gtks := { t with updated := t.updated || changed }

@[simp] theorem mark_gtk (t : Gtks) (changed : Bool) : (t.mark changed).gtk = t.gtk := rfl

/-- `sec_prot_keys_gtks_clear`: the flag that was just set is cleared with the rest. -/
def gtksClear (_ : Gtks) : Gtks := gtksInit

/-- `sec_prot_keys_gtks_updated_reset`. -/
def updatedReset (t : Gtks) : Gtks := { t with updated := false }

/-- `sec_prot_keys_gtk_count`. -/
def gtkCount (t : Gtks) : Nat := (List.finRange 4).countP fun i => (t.gtk i).set

/-! ## Install orders -/

/-- The install orders of the keys that are set. -/
def orders (t : Gtks) (i : Fin 4) : Option (Fin 4) :=
  if (t.gtk i).set then some (t.gtk i).installOrder else none

theorem orders_put (t : Gtks) (i : Fin 4) (k : GtkKey) :
    (t.put i k).orders =
      Function.update t.orders i (if k.set then some k.installOrder else none) := by
  funext j
  by_cases hj : j = i
  · subst hj
    simp [orders]
  · simp [orders, put_gtk_of_ne t k hj, Function.update_of_ne hj]

/-- `sec_prot_keys_gtk_install_order_last_get`. -/
def lastOrder (orders : Fin 4 → Option (Fin 4)) : Nat :=
  (List.finRange 4).foldl
    (fun n i =>
      match orders i with
      | none => n
      | some o => if n ≤ o.val then o.val + 1 else n)
    0

/-- The table that `sec_prot_keys_gtk_install_order_update` makes: of keys of one order it holds
the last. -/
def orderedIndexes (orders : Fin 4 → Option (Fin 4)) : Fin 4 → Option (Fin 4) :=
  (List.finRange 4).foldl
    (fun table i =>
      match orders i with
      | none => table
      | some o => Function.update table o (some i))
    fun _ => none

/-- One turn of its second loop: the key that comes next gets the next order. -/
def renumber (table : Fin 4 → Option (Fin 4)) (s : Gtks × Fin 4) (o : Fin 4) : Gtks × Fin 4 :=
  match table o with
  | none => s
  | some i =>
      ((s.1.put i { s.1.gtk i with installOrder := s.2 }).mark
        ((s.1.gtk i).installOrder != s.2), s.2 + 1)

/-- `sec_prot_keys_gtk_install_order_update`. -/
def installOrderUpdate (t : Gtks) : Gtks :=
  ((List.finRange 4).foldl (renumber (orderedIndexes t.orders)) (t, 0)).1

/-! ## Setting and clearing -/

/-- `sec_prot_keys_gtk_clear`. -/
def gtkClear (t : Gtks) (i : Fin 4) : Gtks :=
  ((t.put i { t.gtk i with set := false, lifetime := 0, status := .new, key := 0 }).mark
    true).installOrderUpdate

/-- `sec_prot_keys_gtk_set`; the same key again is no update. -/
def gtkSet (t : Gtks) (i : Fin 4) (gtk : BitVec 128) (lifetime : UInt32) : Option Gtks :=
  if (t.gtk i).set ∧ (t.gtk i).key = gtk then none
  else
    let t := t.gtkClear i
    some ((t.put i { t.gtk i with
      set := true, lifetime := lifetime, status := .new,
      installOrder := Fin.ofNat 4 (lastOrder t.orders), key := gtk }).mark true)

/-- `sec_prot_keys_gtk_expirytime_set`. -/
def gtkExpirytimeSet (t : Gtks) (i : Fin 4) (expirytime : UInt64) : Gtks :=
  if (t.gtk i).set then t.put i { t.gtk i with expirytime := expirytime } else t

/-- `sec_prot_keys_gtk_status_set`. -/
def gtkStatusSet (t : Gtks) (i : Fin 4) (status : Status) : Gtks :=
  if (t.gtk i).set then
    (t.put i { t.gtk i with status := status }).mark ((t.gtk i).status != status)
  else t

/-- `sec_prot_keys_gtk_install_order_set`. -/
def gtkInstallOrderSet (t : Gtks) (i : Fin 4) (order : Fin 4) : Gtks :=
  if (t.gtk i).set then
    (t.put i { t.gtk i with installOrder := order }).mark ((t.gtk i).installOrder != order)
  else t

/-! ## States and lifetimes -/

/-- `sec_prot_keys_gtk_status_fresh_set`: an active key stays active, and an old one old. -/
def gtkStatusFreshSet (t : Gtks) (i : Fin 4) : Gtks :=
  if (t.gtk i).set ∧ (t.gtk i).status = .new then
    (t.put i { t.gtk i with status := .fresh }).mark true
  else t

/-- `sec_prot_keys_gtk_status_all_fresh_set`. -/
def gtkStatusAllFreshSet (t : Gtks) : Gtks := (List.finRange 4).foldl gtkStatusFreshSet t

/-- A key that was active so far becomes old. -/
def activeToOld (t : Gtks) (i : Fin 4) : Gtks :=
  if (t.gtk i).status = .active then
    (t.put i { t.gtk i with status := .old }).mark true
  else t

/-- `sec_prot_keys_gtk_status_active_set`; that a fresh key becomes active is no update. -/
def gtkStatusActiveSet (t : Gtks) (i : Fin 4) : Option Gtks :=
  if (t.gtk i).set ∧ (t.gtk i).status = .fresh then
    let t := (List.finRange 4).foldl activeToOld t
    some (t.put i { t.gtk i with status := .active })
  else none

/-- `sec_prot_keys_gtk_status_active_get`. -/
def gtkStatusActiveGet (t : Gtks) : Option (Fin 4) :=
  (List.finRange 4).find? fun i => (t.gtk i).status = .active

/-- `sec_prot_keys_gtk_status_active_to_fresh_set`. -/
def gtkStatusActiveToFreshSet (t : Gtks) : Gtks :=
  match t.gtkStatusActiveGet with
  | none => t
  | some i => t.gtkStatusSet i .fresh

/-- `sec_prot_keys_gtk_lifetime_decrement`; `enable` is `gtk_update_enable`. -/
def gtkLifetimeDecrement (t : Gtks) (i : Fin 4) (currentTime : UInt64) (seconds : UInt16)
    (enable : Bool) : Gtks :=
  let lifetime := if seconds.toUInt32 < (t.gtk i).lifetime then
    (t.gtk i).lifetime - seconds.toUInt32 else 0
  let expirytime := currentTime + lifetime.toUInt64
  let diff := if expirytime ≤ (t.gtk i).expirytime then (t.gtk i).expirytime - expirytime
    else expirytime - (t.gtk i).expirytime
  (t.put i { t.gtk i with lifetime := lifetime }).mark (300 < diff && enable)

/-- One key in `sec_prot_keys_gtks_hash_update`: `hash` is `sec_prot_lib_gtkhash_generate`, and
zero stands for a hash that is not set. -/
def gtkHashUpdate (hash : BitVec 128 → BitVec 64) (gtkhash : Fin 4 → BitVec 64) (t : Gtks)
    (i : Fin 4) : Gtks :=
  if (t.gtk i).set then
    if gtkhash i = 0 then t.gtkClear i
    else if hash (t.gtk i).key = gtkhash i then t.gtkStatusFreshSet i
    else t.gtkClear i
  else t

/-- What `sec_prot_keys_gtks_hash_update` does to the table. -/
def gtksHashUpdate (hash : BitVec 128 → BitVec 64) (t : Gtks) (gtkhash : Fin 4 → BitVec 64) :
    Gtks :=
  (List.finRange 4).foldl (gtkHashUpdate hash gtkhash) t

/-- What `sec_prot_keys_gtk_install_order_last_index_get` finds. -/
def lastIndex (t : Gtks) : Option (Fin 4) :=
  ((List.finRange 4).foldl
    (fun (s : Nat × Option (Fin 4)) i =>
      match t.orders i with
      | none => s
      | some o => if s.1 ≤ o.val then (o.val + 1, some i) else s)
    (0, none)).2

/-- `sec_prot_keys_gtk_install_order_last_lifetime_get`. -/
def lastLifetime (t : Gtks) : UInt32 :=
  match t.lastIndex with
  | none => 0
  | some i => (t.gtk i).lifetime

/-- `sec_prot_keys_gtk_install_order_first_index_get`. -/
def firstIndex (t : Gtks) : Option (Fin 4) :=
  (List.finRange 4).find? fun i => (t.gtk i).set ∧ (t.gtk i).installOrder = 0

/-! ## What happens to the other keys -/

/-- Everything but the install order. -/
def Moved (k k' : GtkKey) : Prop := k' = { k with installOrder := k'.installOrder }

theorem Moved.refl (k : GtkKey) : Moved k k := rfl

theorem Moved.trans {k₁ k₂ k₃ : GtkKey} (h : Moved k₁ k₂) (h' : Moved k₂ k₃) : Moved k₁ k₃ := by
  unfold Moved at *
  rw [h', h]

/-- The turns of the second loop move install orders and nothing else. -/
theorem foldl_renumber_moved (table : Fin 4 → Option (Fin 4)) (os : List (Fin 4))
    (s : Gtks × Fin 4) (j : Fin 4) :
    Moved (s.1.gtk j) ((os.foldl (renumber table) s).1.gtk j) := by
  induction os generalizing s with
  | nil => exact .refl _
  | cons o os ih =>
      refine Moved.trans ?_ (ih (renumber table s o))
      unfold renumber
      split
      · exact .refl _
      · rename_i i _
        by_cases hj : j = i
        · subst hj
          simp [Moved]
        · simp only [mark_gtk, put_gtk_of_ne _ _ hj]
          exact .refl _

theorem installOrderUpdate_moved (t : Gtks) (j : Fin 4) :
    Moved (t.gtk j) (t.installOrderUpdate.gtk j) :=
  foldl_renumber_moved ..

/-- **Of the others** only the install order moves when a key is cleared, -/
theorem gtkClear_other (t : Gtks) {i j : Fin 4} (hne : j ≠ i) :
    Moved (t.gtk j) ((t.gtkClear i).gtk j) := by
  have hmoved := installOrderUpdate_moved ((t.put i
    { t.gtk i with set := false, lifetime := 0, status := .new, key := 0 }).mark true) j
  rw [mark_gtk, put_gtk_of_ne _ _ hne] at hmoved
  exact hmoved

/-- and also when one is set. -/
theorem gtkSet_other {t t' : Gtks} {i j : Fin 4} {gtk : BitVec 128} {lifetime : UInt32}
    (h : t.gtkSet i gtk lifetime = some t') (hne : j ≠ i) : Moved (t.gtk j) (t'.gtk j) := by
  unfold gtkSet at h
  split at h
  · cases h
  · cases h
    rw [mark_gtk, put_gtk_of_ne _ _ hne]
    exact gtkClear_other t hne

/-! ## Install orders by themselves -/

/-- What a turn of the second loop does to the install orders. -/
def renumberOrders (table : Fin 4 → Option (Fin 4)) (s : (Fin 4 → Option (Fin 4)) × Fin 4)
    (o : Fin 4) : (Fin 4 → Option (Fin 4)) × Fin 4 :=
  match table o with
  | none => s
  | some i => (Function.update s.1 i ((s.1 i).map fun _ => s.2), s.2 + 1)

/-- Closes the gaps in the install orders. -/
def compress (orders : Fin 4 → Option (Fin 4)) : Fin 4 → Option (Fin 4) :=
  ((List.finRange 4).foldl (renumberOrders (orderedIndexes orders)) (orders, 0)).1

theorem orders_renumber (table : Fin 4 → Option (Fin 4)) (s : Gtks × Fin 4) (o : Fin 4) :
    ((renumber table s o).1.orders, (renumber table s o).2) =
      renumberOrders table (s.1.orders, s.2) o := by
  unfold renumber renumberOrders
  split
  · rfl
  · rename_i i _
    have hmark : ∀ (t : Gtks) (b : Bool), (t.mark b).orders = t.orders := fun _ _ => rfl
    simp only [hmark, orders_put, Prod.mk.injEq, and_true]
    congr 1
    unfold orders
    split <;> rfl

theorem orders_foldl_renumber (table : Fin 4 → Option (Fin 4)) (os : List (Fin 4))
    (s : Gtks × Fin 4) :
    (os.foldl (renumber table) s).1.orders =
      (os.foldl (renumberOrders table) (s.1.orders, s.2)).1 := by
  induction os generalizing s with
  | nil => rfl
  | cons o os ih =>
      rw [List.foldl_cons, List.foldl_cons, ih, orders_renumber]

/-- `installOrderUpdate` works on the install orders as `compress` does. -/
theorem orders_installOrderUpdate (t : Gtks) :
    t.installOrderUpdate.orders = compress t.orders :=
  orders_foldl_renumber ..

/-- **The install orders** when a key is cleared, -/
theorem orders_gtkClear (t : Gtks) (i : Fin 4) :
    (t.gtkClear i).orders = compress (Function.update t.orders i none) := by
  unfold gtkClear
  rw [orders_installOrderUpdate]
  congr 1
  exact orders_put t i _

/-- and when one is set. -/
theorem orders_gtkSet {t t' : Gtks} {i : Fin 4} {gtk : BitVec 128} {lifetime : UInt32}
    (h : t.gtkSet i gtk lifetime = some t') :
    t'.orders = Function.update (compress (Function.update t.orders i none)) i
      (some (Fin.ofNat 4 (lastOrder (compress (Function.update t.orders i none))))) := by
  unfold gtkSet at h
  split at h
  · cases h
  · cases h
    rw [← orders_gtkClear]
    exact orders_put ..

/-! ## Fields that are set afterwards -/

variable {t : Gtks} {i : Fin 4}

theorem gtkSet_of_unset (h : (t.gtk i).set = false) (gtk : BitVec 128) (lifetime : UInt32) :
    ∃ t', t.gtkSet i gtk lifetime = some t' ∧ (t'.gtk i).set = true ∧ (t'.gtk i).key = gtk ∧
      (t'.gtk i).lifetime = lifetime := by
  unfold gtkSet
  rw [if_neg (by simp [h])]
  exact ⟨_, rfl, by simp, by simp, by simp⟩

theorem orders_gtkExpirytimeSet (expirytime : UInt64) :
    (t.gtkExpirytimeSet i expirytime).orders = t.orders := by
  unfold gtkExpirytimeSet
  split
  · rw [orders_put]
    exact Function.update_eq_self i t.orders
  · rfl

theorem orders_gtkStatusSet (status : Status) : (t.gtkStatusSet i status).orders = t.orders := by
  unfold gtkStatusSet
  split
  · change (t.put i _).orders = _
    rw [orders_put]
    exact Function.update_eq_self i t.orders
  · rfl

theorem orders_gtkInstallOrderSet (h : (t.gtk i).set = true) (order : Fin 4) :
    (t.gtkInstallOrderSet i order).orders = Function.update t.orders i (some order) := by
  unfold gtkInstallOrderSet
  rw [if_pos h]
  change (t.put i _).orders = _
  rw [orders_put]
  simp [h]

/-! ## What the flag says -/

/-- The key that is stored is this one: it is there or not, and if it is, its value, its state as
far as it lasts, and its install order are the same. -/
def KeySame (k k' : GtkKey) : Prop :=
  k'.set = k.set ∧ (k.set = true →
    k'.key = k.key ∧ k'.status.lasting = k.status.lasting ∧ k'.installOrder = k.installOrder)

instance (k k' : GtkKey) : Decidable (KeySame k k') :=
  inferInstanceAs (Decidable (_ ∧ (_ → _ ∧ _ ∧ _)))

theorem KeySame.refl (k : GtkKey) : KeySame k k := ⟨rfl, fun _ => ⟨rfl, rfl, rfl⟩⟩

theorem KeySame.trans {k₁ k₂ k₃ : GtkKey} (h : KeySame k₁ k₂) (h' : KeySame k₂ k₃) :
    KeySame k₁ k₃ := by
  refine ⟨h'.1.trans h.1, fun hset => ?_⟩
  obtain ⟨hkey, hstatus, horder⟩ := h.2 hset
  obtain ⟨hkey', hstatus', horder'⟩ := h'.2 (h.1.trans hset)
  exact ⟨hkey'.trans hkey, hstatus'.trans hstatus, horder'.trans horder⟩

theorem KeySame.symm {k k' : GtkKey} (h : KeySame k k') : KeySame k' k := by
  refine ⟨h.1.symm, fun hset => ?_⟩
  obtain ⟨hkey, hstatus, horder⟩ := h.2 (h.1.symm.trans hset)
  exact ⟨hkey.symm, hstatus.symm, horder.symm⟩

/-- The same GTKs are in both tables. -/
def Same (t t' : Gtks) : Prop := ∀ i, KeySame (t.gtk i) (t'.gtk i)

instance (t t' : Gtks) : Decidable (Same t t') :=
  inferInstanceAs (Decidable (∀ i, KeySame (t.gtk i) (t'.gtk i)))

theorem Same.refl (t : Gtks) : Same t t := fun _ => .refl _

theorem Same.trans {t₁ t₂ t₃ : Gtks} (h : Same t₁ t₂) (h' : Same t₂ t₃) : Same t₁ t₃ :=
  fun i => (h i).trans (h' i)

theorem Same.symm {t t' : Gtks} (h : Same t t') : Same t' t := fun i => (h i).symm

/-- The flag goes up when the keys change, and stays up. -/
def Flagged (t t' : Gtks) : Prop := t'.updated = false → t.updated = false ∧ Same t t'

theorem Flagged.refl (t : Gtks) : Flagged t t := fun h => ⟨h, .refl t⟩

theorem Flagged.trans {t₁ t₂ t₃ : Gtks} (h : Flagged t₁ t₂) (h' : Flagged t₂ t₃) :
    Flagged t₁ t₃ := by
  intro hup
  obtain ⟨hup₂, hsame₂⟩ := h' hup
  obtain ⟨hup₁, hsame₁⟩ := h hup₂
  exact ⟨hup₁, hsame₁.trans hsame₂⟩

/-- With the flag up there is nothing to show. -/
theorem flagged_of_updated {t t' : Gtks} (h : t'.updated = true) : Flagged t t' := by
  intro hdown
  rw [h] at hdown
  cases hdown

theorem Flagged.foldl {ι : Type} {f : Gtks → ι → Gtks} (hf : ∀ t i, Flagged t (f t i))
    (is : List ι) (t : Gtks) : Flagged t (is.foldl f t) := by
  induction is generalizing t with
  | nil => exact .refl t
  | cons i is ih => exact (hf t i).trans (ih (f t i))

/-- One key changes, and the flag goes up if it is no longer the same. -/
theorem flagged_put (t : Gtks) (i : Fin 4) (k : GtkKey) (changed : Bool)
    (hk : changed = false → KeySame (t.gtk i) k) : Flagged t ((t.put i k).mark changed) := by
  intro hdown
  obtain ⟨hup, hchanged⟩ := Bool.or_eq_false_iff.mp (show (t.updated || changed) = false from hdown)
  refine ⟨hup, fun j => ?_⟩
  by_cases hj : j = i
  · subst hj
    rw [mark_gtk, put_gtk_self]
    exact hk hchanged
  · rw [mark_gtk, put_gtk_of_ne t k hj]
    exact .refl _

theorem mark_false (t : Gtks) : t.mark false = t := by
  simp [mark]

/-- One key changes in what is not stored. -/
theorem flagged_put_same (t : Gtks) (i : Fin 4) (k : GtkKey) (hk : KeySame (t.gtk i) k) :
    Flagged t (t.put i k) := by
  have hput := flagged_put t i k false fun _ => hk
  rw [mark_false] at hput
  exact hput

theorem flagged_foldl_renumber (table : Fin 4 → Option (Fin 4)) (os : List (Fin 4))
    (s : Gtks × Fin 4) : Flagged s.1 (os.foldl (renumber table) s).1 := by
  induction os generalizing s with
  | nil => exact .refl _
  | cons o os ih =>
      refine Flagged.trans ?_ (ih (renumber table s o))
      unfold renumber
      split
      · exact .refl _
      · refine flagged_put s.1 _ _ _ fun hsame => ⟨rfl, fun _ => ⟨rfl, rfl, ?_⟩⟩
        simpa using (bne_eq_false_iff_eq.mp hsame).symm

theorem flagged_installOrderUpdate (t : Gtks) : Flagged t t.installOrderUpdate :=
  flagged_foldl_renumber _ _ (t, 0)

/-- Clearing a key leaves the flag up. -/
theorem gtkClear_updated (t : Gtks) (i : Fin 4) : (t.gtkClear i).updated = true := by
  by_contra hdown
  have hbefore := (flagged_installOrderUpdate _ (by simpa [gtkClear] using hdown)).1
  revert hbefore
  simp [mark]

theorem flagged_gtkSet {t t' : Gtks} {i : Fin 4} {gtk : BitVec 128} {lifetime : UInt32}
    (h : t.gtkSet i gtk lifetime = some t') : Flagged t t' := by
  unfold gtkSet at h
  split at h
  · cases h
  · cases h
    exact flagged_of_updated (by simp [mark])

theorem flagged_gtkExpirytimeSet (t : Gtks) (i : Fin 4) (expirytime : UInt64) :
    Flagged t (t.gtkExpirytimeSet i expirytime) := by
  unfold gtkExpirytimeSet
  split
  · exact flagged_put_same t i _ ⟨rfl, fun _ => ⟨rfl, rfl, rfl⟩⟩
  · exact .refl t

theorem flagged_gtkStatusSet (t : Gtks) (i : Fin 4) (status : Status) :
    Flagged t (t.gtkStatusSet i status) := by
  unfold gtkStatusSet
  split
  · refine flagged_put t i _ _ fun hsame => ⟨rfl, fun _ => ⟨rfl, ?_, rfl⟩⟩
    rw [bne_eq_false_iff_eq.mp hsame]
  · exact .refl t

theorem flagged_gtkInstallOrderSet (t : Gtks) (i order : Fin 4) :
    Flagged t (t.gtkInstallOrderSet i order) := by
  unfold gtkInstallOrderSet
  split
  · refine flagged_put t i _ _ fun hsame => ⟨rfl, fun _ => ⟨rfl, rfl, ?_⟩⟩
    rw [bne_eq_false_iff_eq.mp hsame]
  · exact .refl t

theorem flagged_gtkStatusFreshSet (t : Gtks) (i : Fin 4) : Flagged t (t.gtkStatusFreshSet i) := by
  unfold gtkStatusFreshSet
  split
  · exact flagged_of_updated (by simp [mark])
  · exact .refl t

theorem flagged_activeToOld (t : Gtks) (i : Fin 4) : Flagged t (t.activeToOld i) := by
  unfold activeToOld
  split
  · exact flagged_of_updated (by simp [mark])
  · exact .refl t

/-- Making old keys of active ones leaves a fresh key alone. -/
theorem foldl_activeToOld_fresh {t : Gtks} {i : Fin 4} (h : (t.gtk i).status = .fresh)
    (is : List (Fin 4)) : (is.foldl activeToOld t).gtk i = t.gtk i := by
  induction is generalizing t with
  | nil => rfl
  | cons j is ih =>
      have hstep : (t.activeToOld j).gtk i = t.gtk i := by
        unfold activeToOld
        split
        · rename_i hactive
          have hne : i ≠ j := by
            rintro rfl
            rw [h] at hactive
            cases hactive
          rw [mark_gtk, put_gtk_of_ne _ _ hne]
        · rfl
      rw [List.foldl_cons, ih (hstep ▸ h), hstep]

/-- A fresh key that becomes active is the same as far as it is stored. -/
theorem flagged_gtkStatusActiveSet {t t' : Gtks} {i : Fin 4}
    (h : t.gtkStatusActiveSet i = some t') : Flagged t t' := by
  unfold gtkStatusActiveSet at h
  split at h
  · rename_i hfresh
    cases h
    have hkept := foldl_activeToOld_fresh hfresh.2 (List.finRange 4)
    refine (Flagged.foldl flagged_activeToOld (List.finRange 4) t).trans
      (flagged_put_same _ i _ ?_)
    rw [hkept]
    exact ⟨rfl, fun _ => ⟨rfl, by rw [hfresh.2]; rfl, rfl⟩⟩
  · cases h

/-- And the other way round. -/
theorem same_gtkStatusActiveToFreshSet (t : Gtks) : Same t t.gtkStatusActiveToFreshSet := by
  unfold gtkStatusActiveToFreshSet
  split
  · exact .refl t
  · rename_i i hactive
    have hstatus : (t.gtk i).status = .active := by
      simpa using List.find?_some hactive
    unfold gtkStatusSet
    split
    · intro j
      by_cases hj : j = i
      · subst hj
        rw [mark_gtk, put_gtk_self]
        exact ⟨rfl, fun _ => ⟨rfl, by rw [hstatus]; rfl, rfl⟩⟩
      · rw [mark_gtk, put_gtk_of_ne _ _ hj]
        exact .refl _
    · exact .refl t

theorem flagged_gtkLifetimeDecrement (t : Gtks) (i : Fin 4) (currentTime : UInt64)
    (seconds : UInt16) (enable : Bool) :
    Flagged t (t.gtkLifetimeDecrement i currentTime seconds enable) :=
  flagged_put t i _ _ fun _ => ⟨rfl, fun _ => ⟨rfl, rfl, rfl⟩⟩

theorem flagged_gtkHashUpdate (hash : BitVec 128 → BitVec 64) (gtkhash : Fin 4 → BitVec 64)
    (t : Gtks) (i : Fin 4) : Flagged t (gtkHashUpdate hash gtkhash t i) := by
  unfold gtkHashUpdate
  split
  · split
    · exact flagged_of_updated (gtkClear_updated t i)
    · split
      · exact flagged_gtkStatusFreshSet t i
      · exact flagged_of_updated (gtkClear_updated t i)
  · exact .refl t

end Gtks

end GtkTable
