import WisunModem.DaoAssignment
import WisunModem.DaoReceiver

/-!
# The DAO that arrives

What the packer writes is at most 1280 bytes long, and the receiver applies each transit to
the targets that were written before it in its group.  Together with the assignment of path
control this holds exactly where the look ahead is not misled.
-/

namespace RplDao

/-! ## Reading what was written -/

/-- What a target is heard as. -/
def Target.heard (t : Target) : List Heard :=
  .target (bitcopy0 t.pfx t.prefixLen) t.prefixLen ::
    if t.descriptorPresent then [.descriptor (common_write_32_bit t.descriptor)] else []

/-- What a transit is read as. -/
def Transit.path (r : Transit) : Path where
  external := r.external
  pathControl := r.pathControl
  pathSequence := r.pathSequence
  pathLifetime := r.pathLifetime
  parent := r.parent.map (·.toList)

/-- Each transit of a group, with all targets of the group. -/
def Group.heard (g : Group) : List (Path × List Heard) :=
  g.transits.map fun r => (r.path, g.targets.flatMap Target.heard)

theorem getElem?_mid (pre x post : List UInt8) {k : Nat} (h : k < x.length) :
    (pre ++ (x ++ post))[pre.length + k]? = x[k]? := by
  rw [List.getElem?_append_right (Nat.le_add_right _ _), Nat.add_sub_cancel_left,
    List.getElem?_append_left h]

theorem bytesAt_mid (pre x post : List UInt8) {k n : Nat} (h : k + n ≤ x.length) :
    bytesAt (pre ++ (x ++ post)) (pre.length + k) n = some ((x.drop k).take n) := by
  unfold bytesAt
  rw [if_pos (by simp only [List.length_append]; omega), List.drop_append, List.drop_eq_nil_of_le
    (Nat.le_add_right _ _), Nat.add_sub_cancel_left, List.nil_append, List.drop_append_of_le_length
    (by omega), List.take_append_of_le_length (by simp only [List.length_drop]; omega)]

theorem length_bitcopy0 (source : Vector UInt8 16) (bits : Nat) (h : bits ≤ 128) :
    (bitcopy0 source bits).length = (bits + 7) / 8 := by
  unfold bitcopy0
  rw [List.length_append, List.length_take, Vector.length_toList]
  split
  · rw [List.length_nil]
    omega
  · rw [List.length_singleton]
    omega

/-- The target option itself, without the descriptor. -/
def prefixOption (t : Target) : List UInt8 :=
  [5, .ofNat (2 + (t.prefixLen.val + 7) / 8), 0, .ofNat t.prefixLen.val] ++
    bitcopy0 t.pfx t.prefixLen

def descriptorOption (t : Target) : List UInt8 :=
  if t.descriptorPresent then [9, 4] ++ common_write_32_bit t.descriptor else []

theorem write_target_eq (t : Target) :
    rpl_downward_write_target t = prefixOption t ++ descriptorOption t := by
  unfold rpl_downward_write_target prefixOption descriptorOption
  rw [List.append_assoc]

theorem length_prefixOption (t : Target) :
    (prefixOption t).length = 2 + (2 + (t.prefixLen.val + 7) / 8) := by
  have hlt := t.prefixLen.isLt
  unfold prefixOption
  rw [List.length_append, length_bitcopy0 _ _ (by omega)]
  simp only [List.length_cons, List.length_nil]
  omega

theorem heardFrom_prefixOption (t : Target) (pre post : List UInt8) {stop : Nat}
    (h : pre.length + (prefixOption t).length ≤ stop) :
    heardFrom (pre ++ (prefixOption t ++ post)) stop pre.length =
      (heardFrom (pre ++ (prefixOption t ++ post)) stop
        (pre.length + (prefixOption t).length)).map
        (.target (bitcopy0 t.pfx t.prefixLen) t.prefixLen :: ·) := by
  have hlt := t.prefixLen.isLt
  have hlen := length_prefixOption t
  have htype : (pre ++ (prefixOption t ++ post))[pre.length]? = some 5 :=
    getElem?_mid _ _ _ (k := 0) (by omega)
  have hsize : (pre ++ (prefixOption t ++ post))[pre.length + 1]? =
      some (.ofNat (2 + (t.prefixLen.val + 7) / 8)) := getElem?_mid _ _ _ (by omega)
  have hbits : (pre ++ (prefixOption t ++ post))[pre.length + 3]? =
      some (.ofNat t.prefixLen.val) := getElem?_mid _ _ _ (by omega)
  have hsizeNat : (UInt8.ofNat (2 + (t.prefixLen.val + 7) / 8)).toNat =
      2 + (t.prefixLen.val + 7) / 8 := by
    rw [UInt8.toNat_ofNat']
    exact Nat.mod_eq_of_lt (by omega)
  have hbitsNat : (UInt8.ofNat t.prefixLen.val).toNat = t.prefixLen.val := by
    rw [UInt8.toNat_ofNat']
    exact Nat.mod_eq_of_lt (by omega)
  have hvalid : ¬ (UInt8.ofNat t.prefixLen.val > 128 ∨
      ((UInt8.ofNat t.prefixLen.val).toNat : Int) >
        (((UInt8.ofNat (2 + (t.prefixLen.val + 7) / 8)).toNat : Int) - 2) * 8) := by
    rw [hsizeNat, hbitsNat, gt_iff_lt, UInt8.lt_iff_toNat_lt, hbitsNat]
    simp only [UInt8.reduceToNat]
    omega
  have hpfx : bytesAt (pre ++ (prefixOption t ++ post)) (pre.length + 4)
      ((t.prefixLen.val + 7) / 8) = some (bitcopy0 t.pfx t.prefixLen) := by
    rw [bytesAt_mid _ _ _ (by omega)]
    have hcopy := length_bitcopy0 t.pfx t.prefixLen (by omega)
    exact congrArg some (List.take_of_length_le (by
      show (bitcopy0 t.pfx t.prefixLen).length ≤ _
      omega))
  rw [heardFrom, if_pos (by omega), htype]
  simp only [hsize, hbits, if_neg hvalid, hlen]
  rw [if_neg (by decide), if_pos trivial, hbitsNat, hpfx, hsizeNat]

theorem heardFrom_descriptorOption (t : Target) (pre post : List UInt8) {stop : Nat}
    (h : pre.length + (descriptorOption t).length ≤ stop) :
    heardFrom (pre ++ (descriptorOption t ++ post)) stop pre.length =
      (heardFrom (pre ++ (descriptorOption t ++ post)) stop
        (pre.length + (descriptorOption t).length)).map
        ((if t.descriptorPresent then [.descriptor (common_write_32_bit t.descriptor)] else [])
          ++ ·) := by
  unfold descriptorOption at *
  cases hdesc : t.descriptorPresent with
  | false =>
      simp
  | true =>
      simp only [hdesc, if_true] at h ⊢
      have hlen : ([9, 4] ++ common_write_32_bit t.descriptor).length = 6 := rfl
      have htype : (pre ++ ([9, 4] ++ common_write_32_bit t.descriptor ++ post))[pre.length]? =
          some 9 := getElem?_mid _ _ _ (k := 0) (by omega)
      have hsize : (pre ++ ([9, 4] ++ common_write_32_bit t.descriptor ++ post))[pre.length + 1]? =
          some 4 := getElem?_mid _ _ _ (by omega)
      have hvalue : bytesAt (pre ++ ([9, 4] ++ common_write_32_bit t.descriptor ++ post))
          (pre.length + 2) 4 = some (common_write_32_bit t.descriptor) := by
        rw [bytesAt_mid _ _ _ (by omega)]
        rfl
      rw [heardFrom, if_pos (by omega), htype]
      simp only [hsize, hvalue, hlen]
      rfl
/-- A target is heard as it was written. -/
theorem heardFrom_target (t : Target) (pre post : List UInt8) {stop : Nat}
    (h : pre.length + (rpl_downward_write_target t).length ≤ stop) :
    heardFrom (pre ++ (rpl_downward_write_target t ++ post)) stop pre.length =
      (heardFrom (pre ++ (rpl_downward_write_target t ++ post)) stop
        (pre.length + (rpl_downward_write_target t).length)).map (t.heard ++ ·) := by
  rw [write_target_eq, List.length_append] at *
  have hprefix := @heardFrom_prefixOption t pre (descriptorOption t ++ post) stop (by omega)
  have hdescriptor := @heardFrom_descriptorOption t (pre ++ prefixOption t) post stop (by
    rw [List.length_append]
    omega)
  rw [List.append_assoc, hprefix]
  rw [List.append_assoc, List.length_append] at hdescriptor
  rw [hdescriptor, Option.map_map, Nat.add_assoc]
  rfl

/-- The targets of a group, one after the other. -/
theorem heardFrom_targets (ts : List Target) (pre post : List UInt8) :
    heardFrom (pre ++ (ts.flatMap rpl_downward_write_target ++ post))
        (pre.length + (ts.flatMap rpl_downward_write_target).length) pre.length =
      some (ts.flatMap Target.heard) := by
  induction ts generalizing pre with
  | nil =>
      rw [heardFrom, if_neg (by simp)]
      rfl
  | cons t ts ih =>
      have hrest := ih (pre ++ rpl_downward_write_target t)
      rw [List.flatMap_cons, List.append_assoc, heardFrom_target t _ _ (by
        rw [List.length_append]
        omega)]
      rw [List.append_assoc, List.length_append, Nat.add_assoc] at hrest
      rw [List.length_append, hrest]
      rfl

/-! ## Transits -/

variable {storing : Bool}

theorem length_write_transit {r : Transit} (hparent : r.parent.isSome = !storing) :
    (rpl_downward_write_transit r).length = if storing then 6 else 22 := by
  unfold rpl_downward_write_transit
  cases hr : r.parent with
  | none =>
      rw [hr] at hparent
      have hstoring : storing = true := by simpa using hparent
      rw [hstoring]
      rfl
  | some parent =>
      rw [hr] at hparent
      have hstoring : storing = false := by simpa using hparent
      rw [hstoring]
      simp [Option.map, Vector.length_toList]

/-- A transit is applied to the targets of its group. -/
theorem process_transit {r : Transit} (hparent : r.parent.isSome = !storing) (ts : List Target)
    (pre mid post : List UInt8) :
    rpl_downward_process_targets_for_transit storing
        (pre ++ (ts.flatMap rpl_downward_write_target ++
          (mid ++ (rpl_downward_write_transit r ++ post))))
        pre.length (pre.length + (ts.flatMap rpl_downward_write_target).length)
        (pre.length + (ts.flatMap rpl_downward_write_target).length + mid.length) =
      some [(r.path, ts.flatMap Target.heard)] := by
  have hheard := heardFrom_targets ts pre (mid ++ (rpl_downward_write_transit r ++ post))
  have hlen := length_write_transit hparent
  have hsix : 6 ≤ (rpl_downward_write_transit r).length := by
    rw [hlen]
    split <;> omega
  have hread : ∀ {k : Nat}, k < (rpl_downward_write_transit r).length →
      (pre ++ (ts.flatMap rpl_downward_write_target ++
        (mid ++ (rpl_downward_write_transit r ++ post))))[
          pre.length + (ts.flatMap rpl_downward_write_target).length + mid.length + k]? =
        (rpl_downward_write_transit r)[k]? := by
    intro k hk
    have hmid := getElem?_mid (pre ++ ts.flatMap rpl_downward_write_target ++ mid) _ post hk
    simpa only [List.append_assoc, List.length_append, Nat.add_assoc] using hmid
  have hparentAt : storing = false → bytesAt (pre ++ (ts.flatMap rpl_downward_write_target ++
        (mid ++ (rpl_downward_write_transit r ++ post))))
      (pre.length + (ts.flatMap rpl_downward_write_target).length + mid.length + 6) 16 =
        r.parent.map (·.toList) := by
    intro hstoring
    rw [hstoring] at hlen hparent
    have hmid := bytesAt_mid (pre ++ ts.flatMap rpl_downward_write_target ++ mid)
      (rpl_downward_write_transit r) post (k := 6) (n := 16) (by rw [hlen]; decide)
    simp only [List.append_assoc, List.length_append, Nat.add_assoc] at hmid ⊢
    rw [hmid]
    obtain ⟨parent, hr⟩ := Option.isSome_iff_exists.mp hparent
    unfold rpl_downward_write_transit
    rw [hr]
    exact congrArg some (List.take_of_length_le (Nat.le_of_eq parent.length_toList))
  unfold rpl_downward_process_targets_for_transit
  rw [hread (k := 1) (by omega), hread (k := 2) (by omega), hread (k := 3) (by omega),
    hread (k := 4) (by omega), hread (k := 5) (by omega), hheard]
  have hflags : decide ((if r.external then (0x80 : UInt8) else 0) &&& 0x80 ≠ 0) = r.external := by
    cases r.external <;> rfl
  unfold rpl_downward_write_transit Transit.path at *
  cases storing with
  | true =>
      have hr : r.parent = none := by simpa using hparent
      simp [hr, hflags]
  | false =>
      obtain ⟨parent, hr⟩ := Option.isSome_iff_exists.mp hparent
      rw [hparentAt rfl]
      simp [hr, hflags]

/-- An option that is passed over. -/
theorem received_skip (type len : UInt8) (body pre post : List UInt8) (first stop : Option Nat)
    (hlen : body.length = len.toNat) (hpad : type ≠ 0) (htarget : type ≠ 5) (htransit : type ≠ 6) :
    received storing (pre ++ ((type :: len :: body) ++ post)) first stop pre.length =
      received storing (pre ++ ((type :: len :: body) ++ post)) first stop
        (pre.length + (type :: len :: body).length) := by
  have htype : (pre ++ ((type :: len :: body) ++ post))[pre.length]? = some type :=
    getElem?_mid _ _ _ (k := 0) (by simp)
  have hsize : (pre ++ ((type :: len :: body) ++ post))[pre.length + 1]? = some len :=
    getElem?_mid _ _ _ (k := 1) (by simp)
  rw [received, if_pos (by simp), htype]
  simp only [hsize]
  rw [if_neg hpad, if_neg htarget, if_neg htransit]
  simp only [List.length_cons, hlen]
  congr 1
  omega

/-- A target opens a group, or belongs to the open one. -/
theorem received_target (t : Target) (pre post : List UInt8) (first stop : Option Nat) :
    received storing (pre ++ (rpl_downward_write_target t ++ post)) first stop pre.length =
      received storing (pre ++ (rpl_downward_write_target t ++ post))
        (if stop.isSome then some pre.length else first) none
        (pre.length + (rpl_downward_write_target t).length) := by
  have hlt := t.prefixLen.isLt
  have hlen := length_prefixOption t
  rw [write_target_eq, List.append_assoc]
  have htype : (pre ++ (prefixOption t ++ (descriptorOption t ++ post)))[pre.length]? = some 5 :=
    getElem?_mid _ _ _ (k := 0) (by omega)
  have hsize : (pre ++ (prefixOption t ++ (descriptorOption t ++ post)))[pre.length + 1]? =
      some (.ofNat (2 + (t.prefixLen.val + 7) / 8)) := getElem?_mid _ _ _ (by omega)
  have hsizeNat : (UInt8.ofNat (2 + (t.prefixLen.val + 7) / 8)).toNat =
      2 + (t.prefixLen.val + 7) / 8 := by
    rw [UInt8.toNat_ofNat']
    exact Nat.mod_eq_of_lt (by omega)
  rw [received, if_pos (by simp only [List.length_append]; omega), htype]
  simp only [hsize]
  rw [if_neg (by decide), if_pos trivial, hsizeNat, ← hlen]
  unfold descriptorOption
  split
  · have hskip := @received_skip storing 9 4 (common_write_32_bit t.descriptor)
      (pre ++ prefixOption t) post (if stop.isSome then some pre.length else first) none rfl
      (by decide) (by decide) (by decide)
    simp only [List.append_assoc, List.length_append] at hskip ⊢
    rw [← Nat.add_assoc]
    exact hskip
  · rw [List.append_nil]

/-- The other targets of an open group. -/
theorem received_more (ts : List Target) (pre post : List UInt8) (first : Option Nat) :
    received storing (pre ++ (ts.flatMap rpl_downward_write_target ++ post)) first none
        pre.length =
      received storing (pre ++ (ts.flatMap rpl_downward_write_target ++ post)) first none
        (pre.length + (ts.flatMap rpl_downward_write_target).length) := by
  induction ts generalizing pre with
  | nil => rfl
  | cons t ts ih =>
      have hrest := ih (pre ++ rpl_downward_write_target t)
      rw [List.flatMap_cons, List.append_assoc, received_target]
      rw [List.append_assoc, List.length_append, Nat.add_assoc] at hrest
      rw [List.length_append]
      exact hrest

/-- A transit closes its group. -/
theorem received_transit {r : Transit} (hparent : r.parent.isSome = !storing) (ts : List Target)
    (pre mid post : List UInt8) (stop : Option Nat)
    (hstop : stop.getD (pre.length + (ts.flatMap rpl_downward_write_target).length + mid.length) =
      pre.length + (ts.flatMap rpl_downward_write_target).length) :
    received storing (pre ++ (ts.flatMap rpl_downward_write_target ++
          (mid ++ (rpl_downward_write_transit r ++ post)))) (some pre.length) stop
        (pre.length + (ts.flatMap rpl_downward_write_target).length + mid.length) =
      (received storing (pre ++ (ts.flatMap rpl_downward_write_target ++
          (mid ++ (rpl_downward_write_transit r ++ post)))) (some pre.length)
        (some (pre.length + (ts.flatMap rpl_downward_write_target).length))
        (pre.length + (ts.flatMap rpl_downward_write_target).length +
          (mid ++ rpl_downward_write_transit r).length)).map
        ((r.path, ts.flatMap Target.heard) :: ·) := by
  have hprocess := process_transit hparent ts pre mid post
  have hlen := length_write_transit hparent
  have hread : ∀ {k : Nat}, k < (rpl_downward_write_transit r).length →
      (pre ++ (ts.flatMap rpl_downward_write_target ++
        (mid ++ (rpl_downward_write_transit r ++ post))))[
          pre.length + (ts.flatMap rpl_downward_write_target).length + mid.length + k]? =
        (rpl_downward_write_transit r)[k]? := by
    intro k hk
    have hmid := getElem?_mid (pre ++ ts.flatMap rpl_downward_write_target ++ mid) _ post hk
    simpa only [List.append_assoc, List.length_append, Nat.add_assoc] using hmid
  have hsize : 2 + (if r.parent.isSome then (20 : UInt8) else 4).toNat =
      (rpl_downward_write_transit r).length := by
    rw [hlen, hparent]
    cases storing <;> rfl
  have htype := hread (k := 0) (by omega)
  have hlength := hread (k := 1) (by omega)
  rw [Nat.add_zero] at htype
  rw [received, if_pos (by simp only [List.length_append]; omega), htype]
  simp only [hlength]
  rw [hstop, hprocess]
  unfold rpl_downward_write_transit at *
  simp only [List.length_append, Nat.add_assoc, ← hsize]
  rfl

/-- The other transits of a closed group. -/
theorem received_transits {rs : List Transit} (hparent : ∀ r ∈ rs, r.parent.isSome = !storing)
    (ts : List Target) (pre mid post : List UInt8) :
    received storing (pre ++ (ts.flatMap rpl_downward_write_target ++
          (mid ++ (rs.flatMap rpl_downward_write_transit ++ post)))) (some pre.length)
        (some (pre.length + (ts.flatMap rpl_downward_write_target).length))
        (pre.length + (ts.flatMap rpl_downward_write_target).length + mid.length) =
      (received storing (pre ++ (ts.flatMap rpl_downward_write_target ++
          (mid ++ (rs.flatMap rpl_downward_write_transit ++ post)))) (some pre.length)
        (some (pre.length + (ts.flatMap rpl_downward_write_target).length))
        (pre.length + (ts.flatMap rpl_downward_write_target).length +
          (mid ++ rs.flatMap rpl_downward_write_transit).length)).map
        (rs.map (fun r => (r.path, ts.flatMap Target.heard)) ++ ·) := by
  induction rs generalizing mid with
  | nil => simp
  | cons r rs ih =>
      have hrest := ih (fun r hr => hparent r (List.mem_cons_of_mem _ hr))
        (mid ++ rpl_downward_write_transit r)
      rw [List.flatMap_cons, List.append_assoc,
        received_transit (hparent r List.mem_cons_self) ts pre mid _ _ rfl]
      rw [List.append_assoc, List.append_assoc] at hrest
      rw [hrest, Option.map_map]
      rfl

/-! ## Groups -/

/-- **A group as the receiver needs it.** -/
structure Group.Formed (storing : Bool) (g : Group) : Prop where
  target : g.targets ≠ []
  transit : g.transits ≠ []
  parent : ∀ r ∈ g.transits, r.parent.isSome = !storing

theorem received_group {g : Group} (hg : g.Formed storing) (pre post : List UInt8)
    (first : Option Nat) (e : Nat) :
    ∃ stop, received storing (pre ++ (g.bytes ++ post)) first (some e) pre.length =
      (received storing (pre ++ (g.bytes ++ post)) (some pre.length) (some stop)
        (pre.length + g.bytes.length)).map (g.heard ++ ·) := by
  obtain ⟨htarget, htransit, hparent⟩ := hg
  obtain ⟨t, ts, hts⟩ := List.exists_cons_of_ne_nil htarget
  obtain ⟨r, rs, hrs⟩ := List.exists_cons_of_ne_nil htransit
  have hfirst := @received_target storing t pre
    (ts.flatMap rpl_downward_write_target ++ (g.transits.flatMap rpl_downward_write_transit ++ post))
    first (some e)
  have hmore := @received_more storing ts (pre ++ rpl_downward_write_target t)
    (g.transits.flatMap rpl_downward_write_transit ++ post) (some pre.length)
  rw [List.append_assoc, List.length_append] at hmore
  have hopened : received storing (pre ++ (g.targets.flatMap rpl_downward_write_target ++
        (g.transits.flatMap rpl_downward_write_transit ++ post))) first (some e) pre.length =
      received storing (pre ++ (g.targets.flatMap rpl_downward_write_target ++
        (g.transits.flatMap rpl_downward_write_transit ++ post))) (some pre.length) none
        (pre.length + (g.targets.flatMap rpl_downward_write_target).length) := by
    rw [hts, List.flatMap_cons, List.append_assoc, List.length_append, ← Nat.add_assoc]
    exact hfirst.trans hmore
  have hclosing := received_transit (hparent r (by rw [hrs]; exact List.mem_cons_self)) g.targets
    pre [] (rs.flatMap rpl_downward_write_transit ++ post) none rfl
  have hothers := @received_transits _ rs
    (fun r hr => hparent r (by rw [hrs]; exact List.mem_cons_of_mem _ hr)) g.targets pre
    (rpl_downward_write_transit r) post
  rw [List.nil_append, List.nil_append, List.length_nil, Nat.add_zero] at hclosing
  refine ⟨pre.length + (g.targets.flatMap rpl_downward_write_target).length, ?_⟩
  unfold Group.bytes Group.heard
  rw [List.append_assoc, hopened, hrs, List.flatMap_cons, List.append_assoc, hclosing, hothers,
    Option.map_map]
  simp only [List.length_append, Nat.add_assoc]
  rfl

/-- **Each transit is applied to the targets of its group.** -/
theorem received_groups {gs : List Group} (hgs : ∀ g ∈ gs, g.Formed storing) (pre : List UInt8)
    (first : Option Nat) (e : Nat) :
    received storing (pre ++ gs.flatMap Group.bytes) first (some e) pre.length =
      some (gs.flatMap Group.heard) := by
  induction gs generalizing pre first e with
  | nil =>
      rw [received, if_neg (by simp)]
      rfl
  | cons g gs ih =>
      obtain ⟨stop, hstep⟩ := received_group (hgs g List.mem_cons_self) pre
        (gs.flatMap Group.bytes) first e
      have hrest := ih (fun g hg => hgs g (List.mem_cons_of_mem _ hg)) (pre ++ g.bytes)
        (some pre.length) stop
      rw [List.append_assoc, List.length_append] at hrest
      rw [List.flatMap_cons, hstep, hrest]
      rfl

/-! ## What the packer keeps -/

theorem length_write_target_le (t : Target) : (rpl_downward_write_target t).length ≤ 26 := by
  have hlt := t.prefixLen.isLt
  have hdescriptor : (descriptorOption t).length ≤ 6 := by
    unfold descriptorOption
    split
    · exact Nat.le_refl _
    · exact Nat.zero_le _
  rw [write_target_eq, List.length_append, length_prefixOption]
  omega

section

variable (storing) (neighbours : List Neighbour) (ourAddr : Option (Vector UInt8 16))

/-- Bits of the target that no parent has count as assigned. -/
def Target.Covered (t : Target) : Prop :=
  ∀ i < 8, has t.pathControl i = true → has t.pcAssigned i = false →
    ∃ n ∈ neighbours, has n.daoPathControl i = true

/-- A parent has bits of the path control. -/
def Useful (pathControl : UInt8) : Prop :=
  ∃ n ∈ neighbours, n.daoPathControl &&& pathControl ≠ 0

/-- **The invariant of the packer.** -/
structure Packing.Tidy (s : Packing) : Prop where
  covered : ∀ t ∈ s.targets, t.Covered neighbours
  opts : s.opts = s.groups.flatMap Group.bytes
  formed : ∀ g ∈ s.groups, g.Formed storing
  length : s.opts.length ≤ 969

end

variable {neighbours : List Neighbour} {ourAddr : Option (Vector UInt8 16)}

theorem exists_has {a : UInt8} (h : a ≠ 0) : ∃ i < 8, has a i = true := by
  by_contra hnone
  refine h (eq_of_has fun i hi => ?_)
  rw [has_zero]
  exact Bool.eq_false_iff.mpr fun hbit => hnone ⟨i, hi, hbit⟩

theorem and_ne_zero_of_has {a b : UInt8} {i : Nat} (hi : i < 8) (ha : has a i = true)
    (hb : has b i = true) : a &&& b ≠ 0 := by
  intro hzero
  have hbit := has_and a b hi
  rw [hzero, has_zero, ha, hb] at hbit
  cases hbit

/-- The path control of a target that is chosen is useful. -/
theorem Target.Covered.useful {t : Target} (h : t.Covered neighbours) (hbits : t.unassigned ≠ 0) :
    Useful neighbours t.pathControl := by
  obtain ⟨i, hi, hbit⟩ := exists_has hbits
  unfold Target.unassigned at hbit
  rw [has_and _ _ hi, has_not _ hi, has_or _ _ hi, has_or _ _ hi, Bool.and_eq_true,
    Bool.not_eq_true', Bool.or_eq_false_iff, Bool.or_eq_false_iff] at hbit
  obtain ⟨n, hn, hhas⟩ := h i hi hbit.1 hbit.2.1.1
  exact ⟨n, hn, and_ne_zero_of_has hi hhas hbit.1⟩

/-- Setting a target keeps the others covered. -/
theorem covered_set {targets : List Target} {t : Target} {k : Nat}
    (h : ∀ t ∈ targets, t.Covered neighbours) (ht : t.Covered neighbours) :
    ∀ t' ∈ targets.set k t, t'.Covered neighbours := by
  intro t' ht'
  rcases List.mem_or_eq_of_mem_set ht' with hmem | rfl
  · exact h t' hmem
  · exact ht

/-- What the inner loop does. -/
theorem gather_spec (i : Nat) (t1 : Target) (pathControl : UInt8) (written : List Target)
    (s : Packing) (hcovered : ∀ t ∈ s.targets, t.Covered neighbours)
    (huseful : storing = false → Useful neighbours pathControl) (hlen : s.opts.length ≤ 793) :
    ∃ more pathControl' s', gather storing neighbours i t1 pathControl written s =
        (pathControl', written ++ more, s') ∧
      (storing = false → Useful neighbours pathControl') ∧
      (∀ t ∈ s'.targets, t.Covered neighbours) ∧
      s'.opts = s.opts ++ more.flatMap rpl_downward_write_target ∧
      s'.groups = s.groups ∧ s'.opts.length ≤ 793 := by
  fun_induction gather storing neighbours i t1 pathControl written s with
  | case1 pathControl written s hroom hnone =>
      exact ⟨[], _, _, by rw [List.append_nil], huseful, hcovered, by simp, rfl, hlen⟩
  | case2 pathControl written s hroom c hscan ih =>
      obtain ⟨k, hk, hget, -, hbits, hpc⟩ := scan_spec storing neighbours hscan
      have hmem := hcovered c.target (List.mem_of_getElem? hget)
      obtain ⟨more, pathControl', s', heq, huseful', hcovered', hopts, hgroups, hlen'⟩ := ih
        (covered_set hcovered hmem)
        (fun hstoring => by rw [hpc hstoring]; exact hmem.useful hbits)
        (by
          have hle := length_write_target_le (follow t1 c)
          simp only [List.length_append]
          omega)
      refine ⟨follow t1 c :: more, pathControl', s', ?_, huseful', hcovered', ?_, hgroups, hlen'⟩
      · rw [heq, List.append_assoc]
        rfl
      · rw [hopts, List.flatMap_cons, List.append_assoc]
  | case3 pathControl written s hroom =>
      exact ⟨[], _, _, by rw [List.append_nil], huseful, hcovered, by simp, rfl, hlen⟩

/-- Parents without a common bit are at most eight. -/
theorem length_le_eight {l : List Neighbour}
    (hdisjoint : l.Pairwise fun a b => a.daoPathControl &&& b.daoPathControl = 0)
    (hbits : ∀ n ∈ l, n.daoPathControl ≠ 0) : l.length ≤ 8 := by
  have hbit : ∀ n ∈ l, ∃ i : Fin 8, has n.daoPathControl i = true := by
    intro n hn
    obtain ⟨i, hi, hhas⟩ := exists_has (hbits n hn)
    exact ⟨⟨i, hi⟩, hhas⟩
  choose! bit hbit using hbit
  have hnodup : (l.map bit).Nodup := by
    refine List.pairwise_map.mpr ?_
    refine hdisjoint.imp_of_mem fun {a b} ha hb hzero heq => ?_
    refine and_ne_zero_of_has (bit a).isLt (hbit a ha) ?_ hzero
    rw [heq]
    exact hbit b hb
  have hle := hnodup.length_le_card
  rwa [List.length_map, Fintype.card_fin] at hle

theorem length_write_transits_le {rs : List Transit}
    (hparent : ∀ r ∈ rs, r.parent.isSome = !storing) :
    (rs.flatMap rpl_downward_write_transit).length ≤ rs.length * 22 := by
  induction rs with
  | nil => exact Nat.le_refl _
  | cons r rs ih =>
      have hrest := ih fun r hr => hparent r (List.mem_cons_of_mem _ hr)
      have hr := length_write_transit (hparent r List.mem_cons_self)
      rw [List.flatMap_cons, List.length_append, List.length_cons, hr]
      split <;> omega

/-- The transits of a group are there, are of the mode, and do not take too much room. -/
theorem transits_spec {target : Target} {pathControl : UInt8}
    (hdisjoint : neighbours.Pairwise fun a b => a.daoPathControl &&& b.daoPathControl = 0)
    (huseful : storing = false → Useful neighbours pathControl)
    (haddr : ¬ (!storing && !target.own && ourAddr.isNone) = true) :
    transits storing neighbours ourAddr target pathControl ≠ [] ∧
      (∀ r ∈ transits storing neighbours ourAddr target pathControl,
        r.parent.isSome = !storing) ∧
      ((transits storing neighbours ourAddr target pathControl).flatMap
        rpl_downward_write_transit).length ≤ 176 := by
  have hlength : ∀ rs : List Transit, (∀ r ∈ rs, r.parent.isSome = !storing) → rs.length ≤ 8 →
      (rs.flatMap rpl_downward_write_transit).length ≤ 176 := fun rs hparent hle =>
    Nat.le_trans (length_write_transits_le hparent) (by omega)
  unfold transits
  cases storing with
  | true =>
      have hparent : ∀ r ∈ [transit target pathControl none], r.parent.isSome = !true := by
        intro r hr
        rw [List.mem_singleton.mp hr]
        rfl
      exact ⟨List.cons_ne_nil _ _, hparent, hlength _ hparent (by simp)⟩
  | false =>
      cases hown : target.own with
      | true =>
          simp only [Bool.false_eq_true, if_false, if_true]
          obtain ⟨n, hn, hbits⟩ := huseful rfl
          have hparent : ∀ r ∈ (neighbours.filter fun n => n.daoPathControl &&& pathControl ≠ 0).map
              fun n => transit target (n.daoPathControl &&& pathControl) (some n.globalAddress),
              r.parent.isSome = !false := by
            intro r hr
            obtain ⟨n, -, rfl⟩ := List.mem_map.mp hr
            rfl
          refine ⟨?_, hparent, hlength _ hparent ?_⟩
          · rw [Ne, List.map_eq_nil_iff]
            exact List.ne_nil_of_mem (List.mem_filter.mpr ⟨hn, decide_eq_true hbits⟩)
          · rw [List.length_map]
            refine length_le_eight (hdisjoint.filter _) fun n hn hzero => ?_
            have hbits := of_decide_eq_true (List.mem_filter.mp hn).2
            rw [hzero, UInt8.zero_and] at hbits
            exact hbits rfl
      | false =>
          simp only [Bool.false_eq_true, if_false]
          obtain ⟨addr, haddr⟩ : ∃ addr, ourAddr = some addr := by
            rw [hown] at haddr
            cases ourAddr with
            | none => exact absurd rfl haddr
            | some addr => exact ⟨addr, rfl⟩
          have hparent : ∀ r ∈ [transit target pathControl ourAddr], r.parent.isSome = !false := by
            intro r hr
            rw [List.mem_singleton.mp hr, haddr]
            rfl
          exact ⟨List.cons_ne_nil _ _, hparent, hlength _ hparent (by simp)⟩

/-! ## The packer -/

theorem covered_clear {targets : List Target} (hs : ∀ t ∈ targets, t.Covered neighbours) :
    ∀ t ∈ (rpl_instance_clear_target_pc_to_retry targets).1, t.Covered neighbours := by
  intro t ht
  obtain ⟨t', ht', rfl⟩ := List.mem_map.mp ht
  have hcovered := hs t' ht'
  split
  · exact hcovered
  · exact hcovered

theorem Chosen.covered {s s' : Packing} {c : Choice} (h : Chosen storing s c s')
    (hs : ∀ t ∈ s.targets, t.Covered neighbours) : ∀ t ∈ s'.targets, t.Covered neighbours := by
  rcases h.targets with heq | ⟨heq, -⟩
  · rw [heq]
    exact hs
  · rw [heq]
    exact covered_clear hs

/-- Where nothing is chosen, nothing is written. -/
theorem choose_none {s s' : Packing} (h : s.Tidy storing neighbours)
    (hnone : rpl_instance_choose_target_to_assign storing neighbours s = (none, s')) :
    s'.Tidy storing neighbours := by
  obtain ⟨hcovered, hopts, hformed, hlength⟩ := h
  unfold rpl_instance_choose_target_to_assign at hnone
  split at hnone
  · cases hnone
  · dsimp only at hnone
    split at hnone
    · split at hnone
      · cases hnone
      · cases hnone
        exact ⟨covered_clear hcovered, hopts, hformed, hlength⟩
    · cases hnone
      exact ⟨covered_clear hcovered, hopts, hformed, hlength⟩

/-- **A turn keeps the invariant.** -/
theorem Packing.Tidy.turned {s : Packing} (h : s.Tidy storing neighbours)
    (hdisjoint : neighbours.Pairwise fun a b => a.daoPathControl &&& b.daoPathControl = 0) :
    (turn storing neighbours ourAddr s).2.Tidy storing neighbours := by
  unfold turn
  split
  · rename_i hroom
    split
    · rename_i s' hnone
      exact choose_none h hnone
    · rename_i c s' hchoose
      have hchosen := choose_spec storing neighbours hchoose
      have hcovered := hchosen.covered h.covered
      have hmem := hcovered c.target (List.mem_of_getElem? hchosen.get)
      have hopts' : s'.opts = s'.groups.flatMap Group.bytes := by
        rw [hchosen.opts, hchosen.groups]
        exact h.opts
      have hformed' : ∀ g ∈ s'.groups, g.Formed storing := by
        rw [hchosen.groups]
        exact h.formed
      split
      · refine ⟨covered_set hcovered ?_, hopts', hformed', ?_⟩
        · intro i hi hpath hassigned
          rw [has_or _ _ hi, Bool.or_eq_false_iff] at hassigned
          exact hmem i hi hpath hassigned.1
        · exact hchosen.opts ▸ h.length
      · rename_i haddr
        have hwrite := length_write_target_le (first c)
        obtain ⟨more, pathControl, s₂, hgather, huseful, hcovered₂, hopts₂, hgroups₂, hlen₂⟩ :=
          gather_spec c.index (first c)
            c.pathControl [first c]
            { s' with
              targets := s'.targets.set c.index (first c)
              opts := s'.opts ++ rpl_downward_write_target (first c) }
            (covered_set hcovered hmem)
            (fun hstoring => by
              rw [hchosen.pathControl hstoring]
              exact hmem.useful hchosen.bits)
            (by
              simp only [List.length_append, hchosen.opts]
              omega)
        have haddr' : ¬ (!storing && !(first c).own && ourAddr.isNone) = true := haddr
        obtain ⟨hne, hparent, hlen⟩ := transits_spec hdisjoint huseful haddr'
        simp only [hgather]
        refine ⟨hcovered₂, ?_, ?_, ?_⟩
        · rw [hopts₂, hgroups₂, List.flatMap_append, ← hopts']
          simp [Group.bytes, List.append_assoc]
        · rw [hgroups₂]
          intro g hg
          rcases List.mem_append.mp hg with hg | hg
          · exact hformed' g hg
          · rw [List.mem_singleton.mp hg]
            exact ⟨by simp, hne, hparent⟩
        · rw [List.length_append]
          omega
  · exact h

/-- **What is packed** is tidy. -/
theorem Packing.Tidy.packed {s : Packing} (h : s.Tidy storing neighbours)
    (hdisjoint : neighbours.Pairwise fun a b => a.daoPathControl &&& b.daoPathControl = 0) :
    (pack storing neighbours ourAddr s).Tidy storing neighbours := by
  fun_induction pack storing neighbours ourAddr s with
  | case1 s s' hturn ih =>
      have hstep : (turn storing neighbours ourAddr s).2.Tidy storing neighbours :=
        h.turned hdisjoint
      rw [hturn] at hstep
      exact ih hstep
  | case2 s s' hturn =>
      have hstep : (turn storing neighbours ourAddr s).2.Tidy storing neighbours :=
        h.turned hdisjoint
      rwa [hturn] at hstep

/-! ## The message -/

/-- **The options of a DAO arrive.** -/
structure Delivered (mop : Mop) (s : Packing) : Prop where
  room : s.opts.length ≤ 1280
  written : s.opts = s.groups.flatMap Group.bytes
  applied : rpl_instance_dao_received mop s.opts = some (s.groups.flatMap Group.heard)

theorem covered_reset (mask : UInt8) (targets : List Target) :
    ∀ t ∈ rpl_downward_reset_assigning neighbours mask targets, t.Covered neighbours := by
  intro t ht
  obtain ⟨t', -, rfl⟩ := List.mem_map.mp ht
  intro i hi hpath hassigned
  rw [has_or _ _ hi, has_and _ _ hi, hpath, has_not _ hi, has_and _ _ hi, Bool.true_and,
    Bool.or_eq_false_iff, Bool.not_eq_false', Bool.and_eq_true] at hassigned
  rcases (has_foldl neighbours 0 hi).mp hassigned.2.2 with hzero | hmem
  · rw [has_zero] at hzero
    cases hzero
  · exact hmem

theorem covered_chooseLifetime (conf : DodagConf) {t : Target} (h : t.Covered neighbours) :
    (t.chooseLifetime conf).Covered neighbours := by
  unfold Target.chooseLifetime
  split
  · exact h
  · exact h

/-- **Every DAO arrives** that is sent to parents without a common bit. -/
theorem delivered (mop : Mop) (conf : DodagConf) (daoAttempt : UInt8) (targets : List Target)
    (hdisjoint : neighbours.Pairwise fun a b => a.daoPathControl &&& b.daoPathControl = 0) :
    Delivered mop (rpl_instance_send_dao_update mop conf neighbours daoAttempt targets) := by
  unfold rpl_instance_send_dao_update
  split
  · rename_i hmop
    refine ⟨Nat.zero_le _, rfl, ?_⟩
    unfold rpl_instance_dao_received
    rw [if_pos hmop]
    rfl
  · rename_i hmop
    have htidy : Packing.Tidy (mop != .nonStoring) neighbours
        ⟨(rpl_downward_reset_assigning neighbours (PCSMASK conf.pathControlSize) targets).map
          (Target.chooseLifetime conf), daoAttempt, none, [], []⟩ := by
      refine ⟨?_, rfl, fun g hg => absurd hg List.not_mem_nil, Nat.zero_le _⟩
      intro t ht
      obtain ⟨t', ht', rfl⟩ := List.mem_map.mp ht
      exact covered_chooseLifetime conf (covered_reset _ targets t' ht')
    obtain ⟨-, hopts, hformed, hlength⟩ := @Packing.Tidy.packed _ _
      (our_addr (mop != .nonStoring) targets) _ htidy hdisjoint
    refine ⟨Nat.le_trans hlength (by decide), hopts, ?_⟩
    unfold rpl_instance_dao_received
    rw [if_neg hmop, hopts]
    exact received_groups hformed [] none 0

/-- Without downward routes nobody is given anything. -/
theorem assigned_noDownward {pcs : Fin 8} {l : List Neighbour} (hl : Selected l) :
    Assigned .noDownward pcs l
        (rpl_downward_convert_dodag_preferences_to_dao_path_control .noDownward pcs l) ↔
      ∀ n ∈ parents l, eligible .noDownward n = false := by
  have hzero : l.foldl (fun mask n => mask ||| n.daoPathControl) 0 = 0 := by
    refine eq_of_has fun i hi => Bool.eq_iff_iff.mpr ?_
    rw [has_foldl _ _ hi, has_zero]
    refine ⟨?_, fun h => .inl h⟩
    rintro (h | ⟨n, hn, h⟩)
    · exact h
    · rw [hl.cleared n hn, has_zero] at h
      exact h
  have hnone : ∀ n ∈ l, ∀ i, has n.daoPathControl i = false := by
    intro n hn i
    rw [hl.cleared n hn, has_zero]
  unfold rpl_downward_convert_dodag_preferences_to_dao_path_control
  rw [if_pos rfl]
  constructor
  · intro h n hn
    by_contra helig
    have hall := h.all ⟨n, hn, by simpa using helig⟩
    rw [hzero] at hall
    have hpos : ∀ pcs : Fin 8, (0 : UInt8) ≠ PCSMASK pcs := by decide
    exact hpos pcs hall
  · intro h
    refine ⟨rfl, ?_, ?_, ?_, ?_⟩
    · refine List.Pairwise.imp_of_mem (fun {a b} ha _ _ => ?_) (List.pairwise_of_forall fun _ _ => trivial)
      rw [hl.cleared a ha, UInt8.zero_and]
    · rintro ⟨n, hn, helig⟩
      rw [h n hn] at helig
      cases helig
    · intro a ha b _ _ i _ j _ hi
      rw [hnone a ha i] at hi
      cases hi
    · intro x y a b hx _ _ i _ j _ hi
      rw [hnone a (List.mem_of_getElem? hx) i] at hi
      cases hi

/-- A DAO parent before the assignment. -/
def candidate (pref : Nat) (haveGlobalAddress : Bool) : Neighbour :=
  ⟨true, pref, haveGlobalAddress, Vector.replicate 16 0, 0⟩

theorem selected_pair : Selected [candidate 0 true, candidate 1 true] :=
  ⟨by decide, by decide, by decide⟩

end RplDao
