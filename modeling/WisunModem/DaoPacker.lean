import WisunModem.DaoPathControl
import WisunModem.RplRanks

/-!
# Packing a DAO

`rpl_instance_send_dao_update` as far as it writes the options of a DAO, once it is certain
that one is due.  It writes groups: one or more targets that have their transit
information in common, and the transits that apply to all of them.  A group is begun as
long as fewer than 768 bytes are written.

The root's information about a target is the other member of a union: its first four bytes
are what the packer reads and writes as the information of a target that is not the root's.
-/

namespace RplDao

open Rpl (rpl_seq_inc)

/-- What the packer reads of a `rpl_dao_target_t`. -/
structure Target where
  pfx : Vector UInt8 16
  prefixLen : Fin 129
  pathSequence : UInt8
  pathControl : UInt8
  lifetime : UInt32
  descriptor : UInt32
  external : Bool
  root : Bool
  published : Bool
  own : Bool
  descriptorPresent : Bool
  needSeqInc : Bool
  pathLifetime : UInt8
  pcAssigning : UInt8
  pcAssigned : UInt8
  pcToRetry : UInt8

/-- What a transit information option carries. -/
structure Transit where
  external : Bool
  pathControl : UInt8
  pathSequence : UInt8
  pathLifetime : UInt8
  parent : Option (Vector UInt8 16)

/-- The targets and the transits of one turn. -/
structure Group where
  targets : List Target
  transits : List Transit

/-! ## Options -/

/-- The first bits of a prefix, the rest of the last byte cleared. -/
def bitcopy0 (source : Vector UInt8 16) (bits : Nat) : List UInt8 :=
  source.toList.take (bits / 8) ++
    if bits % 8 = 0 then []
    else [source.toList.getD (bits / 8) 0 &&& (0xff <<< UInt8.ofNat (8 - bits % 8))]

def common_write_32_bit (value : UInt32) : List UInt8 :=
  [.ofNat (value.toNat / 2 ^ 24), .ofNat (value.toNat / 2 ^ 16), .ofNat (value.toNat / 2 ^ 8),
    .ofNat value.toNat]

def rpl_downward_write_target (target : Target) : List UInt8 :=
  let byteLen := (target.prefixLen.val + 7) / 8
  [5, .ofNat (2 + byteLen), 0, .ofNat target.prefixLen.val] ++
    bitcopy0 target.pfx target.prefixLen ++
    if target.descriptorPresent then [9, 4] ++ common_write_32_bit target.descriptor else []

/-- `rpl_downward_write_transit` for the transit that `transit` makes of its arguments. -/
def rpl_downward_write_transit (r : Transit) : List UInt8 :=
  [6, if r.parent.isSome then 20 else 4, if r.external then 0x80 else 0, r.pathControl,
    r.pathSequence, r.pathLifetime] ++ (r.parent.map (·.toList)).getD []

/-- The arguments of `rpl_downward_write_transit`; no No-Path is written here. -/
def transit (target : Target) (pathControl : UInt8) (parent : Option (Vector UInt8 16)) :
    Transit where
  external := target.external
  pathControl := pathControl
  pathSequence := target.pathSequence
  pathLifetime := target.pathLifetime
  parent := parent

def Group.bytes (g : Group) : List UInt8 :=
  g.targets.flatMap rpl_downward_write_target ++ g.transits.flatMap rpl_downward_write_transit

/-! ## The next target -/

/-- What the loop keeps: the targets and the attempt of the instance, the parent of a DAO of
storing mode, the bytes up to `ptr`, and as what they were written. -/
structure Packing where
  targets : List Target
  daoAttempt : UInt8
  parent : Option Neighbour
  opts : List UInt8
  groups : List Group

/-- The target that is chosen, with what is returned through the arguments. -/
structure Choice where
  index : Nat
  target : Target
  pathControl : UInt8
  parent : Option Neighbour

/-- `unassigned_pc` -/
def Target.unassigned (t : Target) : UInt8 :=
  t.pathControl &&& ~~~(t.pcAssigned ||| t.pcAssigning ||| t.pcToRetry)

/-- The transit data of the target matches that of the first one of the group. -/
def Target.matches (t t1 : Target) : Bool :=
  t.external == t1.external && t.own == t1.own &&
    (if t.needSeqInc then rpl_seq_inc t.pathSequence else t.pathSequence) == t1.pathSequence &&
    t.pathLifetime == t1.pathLifetime

section

variable (storing : Bool) (neighbours : List Neighbour) (ourAddr : Option (Vector UInt8 16))

/-- The loop of `rpl_instance_choose_target_to_assign` from the target `i` on. -/
def scan (parent : Option Neighbour) (t1 : Option (Nat × Target)) (i : Nat) :
    List Target → Option Choice
  | [] => none
  | t :: rest =>
      if t.root || t1.any (·.1 == i) then scan parent t1 (i + 1) rest
      else if t.unassigned = 0 then scan parent t1 (i + 1) rest
      else if t1.any (fun t1 => !t.matches t1.2) then scan parent t1 (i + 1) rest
      else if !storing then some ⟨i, t, t.pathControl, parent⟩
      else
        match parent with
        | none =>
            match neighbours.find? fun n => n.daoPathControl &&& t.unassigned ≠ 0 with
            | some n => some ⟨i, t, n.daoPathControl, some n⟩
            | none => some ⟨i, t, t.pathControl, none⟩
        | some n =>
            if t.unassigned &&& n.daoPathControl = 0 then scan (some n) t1 (i + 1) rest
            else some ⟨i, t, t.pathControl, some n⟩

/-- `rpl_instance_clear_target_pc_to_retry` -/
def rpl_instance_clear_target_pc_to_retry (targets : List Target) : List Target × Bool :=
  (targets.map fun t => if t.root then t else { t with pcToRetry := 0 },
    targets.any fun t => !t.root && t.pcToRetry != 0)

/-- `rpl_instance_choose_target_to_assign` without a first target: it is tried once more after
the assignments that are to be tried again are cleared.  After that there are none. -/
def rpl_instance_choose_target_to_assign (s : Packing) : Option Choice × Packing :=
  match scan storing neighbours s.parent none 0 s.targets with
  | some c => (some c, { s with parent := c.parent })
  | none =>
      let cleared := rpl_instance_clear_target_pc_to_retry s.targets
      let s := { s with targets := cleared.1 }
      if cleared.2 then
        let s := { s with daoAttempt := if s.daoAttempt < 255 then s.daoAttempt + 1 else s.daoAttempt }
        match scan storing neighbours s.parent none 0 s.targets with
        | some c => (some c, { s with parent := c.parent })
        | none => (none, s)
      else (none, s)

/-! ## The loops -/

theorem four_le_length_write_target (t : Target) : 4 ≤ (rpl_downward_write_target t).length := by
  unfold rpl_downward_write_target
  simp only [List.length_append, List.length_cons, List.length_nil]
  omega

/-- Another target of the group, written with the sequence number of the first. -/
def follow (t1 : Target) (c : Choice) : Target :=
  { c.target with
    pathSequence := t1.pathSequence
    needSeqInc := false
    pcAssigning := c.pathControl }

/-- The inner loop: more targets with the same transit information.  `pathControl` is left as
the last choice set it. -/
def gather (i : Nat) (t1 : Target) (pathControl : UInt8) (written : List Target) (s : Packing) :
    UInt8 × List Target × Packing :=
  if s.opts.length < 768 then
    match scan storing neighbours s.parent (some (i, t1)) 0 s.targets with
    | none => (pathControl, written, s)
    | some c =>
        gather i t1 c.pathControl (written ++ [follow t1 c])
          { s with
            targets := s.targets.set c.index (follow t1 c)
            parent := c.parent
            opts := s.opts ++ rpl_downward_write_target (follow t1 c) }
  else (pathControl, written, s)
termination_by 768 - s.opts.length
decreasing_by
  have hlen := four_le_length_write_target (follow t1 c)
  simp only [List.length_append]
  omega

/-- The first target of a group as it is written. -/
def first (c : Choice) : Target :=
  { c.target with
    pathSequence :=
      if c.target.needSeqInc then rpl_seq_inc c.target.pathSequence else c.target.pathSequence
    needSeqInc := false
    pcAssigning := c.pathControl }

/-- The transits of a group. -/
def transits (target : Target) (pathControl : UInt8) : List Transit :=
  if storing then [transit target pathControl none]
  else if target.own then
    (neighbours.filter fun n => n.daoPathControl &&& pathControl ≠ 0).map fun n =>
      transit target (n.daoPathControl &&& pathControl) (some n.globalAddress)
  else [transit target pathControl ourAddr]

/-- A turn of the outer loop, and whether there may be another one. -/
def turn (s : Packing) : Bool × Packing :=
  if s.opts.length < 768 then
    match rpl_instance_choose_target_to_assign storing neighbours s with
    | (none, s) => (false, s)
    | (some c, s) =>
        if !storing && !c.target.own && ourAddr.isNone then
          -- a host cannot be published without an address of our own
          (true, { s with
            targets := s.targets.set c.index
              { c.target with pcAssigned := c.target.pcAssigned ||| c.pathControl } })
        else
          let r := gather storing neighbours c.index (first c) c.pathControl [first c]
            { s with
              targets := s.targets.set c.index (first c)
              opts := s.opts ++ rpl_downward_write_target (first c) }
          let written := transits storing neighbours ourAddr (first c) r.1
          (true, { r.2.2 with
            opts := r.2.2.opts ++ written.flatMap rpl_downward_write_transit
            groups := r.2.2.groups ++ [⟨r.2.1, written⟩] })
  else (false, s)

/-! ## The whole message -/

/-- Targets whose assignments are to be tried again. -/
def retrying (targets : List Target) : Nat :=
  targets.countP fun t => !t.root && t.pcToRetry != 0

/-- Targets that still have bits to be assigned. -/
def unassigned (targets : List Target) : Nat := targets.countP fun t => !t.root && t.unassigned != 0

theorem retrying_clear (targets : List Target) :
    retrying (rpl_instance_clear_target_pc_to_retry targets).1 = 0 := by
  refine List.countP_eq_zero.mpr fun t ht => ?_
  obtain ⟨t', -, rfl⟩ := List.mem_map.mp ht
  cases hroot : t'.root <;> simp [hroot]

/-- What a scan finds is a target of the list that is not the root's and has bits left. -/
theorem scan_spec {parent : Option Neighbour} {t1 : Option (Nat × Target)} {i : Nat}
    {targets : List Target} {c : Choice} (h : scan storing neighbours parent t1 i targets = some c) :
    ∃ k, c.index = i + k ∧ targets[k]? = some c.target ∧ c.target.root = false ∧
      c.target.unassigned ≠ 0 ∧ (storing = false → c.pathControl = c.target.pathControl) := by
  induction targets generalizing parent i with
  | nil => cases h
  | cons t rest ih =>
      have hskip : ∀ {p : Option Neighbour}, scan storing neighbours p t1 (i + 1) rest = some c →
          ∃ k, c.index = i + k ∧ (t :: rest)[k]? = some c.target ∧ c.target.root = false ∧
            c.target.unassigned ≠ 0 ∧ (storing = false → c.pathControl = c.target.pathControl) := by
        intro p hrest
        obtain ⟨k, hk, hget, hspec⟩ := ih hrest
        exact ⟨k + 1, by omega, by simpa using hget, hspec⟩
      unfold scan at h
      split at h
      · exact hskip h
      · rename_i hroot
        have hroot : t.root = false := by
          cases hr : t.root with
          | false => rfl
          | true => simp [hr] at hroot
        split at h
        · exact hskip h
        · rename_i hbits
          split at h
          · exact hskip h
          · split at h
            · cases h
              exact ⟨0, rfl, rfl, hroot, hbits, fun _ => rfl⟩
            · rename_i hstoring
              have hstoring : storing = true := by simpa using hstoring
              split at h
              · split at h
                · cases h
                  exact ⟨0, rfl, rfl, hroot, hbits, fun hf => by simp [hf] at hstoring⟩
                · cases h
                  exact ⟨0, rfl, rfl, hroot, hbits, fun _ => rfl⟩
              · split at h
                · exact hskip h
                · cases h
                  exact ⟨0, rfl, rfl, hroot, hbits, fun _ => rfl⟩

/-- Bits that are assigned are not unassigned. -/
theorem and_not_or_self (a b c d : UInt8) : a &&& ~~~(b ||| a ||| c ||| d) = 0 := by
  refine and_eq_zero_of_has fun i hi ha => ?_
  rw [has_not _ hi, has_or _ _ hi, has_or _ _ hi, has_or _ _ hi, ha]
  simp

/-- What a choice leaves: nothing is written, and assignments are tried again at most once. -/
structure Chosen (s : Packing) (c : Choice) (s' : Packing) : Prop where
  opts : s'.opts = s.opts
  groups : s'.groups = s.groups
  targets : s'.targets = s.targets ∨
    s'.targets = (rpl_instance_clear_target_pc_to_retry s.targets).1 ∧ 0 < retrying s.targets
  get : s'.targets[c.index]? = some c.target
  root : c.target.root = false
  bits : c.target.unassigned ≠ 0
  pathControl : storing = false → c.pathControl = c.target.pathControl

theorem choose_spec {s s' : Packing} {c : Choice}
    (h : rpl_instance_choose_target_to_assign storing neighbours s = (some c, s')) :
    Chosen storing s c s' := by
  unfold rpl_instance_choose_target_to_assign at h
  split at h
  · rename_i hscan
    cases h
    obtain ⟨k, hk, hget, hroot, hbits, hpc⟩ := scan_spec storing neighbours hscan
    exact ⟨rfl, rfl, .inl rfl, by rw [hk, Nat.zero_add]; exact hget, hroot, hbits, hpc⟩
  · dsimp only at h
    split at h
    · rename_i hretry
      have hpos : 0 < retrying s.targets := by
        obtain ⟨t, ht, hb⟩ := List.any_eq_true.mp hretry
        exact List.countP_pos_iff.mpr ⟨t, ht, hb⟩
      split at h
      · rename_i hscan
        cases h
        obtain ⟨k, hk, hget, hroot, hbits, hpc⟩ := scan_spec storing neighbours hscan
        exact ⟨rfl, rfl, .inr ⟨rfl, hpos⟩, by rw [hk, Nat.zero_add]; exact hget, hroot, hbits, hpc⟩
      · cases h
    · cases h

/-- The inner loop only appends. -/
theorem length_le_gather (i : Nat) (t1 : Target) (pathControl : UInt8) (written : List Target)
    (s : Packing) :
    s.opts.length ≤ (gather storing neighbours i t1 pathControl written s).2.2.opts.length := by
  fun_induction gather storing neighbours i t1 pathControl written s with
  | case1 => exact Nat.le_refl _
  | case2 pathControl written s hroom c hscan ih =>
      refine Nat.le_trans ?_ ih
      simp only [List.length_append]
      exact Nat.le_add_right _ _
  | case3 => exact Nat.le_refl _

/-- A turn writes, or else leaves fewer targets to be tried again or to be assigned. -/
theorem turn_lt {s s' : Packing} (h : turn storing neighbours ourAddr s = (true, s')) :
    Prod.Lex (· < ·) (Prod.Lex (· < ·) (· < ·))
      (768 - s'.opts.length, retrying s'.targets, unassigned s'.targets)
      (768 - s.opts.length, retrying s.targets, unassigned s.targets) := by
  unfold turn at h
  split at h
  · rename_i hroom
    split at h
    · cases h
    · rename_i c s₁ hchoose
      obtain ⟨hopts, -, htargets, hget, hroot, hbits, hpc⟩ := choose_spec storing neighbours hchoose
      split at h
      · rename_i hstuck
        have hstoring : storing = false := by
          cases storing with
          | false => rfl
          | true => simp at hstuck
        cases h
        obtain ⟨hlt, hat⟩ := List.getElem?_eq_some_iff.mp hget
        have hsame : retrying (s₁.targets.set c.index { c.target with
            pcAssigned := c.target.pcAssigned ||| c.pathControl }) = retrying s₁.targets := by
          have hle : (if (!s₁.targets[c.index].root && s₁.targets[c.index].pcToRetry != 0) = true
              then 1 else 0) ≤ retrying s₁.targets := by
            split
            · rename_i hp
              exact List.countP_pos_iff.mpr ⟨_, List.getElem_mem hlt, hp⟩
            · exact Nat.zero_le _
          unfold retrying at hle ⊢
          rw [List.countP_set hlt]
          rw [hat] at hle ⊢
          dsimp only
          omega
        have hless : unassigned (s₁.targets.set c.index { c.target with
            pcAssigned := c.target.pcAssigned ||| c.pathControl }) < unassigned s₁.targets := by
          have hone : (!c.target.root && c.target.unassigned != 0) = true := by
            simp [hroot, hbits]
          have hpos : 0 < unassigned s₁.targets :=
            List.countP_pos_iff.mpr ⟨_, List.getElem_mem hlt, by rw [hat]; exact hone⟩
          have hnone : Target.unassigned { c.target with
              pcAssigned := c.target.pcAssigned ||| c.pathControl } = 0 := by
            unfold Target.unassigned
            rw [hpc hstoring]
            exact and_not_or_self _ _ _ _
          unfold unassigned at hpos ⊢
          rw [List.countP_set hlt, hat, if_pos hone, if_neg (by simp [hnone])]
          omega
        simp only [hopts]
        refine Prod.Lex.right _ ?_
        rcases htargets with heq | ⟨heq, hpos⟩
        · rw [heq] at hsame hless ⊢
          rw [hsame]
          exact Prod.Lex.right _ hless
        · rw [hsame, heq, retrying_clear]
          exact Prod.Lex.left _ _ hpos
      · cases h
        refine Prod.Lex.left _ _ ?_
        have hlen := length_le_gather storing neighbours c.index (first c) c.pathControl [first c]
          { s₁ with
            targets := s₁.targets.set c.index (first c)
            opts := s₁.opts ++ rpl_downward_write_target (first c) }
        have hfour := four_le_length_write_target (first c)
        simp only [List.length_append, hopts] at hlen ⊢
        omega
  · cases h

/-- The outer loop. -/
def pack (s : Packing) : Packing :=
  match _h : turn storing neighbours ourAddr s with
  | (true, s') => pack s'
  | (false, s') => s'
termination_by (768 - s.opts.length, retrying s.targets, unassigned s.targets)
decreasing_by exact turn_lt storing neighbours ourAddr _h

end

/-! ## The start -/

/-- `rpl_downward_reset_assigning`: bits that no parent has count as assigned. -/
def rpl_downward_reset_assigning (neighbours : List Neighbour) (pcsMask : UInt8)
    (targets : List Target) : List Target :=
  let pcsMask := pcsMask &&& neighbours.foldl (fun mask n => mask ||| n.daoPathControl) 0
  targets.map fun t =>
    { t with
      pcAssigning := 0
      pcAssigned := t.pcAssigned ||| (t.pathControl &&& ~~~pcsMask)
      pcToRetry := t.pcToRetry &&& pcsMask }

/-- What is read of a `rpl_dodag_conf_t`. -/
structure DodagConf where
  pathControlSize : Fin 8
  lifetimeUnit : UInt16
  defaultLifetime : UInt8

/-- The path lifetime of a target that deferred the choice. -/
def Target.chooseLifetime (conf : DodagConf) (t : Target) : Target :=
  if t.pathLifetime = 0 then
    let unit := conf.lifetimeUnit.toUInt32
    let lifetime := if t.lifetime ≠ 0xFFFFFFFF then (t.lifetime + unit - 1) / unit else t.lifetime
    { t with
      pathLifetime := if lifetime > conf.defaultLifetime.toUInt32 then conf.defaultLifetime
        else lifetime.toUInt8 }
  else t

/-- `our_addr`: in non-storing mode the first address of our own. -/
def our_addr (storing : Bool) (targets : List Target) : Option (Vector UInt8 16) :=
  if storing then none
  else (targets.find? fun t => t.published && t.own && t.prefixLen.val == 128).map (·.pfx)

/-- `rpl_instance_send_dao_update` up to the end of the options. -/
def rpl_instance_send_dao_update (mop : Mop) (conf : DodagConf) (neighbours : List Neighbour)
    (daoAttempt : UInt8) (targets : List Target) : Packing :=
  if mop = .noDownward then ⟨targets, daoAttempt, none, [], []⟩
  else
    let storing := mop != .nonStoring
    let reset := rpl_downward_reset_assigning neighbours (PCSMASK conf.pathControlSize) targets
    pack storing neighbours (our_addr storing targets)
      ⟨reset.map (Target.chooseLifetime conf), daoAttempt, none, [], []⟩

end RplDao
