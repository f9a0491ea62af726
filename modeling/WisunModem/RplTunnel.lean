import WisunModem.HopByHop

/-!
# The RPL option between two tunnels

At the exit of a tunnel `rpl_data_remember_outer` copies the RPL option of the outer
header without its type byte, and behind it the DODAG id of a local instance.  When the
packet is sent into the next tunnel, `rpl_data_exthdr_provider_hbh_2` makes a hop-by-hop
header around the copy.  The size it announces leaves out the two bytes of that header,
and its padding goes where the option was written.
-/

namespace RplTunnel

open ByteStore GuardedStore Exec HopByHop

/-- `rpl_instance_id_is_local`. -/
def isLocal (id : UInt8) : Bool := id &&& 0x80 ≠ 0

/-- `IPV6_OPTION_PADN`. -/
def padN : UInt8 := 0x01

/-- A block is written byte by byte. -/
def saves (ok : Nat → Bool) (a : Nat) : List UInt8 → Guarded PUnit
  | [] => pure ⟨⟩
  | b :: bs => do
      save ok a b
      saves ok (a + 1) bs

/-! ## The two functions -/

/-- `rpl_data_remember_outer`: what `buf->rpl_option` points to, where there is an option. -/
def rpl_data_remember_outer (ok : Nat → Bool) (len : Nat) (src dst : Vector UInt8 16) :
    Guarded (Option (List UInt8)) := do
  match ← rpl_data_locate_info ok len with
  | none => pure none
  | some hbh =>
      let (instanceId, copy) ← rememberOuter ok hbh
      let dodagid := if instanceId &&& 0x40 ≠ 0 then dst else src
      pure (some (copy ++ if isLocal instanceId then dodagid.toList else []))

/-- `rpl_data_get_dodagid` with a remembered option: the 16 bytes at the pointer, which have
to lie in the block. -/
def rpl_data_get_dodagid (rplOption : List UInt8) : Option (List UInt8) :=
  match rplOption with
  | _ :: second :: _ =>
    if 1 + second.toNat + 16 ≤ rplOption.length then
      some ((rplOption.drop (1 + second.toNat)).take 16)
    else none
  | _ => none

/-- `ext_size` for an option of `optSize` bytes. -/
def extSize (optSize : UInt8) : Nat := (2 + optSize.toNat + 7) / 8 * 8

/-- `IPV6_EXTHDR_INSERT` with a remembered option.  The header is made at 40, where it comes to
lie behind the IPv6 header; `type` is what follows it. -/
def insertHbh (ok : Nat → Bool) (type : UInt8) (rplOption : List UInt8) : Guarded PUnit := do
  let optSize := rplOption.headD 0
  save ok 40 type
  save ok 41 (UInt8.ofNat (extSize optSize / 8 - 1))
  save ok 42 HopByHop.rplOption
  saves ok 43 (rplOption.take (1 + optSize.toNat))
  let optLen ← load ok 43
  let padLen : UInt8 := UInt8.ofNat (extSize optSize) - (4 + optLen)
  if padLen = 1 then save ok 42 pad1
  else if 1 < padLen then do
    save ok 42 padN
    save ok 43 (padLen - 2)
    saves ok 44 (List.replicate (padLen - 2).toNat 0)
  else pure ⟨⟩

/-! ## What is asked of them -/

/-- A received packet that was checked and has a RPL option. -/
structure Received where
  m : Store
  len : Nat
  opt : Nat
  hbh : HasHbh m len
  sound : Sound m len
  found : Ends (rpl_data_locate_info (inPacket len) len) m fun r t => r = some opt ∧ t = m

/-- The length byte of the option. -/
def Received.optLen (p : Received) : UInt8 := p.m (p.opt + 1)

/-- The length byte and the data of the option. -/
def Received.option (p : Received) : List UInt8 := bytes p.m (p.opt + 1) (p.optLen.toNat + 1)

/-- The instance the option names. -/
def Received.instanceId (p : Received) : UInt8 := p.m (p.opt + 3)

/-- The DODAG id of a local instance. -/
def Received.dodagid (p : Received) (src dst : Vector UInt8 16) : List UInt8 :=
  (if p.instanceId &&& 0x40 ≠ 0 then dst else src).toList

/-- The packet that is sent on: what follows the new header, and its type. -/
structure Forwarded where
  type : UInt8
  payload : List UInt8
  short : payload.length + 264 < 2 ^ 16

/-- Options that only pad. -/
inductive Padding : List UInt8 → Prop
  | nil : Padding []
  | one {pad : List UInt8} : Padding pad → Padding (pad1 :: pad)
  | many {pad : List UInt8} (n : UInt8) :
      Padding pad → Padding (padN :: n :: (List.replicate n.toNat 0 ++ pad))

/-- Behind the IPv6 header lies a hop-by-hop header of `size` bytes, which has the option and
padding, and behind it what was there. -/
def HasOption (t : Store) (size : Nat) (option : List UInt8) (fwd : Forwarded) : Prop :=
  ∃ pad, Padding pad ∧ 3 + option.length + pad.length = size ∧
    Holds t 40 (fwd.type :: UInt8.ofNat (size / 8 - 1) :: rplOption :: (option ++ pad)) ∧
    Holds t (40 + size) fwd.payload

/-- An IPv6 header in front of a hop-by-hop header, with the length of what follows it. -/
def WithHeader (t : Store) (length : Nat) : Prop := t 6 = 0 ∧ be (bytes t 4 2) = length

/-- **The option survives.**  The outer option is remembered, the new header has it and no
other, it is found again in the packet that is sent, and the DODAG id of a local instance is
the one that was remembered. -/
def Survives (p : Received) (src dst : Vector UInt8 16) (fwd : Forwarded) : Prop :=
  Ends (rpl_data_remember_outer (inPacket p.len) p.len src dst) p.m fun r _ => ∃ block, r = some block ∧
    (isLocal p.instanceId → rpl_data_get_dodagid block = some (p.dodagid src dst)) ∧
    ∀ t, Holds t (40 + extSize p.optLen) fwd.payload →
      Ends (insertHbh (inPacket (40 + extSize p.optLen + fwd.payload.length)) fwd.type block) t
        fun _ t => HasOption t (extSize p.optLen) p.option fwd ∧
          ∀ u, (∀ a, 40 ≤ a → u a = t a) → WithHeader u (extSize p.optLen + fwd.payload.length) →
            Ends (rpl_data_locate_info (inPacket (40 + extSize p.optLen + fwd.payload.length))
                (40 + extSize p.optLen + fwd.payload.length)) u
              fun r _ => r = some 42

/-- The bytes of a remembered option of a local instance at the offset that its second byte
gives. -/
def IdAtFlags (p : Received) (src dst : Vector UInt8 16) : Prop :=
  p.m (p.opt + 2) ≤ p.optLen ∧
    ((p.option ++ p.dodagid src dst).drop (1 + (p.m (p.opt + 2)).toNat)).take 16
      = p.dodagid src dst

/-- The length is 4 modulo 8, and for a local instance the flags of the option lead to the
DODAG id. -/
def Reinserts (p : Received) (src dst : Vector UInt8 16) : Prop :=
  p.optLen.toNat % 8 = 4 ∧ (isLocal p.instanceId → IdAtFlags p src dst)

/-! ## Following the programs -/

/-- A block is written if and only if all of it is allowed. -/
@[simp] theorem ends_saves {ok : Nat → Bool} {bs : List UInt8} {post : PUnit → Store → Prop} :
    ∀ {a : Nat} {m : Store}, Ends (saves ok a bs) m post ↔
      (∀ i, i < bs.length → ok (a + i) = true) ∧ post ⟨⟩ (store m a bs) := by
  induction bs with
  | nil =>
    intro a m
    have hsame : store m a [] = m := by
      funext i
      exact store_apart (by simp; omega)
    simp [saves, hsame]
  | cons b bs ih =>
    intro a m
    have hstep : store (store m a [b]) (a + 1) bs = store m a (b :: bs) := by
      funext i
      simp only [store, blit, ofList, List.length_cons, List.length_nil]
      by_cases hfirst : i = a
      · subst hfirst
        simp
      · by_cases hrest : a + 1 ≤ i ∧ i < a + 1 + bs.length
        · have hindex : i - a = i - (a + 1) + 1 := by omega
          rw [if_pos hrest, if_pos (by omega), hindex, List.getD_cons_succ]
        · rw [if_neg hrest, if_neg (by omega), if_neg (by omega)]
    rw [saves, ends_bind, ends_save, ih, hstep]
    constructor
    · rintro ⟨hfirst, hrest, hpost⟩
      refine ⟨fun i hi => ?_, hpost⟩
      cases i with
      | zero => exact hfirst
      | succ i =>
        have hnext := hrest i (by simpa using hi)
        rwa [Nat.add_assoc, Nat.add_comm 1] at hnext
    · rintro ⟨hall, hpost⟩
      refine ⟨hall 0 (by simp), fun i hi => ?_, hpost⟩
      have hnext := hall (i + 1) (by simpa using hi)
      rwa [Nat.add_assoc, Nat.add_comm 1]

/-- A program that was run is judged by what it returned. -/
theorem ends_iff_of_run {α : Type} {x : Guarded α} {m t : Store} {a : α}
    {post : α → Store → Prop} (hrun : x.run m = .ok (a, t)) : Ends x m post ↔ post a t := by
  constructor
  · rintro ⟨b, u, hrun', hpost⟩
    rw [hrun] at hrun'
    cases hrun'
    exact hpost
  · exact fun hpost => ⟨a, t, hrun, hpost⟩

variable {p : Received} {src dst : Vector UInt8 16} {fwd : Forwarded}

/-- The option lies in the packet. -/
theorem Received.inside (p : Received) : p.opt + 2 + p.optLen.toNat ≤ p.len ∧ p.opt + 6 ≤ p.len := by
  obtain ⟨r, t, hrun, rfl, rfl⟩ := p.found
  have hbounded := (ends_iff_of_run hrun).mp (locate_inside_iff.mpr p.sound) p.opt rfl
  obtain ⟨hdata, -, hupdate⟩ := hbounded
  have hfields := hupdate (fun _ b => b) (fun _ b => b) 0
  unfold updateOption at hfields
  simp only [ends_bind, ends_load, ends_loads, ends_save, inHbh,
    decide_eq_true_eq] at hfields
  obtain ⟨-, -, -, -, -, -, hlast, -⟩ := hfields
  obtain ⟨hfits, -, hend⟩ := p.hbh
  unfold Received.optLen
  omega

/-- The block that is remembered. -/
def Received.block (p : Received) (src dst : Vector UInt8 16) : List UInt8 :=
  p.option ++ if isLocal p.instanceId then p.dodagid src dst else []

/-- Remembering succeeds with the block. -/
theorem ends_remember {post : Option (List UInt8) → Store → Prop} :
    Ends (rpl_data_remember_outer (inPacket p.len) p.len src dst) p.m post ↔
      post (some (p.block src dst)) p.m := by
  obtain ⟨r, t, hrun, rfl, rfl⟩ := p.found
  obtain ⟨hdata, hfields⟩ := p.inside
  have hlen : (p.m (p.opt + 1)).toNat = p.optLen.toNat := rfl
  unfold rpl_data_remember_outer rememberOuter
  rw [ends_bind, ends_iff_of_run hrun]
  simp only [ends_bind, ends_load, ends_loads, ends_pure, inPacket, decide_eq_true_eq]
  constructor
  · rintro ⟨-, -, -, hpost⟩
    exact hpost
  · intro hpost
    exact ⟨by omega, by omega, fun i hi => by omega, hpost⟩

theorem Received.option_eq (p : Received) :
    p.option = p.optLen :: bytes p.m (p.opt + 2) p.optLen.toNat := by
  have hsplit := bytes_append p.m (p.opt + 1) 1 p.optLen.toNat
  rw [Nat.add_comm 1] at hsplit
  exact hsplit

theorem Received.length_option (p : Received) : p.option.length = p.optLen.toNat + 1 :=
  length_bytes ..

/-- What is copied into the new header is the option. -/
theorem Received.take_block (p : Received) (src dst : Vector UInt8 16) :
    (p.block src dst).headD 0 = p.optLen ∧
      (p.block src dst).take (1 + p.optLen.toNat) = p.option := by
  unfold Received.block
  constructor
  · rw [p.option_eq]
    rfl
  · have hlength : 1 + p.optLen.toNat = p.option.length := by
      rw [p.length_option]
      omega
    rw [hlength, List.take_left]

/-- The padding that the header asks for, in eight bits. -/
def padLen (optLen : UInt8) : UInt8 := UInt8.ofNat (extSize optLen) - (4 + optLen)

/-- No padding is asked for exactly when the header fits without. -/
theorem padLen_eq_zero_iff {optLen : UInt8} : padLen optLen = 0 ↔ optLen.toNat % 8 = 4 := by
  have hlt := optLen.toNat_lt
  have hsum : (4 + optLen).toNat = (4 + optLen.toNat) % 256 := UInt8.toNat_add ..
  rw [← UInt8.toNat_inj, padLen, UInt8.toNat_sub, UInt8.toNat_ofNat', hsum]
  have hzero : (0 : UInt8).toNat = 0 := rfl
  rw [hzero]
  unfold extSize
  omega

theorem extSize_of_fits {optLen : UInt8} (hfits : optLen.toNat % 8 = 4) :
    extSize optLen = 4 + optLen.toNat := by
  unfold extSize
  omega

/-- The packet with the header and the option, before the padding. -/
def written (p : Received) (type : UInt8) (t : Store) : Store :=
  store (store (store (store t 40 [type]) 41 [UInt8.ofNat (extSize p.optLen / 8 - 1)]) 42
    [rplOption]) 43 p.option

theorem written_optLen (p : Received) (type : UInt8) (t : Store) :
    written p type t 43 = p.optLen := by
  have hholds := holds_store
    (store (store (store t 40 [type]) 41 [UInt8.ofNat (extSize p.optLen / 8 - 1)]) 42 [rplOption])
    43 p.option
  rw [p.option_eq, holds_cons] at hholds
  rw [written, p.option_eq]
  exact hholds.1

/-- Padding goes over the type of the option. -/
theorem insertHbh_padded {ok : Nat → Bool} {type : UInt8} {t : Store}
    {post : PUnit → Store → Prop} (hpad : padLen p.optLen ≠ 0)
    (h : Ends (insertHbh ok type (p.block src dst)) t post) :
    ∃ u, post ⟨⟩ u ∧ u 42 ≠ rplOption := by
  obtain ⟨hhead, htake⟩ := p.take_block src dst
  unfold insertHbh at h
  rw [hhead] at h
  dsimp only at h
  rw [htake] at h
  simp only [ends_bind, ends_save, ends_saves, ends_load] at h
  obtain ⟨-, -, -, -, -, h⟩ := h
  change Ends _ (written p type t) post at h
  have hopt : store (store (store (store t 40 [type]) 41 [UInt8.ofNat (extSize p.optLen / 8 - 1)])
      42 [rplOption]) 43 p.option 43 = p.optLen := written_optLen p type t
  rw [hopt] at h
  change Ends (if padLen p.optLen = 1 then _ else if 1 < padLen p.optLen then _ else _) _ _ at h
  by_cases hone : padLen p.optLen = 1
  · rw [if_pos hone, ends_save] at h
    refine ⟨_, h.2, ?_⟩
    have hholds := holds_store (written p type t) 42 [pad1]
    rw [holds_cons] at hholds
    rw [hholds.1]
    decide
  · have hmore : 1 < padLen p.optLen := by
      rw [UInt8.lt_iff_toNat_lt]
      have hne0 : (padLen p.optLen).toNat ≠ 0 := fun heq => hpad (UInt8.toNat_inj.mp heq)
      have hne1 : (padLen p.optLen).toNat ≠ 1 := fun heq => hone (UInt8.toNat_inj.mp heq)
      change 1 < (padLen p.optLen).toNat
      omega
    rw [if_neg hone, if_pos hmore] at h
    simp only [ends_bind, ends_save, ends_saves] at h
    obtain ⟨-, -, -, hpost⟩ := h
    refine ⟨_, hpost, ?_⟩
    rw [store_apart (by omega), store_apart (by simp)]
    have hholds := holds_store (written p type t) 42 [padN]
    rw [holds_cons] at hholds
    rw [hholds.1]
    decide

/-- Without padding the header is what was written. -/
theorem ends_insertHbh {ok : Nat → Bool} {type : UInt8} {t : Store}
    {post : PUnit → Store → Prop} (hfits : p.optLen.toNat % 8 = 4)
    (hok : ∀ a, 40 ≤ a → a < 40 + extSize p.optLen → ok a = true)
    (hpost : post ⟨⟩ (written p type t)) :
    Ends (insertHbh ok type (p.block src dst)) t post := by
  obtain ⟨hhead, htake⟩ := p.take_block src dst
  have hsize := extSize_of_fits hfits
  have hlength := p.length_option
  unfold insertHbh
  rw [hhead]
  dsimp only
  rw [htake]
  simp only [ends_bind, ends_save, ends_saves, ends_load]
  refine ⟨hok 40 (by omega) (by omega), hok 41 (by omega) (by omega), hok 42 (by omega) (by omega),
    fun i hi => hok _ (by omega) (by omega), hok 43 (by omega) (by omega), ?_⟩
  change Ends _ (written p type t) post
  have hopt : store (store (store (store t 40 [type]) 41 [UInt8.ofNat (extSize p.optLen / 8 - 1)])
      42 [rplOption]) 43 p.option 43 = p.optLen := written_optLen p type t
  have hzero : padLen p.optLen = 0 := padLen_eq_zero_iff.mpr hfits
  rw [hopt]
  change Ends (if padLen p.optLen = 1 then _ else if 1 < padLen p.optLen then _ else _) _ post
  rw [hzero, if_neg (by decide), if_neg (by decide), ends_pure]
  exact hpost

/-- The header that was written has the option and no padding. -/
theorem hasOption_written {t : Store} (hfits : p.optLen.toNat % 8 = 4)
    (hpayload : Holds t (40 + extSize p.optLen) fwd.payload) :
    HasOption (written p fwd.type t) (extSize p.optLen) p.option fwd := by
  have hsize := extSize_of_fits hfits
  have hlength := p.length_option
  refine ⟨[], .nil, by rw [List.length_nil]; omega, ?_, ?_⟩
  · rw [List.append_nil, holds_cons, holds_cons, holds_cons]
    refine ⟨?_, ?_, ?_, holds_store ..⟩
    · rw [written, store_apart (by omega), store_apart (by omega), store_apart (by omega)]
      exact ((holds_cons ..).mp (holds_store t 40 [fwd.type])).1
    · rw [written, store_apart (by omega), store_apart (by omega)]
      exact ((holds_cons ..).mp (holds_store _ 41 _)).1
    · rw [written, store_apart (by omega)]
      exact ((holds_cons ..).mp (holds_store _ 42 _)).1
  · refine hpayload.congr fun i hi _ => ?_
    rw [written, store_apart (by omega), store_apart (by simp; omega),
      store_apart (by simp; omega), store_apart (by simp; omega)]

/-- The search finds the option of such a header. -/
theorem locate_hasOption {u : Store} (hfits : p.optLen.toNat % 8 = 4)
    (hoption : HasOption u (extSize p.optLen) p.option fwd)
    (hheader : WithHeader u (extSize p.optLen + fwd.payload.length)) :
    Ends (rpl_data_locate_info (inPacket (40 + extSize p.optLen + fwd.payload.length))
        (40 + extSize p.optLen + fwd.payload.length)) u fun r _ => r = some 42 := by
  obtain ⟨pad, -, -, hholds, -⟩ := hoption
  rw [holds_cons, holds_cons, holds_cons] at hholds
  obtain ⟨-, hhdr, hkind, -⟩ := hholds
  obtain ⟨hnh, hlen⟩ := hheader
  have hsize := extSize_of_fits hfits
  have hlt := p.optLen.toNat_lt
  have hhdrLen : (u 41).toNat = extSize p.optLen / 8 - 1 := by
    rw [hhdr, UInt8.toNat_ofNat']
    omega
  unfold rpl_data_locate_info
  rw [if_neg (by omega)]
  simp only [ends_bind, ends_loads, ends_load, inPacket, decide_eq_true_eq]
  rw [hlen, hnh, if_neg (by omega), if_pos ⟨rfl, by omega⟩]
  refine ⟨fun i hi => by omega, by omega, ?_⟩
  simp only [ends_bind, ends_load]
  rw [hhdrLen, if_neg (by omega)]
  refine ⟨decide_eq_true (by omega), decide_eq_true (by omega), ?_⟩
  rw [findRpl, if_pos (by omega), ends_bind, ends_load, hkind, if_neg (by decide), if_pos rfl,
    ends_pure]
  exact ⟨decide_eq_true (by omega), rfl⟩

/-- The id that is handed out is read at the flags of the option. -/
theorem get_dodagid_iff (hfits : p.optLen.toNat % 8 = 4) (hlocal : isLocal p.instanceId = true) :
    rpl_data_get_dodagid (p.block src dst) = some (p.dodagid src dst) ↔ IdAtFlags p src dst := by
  have hid : (p.dodagid src dst).length = 16 := Vector.length_toList
  have hlength := p.length_option
  have hpos : p.optLen.toNat ≠ 0 := by omega
  obtain ⟨n, hn⟩ := Nat.exists_eq_succ_of_ne_zero hpos
  have hfirst : bytes p.m (p.opt + 2) (n + 1) = p.m (p.opt + 2) :: bytes p.m (p.opt + 3) n := by
    have hsplit := bytes_append p.m (p.opt + 2) 1 n
    rw [Nat.add_comm 1] at hsplit
    exact hsplit
  have hblock : p.block src dst = p.option ++ p.dodagid src dst := by
    rw [Received.block, if_pos hlocal]
  have htotal : (p.block src dst).length = p.optLen.toNat + 17 := by
    rw [hblock, List.length_append, hlength, hid]
  have hcons : p.block src dst = p.optLen :: p.m (p.opt + 2) ::
      (bytes p.m (p.opt + 3) n ++ p.dodagid src dst) := by
    rw [hblock, p.option_eq, hn, hfirst]
    rfl
  have hget : rpl_data_get_dodagid (p.block src dst)
      = if 1 + (p.m (p.opt + 2)).toNat + 16 ≤ (p.block src dst).length then
          some (((p.block src dst).drop (1 + (p.m (p.opt + 2)).toNat)).take 16) else none := by
    conv_lhs => rw [hcons]
    simp only [rpl_data_get_dodagid]
    rw [← hcons]
  rw [hget, htotal, IdAtFlags, ← hblock, UInt8.le_iff_toNat_le]
  by_cases hin : (p.m (p.opt + 2)).toNat ≤ p.optLen.toNat
  · rw [if_pos (by omega), Option.some.injEq, and_iff_right hin]
  · rw [if_neg (by omega)]
    exact iff_of_false (fun h => by cases h) fun h => hin h.1

/-- Of an option of another length the type is overwritten. -/
theorem fits_of_survives (h : Survives p src dst fwd) : p.optLen.toNat % 8 = 4 := by
  unfold Survives at h
  rw [ends_remember] at h
  obtain ⟨block, hblock, -, hinsert⟩ := h
  obtain rfl : p.block src dst = block := Option.some.inj hblock
  by_contra hnot
  have hpad : padLen p.optLen ≠ 0 := fun h => hnot (padLen_eq_zero_iff.mp h)
  obtain ⟨u, ⟨hoption, -⟩, hlost⟩ := insertHbh_padded hpad
    (hinsert (store (fun _ => 0) (40 + extSize p.optLen) fwd.payload) (holds_store ..))
  obtain ⟨pad, -, -, hholds, -⟩ := hoption
  rw [holds_cons, holds_cons, holds_cons] at hholds
  exact hlost hholds.2.2.1

/-- **Which options survive.** -/
theorem survives_iff (p : Received) (src dst : Vector UInt8 16) (fwd : Forwarded) :
    Survives p src dst fwd ↔ Reinserts p src dst := by
  constructor
  · intro h
    have hfits := fits_of_survives h
    unfold Survives at h
    rw [ends_remember] at h
    obtain ⟨block, hblock, hid, -⟩ := h
    obtain rfl : p.block src dst = block := Option.some.inj hblock
    exact ⟨hfits, fun hlocal => (get_dodagid_iff hfits hlocal).mp (hid hlocal)⟩
  · rintro ⟨hfits, hid⟩
    unfold Survives
    rw [ends_remember]
    refine ⟨_, rfl, fun hlocal => (get_dodagid_iff hfits hlocal).mpr (hid hlocal), ?_⟩
    intro t hpayload
    have hoption := hasOption_written hfits hpayload
    refine ends_insertHbh hfits (fun a _ ha => decide_eq_true (by omega)) ⟨hoption, ?_⟩
    intro u hsame hheader
    refine locate_hasOption hfits ?_ hheader
    obtain ⟨pad, hpadding, hlength, hheld, hrest⟩ := hoption
    exact ⟨pad, hpadding, hlength, hheld.congr fun i hi _ => hsame i hi,
      hrest.congr fun i hi _ => hsame i (by omega)⟩

/-- A packet whose RPL option has a sub-TLV of two bytes, for a global instance. -/
def subTlv : Store :=
  ofList ([0x60, 0, 0, 0, 0, 16, 0, 64] ++ List.replicate 32 0 ++
    [59, 1, 0x63, 6, 0, 0, 1, 0, 0, 0, 1, 4, 0, 0, 0, 0])

theorem subTlv_hbh : HasHbh subTlv 56 := ⟨by decide, by decide, by decide⟩

theorem subTlv_sound : Sound subTlv 56 := by
  intro _ q hq
  rw [options, if_pos (by decide), if_neg (by decide), if_pos (by decide)] at hq
  obtain rfl := List.mem_singleton.mp hq
  decide

theorem subTlv_found :
    Ends (rpl_data_locate_info (inPacket 56) 56) subTlv fun r t => r = some 42 ∧ t = subTlv := by
  unfold rpl_data_locate_info
  rw [if_neg (by decide)]
  simp only [ends_bind, ends_loads, ends_load]
  refine ⟨fun i hi => decide_eq_true (by omega), by decide, ?_⟩
  rw [if_neg (by decide), if_pos (by decide)]
  simp only [ends_bind, ends_load]
  refine ⟨by decide, by decide, ?_⟩
  rw [if_neg (by decide), findRpl, if_pos (by decide), ends_bind, ends_load, if_neg (by decide),
    if_pos (by decide), ends_pure]
  exact ⟨by decide, rfl, rfl⟩

/-- The packet as it is received. -/
def subTlvPacket : Received where
  m := subTlv
  len := 56
  opt := 42
  hbh := subTlv_hbh
  sound := subTlv_sound
  found := subTlv_found

/-- Its option does not come through the next tunnel. -/
theorem not_survives :
    ¬ ∀ (p : Received) (src dst : Vector UInt8 16) (fwd : Forwarded), Survives p src dst fwd := by
  intro h
  have hfits := fits_of_survives (h subTlvPacket (Vector.replicate 16 0) (Vector.replicate 16 0)
    ⟨59, [], by decide⟩)
  revert hfits
  decide

end RplTunnel
