import WisunModem.ByteStore
import WisunModem.MacIe

/-!
# The hopping schedule on the air

`ws_ie_lib.c` announces the length of a unicast or broadcast schedule, writes it, and reads what
it receives, in three walks over a format that depends on the channel plan, the channel function
and the way excluded channels are given.  Memory is a `Store`, a pointer an address in it.

* `length_content` — as many bytes are written as were announced;
* `usContentRead_write_iff` — a written unicast schedule is read back, unless it has both a channel list and
  excluded channels: the reader is then one byte too far, because it moves past the first byte of
  the list when it takes its address and again when it skips the list;
* `usContentRead_inside_iff` — the same slip lets it return excluded channels behind the element.
-/

namespace HoppingIe

open ByteStore MacIe Tlv

def WP_PAYLOAD_IE_US_TYPE : Nat := 1
def WP_PAYLOAD_IE_BS_TYPE : Nat := 2

def WS_EXC_CHAN_CTRL_NONE : Nat := 0
def WS_EXC_CHAN_CTRL_RANGE : Nat := 1
def WS_EXC_CHAN_CTRL_BITMASK : Nat := 2

/-- `ws_excluded_channel_data_t`; the ranges are as many as `excluded_range_length` says. -/
structure ExcludedData where
  excuded_channel_ctrl : Nat
  exluded_range : List (UInt16 × UInt16)
  channel_mask_bytes_inline : Nat
  channel_mask : Vector UInt32 8
  ctrl_le : excuded_channel_ctrl ≤ 2
  /-- The counter has three bits. -/
  range_length_lt : exluded_range.length < 2 ^ 3
  /-- Ranges are only chosen where there are some. -/
  range_ne_nil : excuded_channel_ctrl = WS_EXC_CHAN_CTRL_RANGE → exluded_range ≠ []
  /-- The mask has eight words. -/
  mask_bytes_le : channel_mask_bytes_inline ≤ 32

/-- `ws_hopping_schedule_t`, as far as the elements use it. -/
structure Schedule where
  fhss_uc_dwell_interval : UInt8
  fhss_bc_dwell_interval : UInt8
  regulatory_domain : UInt8
  operating_class : UInt8
  channel_plan : Nat
  uc_channel_function : Nat
  bc_channel_function : Nat
  channel_spacing : Nat
  number_of_channels : UInt8
  clock_drift : UInt8
  timing_accurancy : UInt8
  uc_fixed_channel : UInt16
  bc_fixed_channel : UInt16
  fhss_bsi : UInt16
  fhss_broadcast_interval : UInt32
  /-- In units of 100 kHz. -/
  ch0_freq : Nat
  excluded_channels : ExcludedData
  plan_le : channel_plan ≤ 1
  uc_function_le : uc_channel_function ≤ 3
  bc_function_le : bc_channel_function ≤ 3
  spacing_lt : channel_spacing < 2 ^ 4
  /-- In kHz it has 24 bits. -/
  ch0_lt : ch0_freq * 100 < 2 ^ 24
  /-- The mask is made for the channels of the schedule. -/
  mask_bytes_eq : channel_plan = 1 →
    excluded_channels.excuded_channel_ctrl = WS_EXC_CHAN_CTRL_BITMASK →
    excluded_channels.channel_mask_bytes_inline = (number_of_channels.toNat + 7) / 8

/-! ## Announcing and writing -/

def ws_channel_plan_length : Nat → Nat
  | 0 => 2
  | 1 => 6
  | _ => 0

def ws_channel_function_length (channel_function hop_channel_count : Nat) : Nat :=
  match channel_function with
  | 0 => 2
  | 1 => 0
  | 2 => 0
  | 3 => 1 + hop_channel_count
  | _ => 0

def Schedule.channelFunction (h : Schedule) (unicast_schedule : Bool) : Nat :=
  if unicast_schedule then h.uc_channel_function else h.bc_channel_function

def ws_wp_nested_hopping_schedule_length (h : Schedule) (unicast_schedule : Bool) : Nat :=
  let ctrl := h.excluded_channels.excuded_channel_ctrl
  (if unicast_schedule then 4 else 10) + ws_channel_plan_length h.channel_plan +
    ws_channel_function_length (h.channelFunction unicast_schedule) 1 +
    if unicast_schedule ∧ ctrl ≠ 0 then
      if ctrl = WS_EXC_CHAN_CTRL_RANGE then h.excluded_channels.exluded_range.length * 4 + 1
      else h.excluded_channels.channel_mask_bytes_inline
    else 0

/-- `channel_info_base` -/
def channelInfo (h : Schedule) (unicast_schedule : Bool) : UInt8 :=
  UInt8.ofNat (h.channel_plan |||
    (if unicast_schedule then
      (h.uc_channel_function <<< 3) ||| (h.excluded_channels.excuded_channel_ctrl <<< 6)
    else h.bc_channel_function <<< 3))

def planBytes (h : Schedule) : List UInt8 :=
  match h.channel_plan with
  | 0 => [h.regulatory_domain, h.operating_class]
  | 1 => bytes24 (h.ch0_freq * 100) ++ UInt8.ofNat h.channel_spacing ::
      bytes16 h.number_of_channels.toNat
  | _ => []

def functionBytes (h : Schedule) (unicast_schedule : Bool) : List UInt8 :=
  match h.channelFunction unicast_schedule with
  | 0 => bytes16 (if unicast_schedule then h.uc_fixed_channel else h.bc_fixed_channel).toNat
  | 1 => []
  | 2 => []
  | 3 => [1, 0]
  | _ => []

/-- The loop over the ranges. -/
def rangeBytes : List (UInt16 × UInt16) → List UInt8
  | [] => []
  | (range_start, range_end) :: ranges =>
      bytes16 range_start.toNat ++ bytes16 range_end.toNat ++ rangeBytes ranges

/-- The inner loop: the `n` top bytes of a mask word. -/
def topBytes (mask_value : UInt32) (move_mask : Nat) : Nat → List UInt8
  | 0 => []
  | n + 1 =>
      UInt8.ofNat (mask_value.toNat >>> (24 - move_mask)) ::
        topBytes mask_value (move_mask + 8) n

/-- The loop over the mask words; `channel_mask_length` is counted in bytes here. -/
def maskBytes : List UInt32 → Nat → List UInt8
  | [], _ => []
  | mask_value :: words, n =>
      if 4 ≤ n then
        topBytes mask_value 0 4 ++ (if n - 4 = 0 then [] else maskBytes words (n - 4))
      else topBytes mask_value 0 n

def excludedBytes (h : Schedule) (unicast_schedule : Bool) : List UInt8 :=
  let ex := h.excluded_channels
  if unicast_schedule ∧ ex.excuded_channel_ctrl ≠ 0 then
    if ex.excuded_channel_ctrl = WS_EXC_CHAN_CTRL_RANGE then
      UInt8.ofNat ex.exluded_range.length :: rangeBytes ex.exluded_range
    else if ex.excuded_channel_ctrl = WS_EXC_CHAN_CTRL_BITMASK then
      maskBytes ex.channel_mask.toList ex.channel_mask_bytes_inline
    else []
  else []

/-- What comes before the channel plan. -/
def timingBytes (h : Schedule) (unicast_schedule : Bool) : List UInt8 :=
  (if unicast_schedule then [h.fhss_uc_dwell_interval]
    else bytes32 h.fhss_broadcast_interval.toNat ++ bytes16 h.fhss_bsi.toNat ++
      [h.fhss_bc_dwell_interval]) ++
    [h.clock_drift, h.timing_accurancy, channelInfo h unicast_schedule]

/-- What `ws_wp_nested_hopping_schedule_write` writes behind the header. -/
def content (h : Schedule) (unicast_schedule : Bool) : List UInt8 :=
  timingBytes h unicast_schedule ++ (planBytes h ++ (functionBytes h unicast_schedule ++
    excludedBytes h unicast_schedule))

def ws_wp_nested_hopping_schedule_write (h : Schedule) (unicast_schedule : Bool) :
    List UInt8 :=
  headerBytes (mac_ie_nested_ie_long_base_write
    (if unicast_schedule then WP_PAYLOAD_IE_US_TYPE else WP_PAYLOAD_IE_BS_TYPE)
    (ws_wp_nested_hopping_schedule_length h unicast_schedule)) ++ content h unicast_schedule

theorem length_rangeBytes (ranges : List (UInt16 × UInt16)) :
    (rangeBytes ranges).length = ranges.length * 4 := by
  induction ranges with
  | nil => rfl
  | cons r ranges ih =>
      rw [rangeBytes, List.length_append, ih, List.length_cons, Nat.succ_mul]
      exact Nat.add_comm ..

@[simp] theorem length_topBytes (w : UInt32) (move n : Nat) :
    (topBytes w move n).length = n := by
  induction n generalizing move with
  | zero => rfl
  | succ n ih => rw [topBytes, List.length_cons, ih]

theorem length_maskBytes {words : List UInt32} {n : Nat} (hn : n ≤ 4 * words.length) :
    (maskBytes words n).length = n := by
  induction words generalizing n with
  | nil =>
      obtain rfl : n = 0 := by simpa using hn
      rfl
  | cons w words ih =>
      rw [List.length_cons] at hn
      unfold maskBytes
      split
      · next hfour =>
          rw [List.length_append, length_topBytes]
          split
          · rw [List.length_nil]
            omega
          · rw [ih (by omega)]
            omega
      · exact length_topBytes ..

theorem length_planBytes (h : Schedule) :
    (planBytes h).length = ws_channel_plan_length h.channel_plan := by
  unfold planBytes ws_channel_plan_length
  split <;> rfl

theorem length_functionBytes (h : Schedule) (unicast : Bool) :
    (functionBytes h unicast).length =
      ws_channel_function_length (h.channelFunction unicast) 1 := by
  unfold functionBytes ws_channel_function_length
  split <;> simp_all [bytes16]

theorem length_excludedBytes (h : Schedule) (unicast : Bool) :
    (excludedBytes h unicast).length =
      if unicast ∧ h.excluded_channels.excuded_channel_ctrl ≠ 0 then
        if h.excluded_channels.excuded_channel_ctrl = WS_EXC_CHAN_CTRL_RANGE then
          h.excluded_channels.exluded_range.length * 4 + 1
        else h.excluded_channels.channel_mask_bytes_inline
      else 0 := by
  have hctrl := h.excluded_channels.ctrl_le
  have hmask := h.excluded_channels.mask_bytes_le
  unfold excludedBytes
  simp only []
  split
  · next hsome =>
      split
      · rw [List.length_cons, length_rangeBytes]
      · next hrange =>
          unfold WS_EXC_CHAN_CTRL_RANGE at hrange
          rw [if_pos (show _ = WS_EXC_CHAN_CTRL_BITMASK by
            unfold WS_EXC_CHAN_CTRL_BITMASK; omega)]
          exact length_maskBytes (by simpa using hmask)
  · rfl

/-- **As many bytes are written** as were announced. -/
theorem length_content (h : Schedule) (unicast : Bool) :
    (content h unicast).length = ws_wp_nested_hopping_schedule_length h unicast := by
  have htiming : (timingBytes h unicast).length = if unicast then 4 else 10 := by
    cases unicast <;> rfl
  unfold content ws_wp_nested_hopping_schedule_length
  rw [List.length_append, List.length_append, List.length_append, htiming, length_planBytes,
    length_functionBytes, length_excludedBytes]
  simp only [Nat.add_assoc]

/-! ## Reading -/

/-- The union of `ws_channel_plan_zero_t` and `ws_channel_plan_one_t`. -/
inductive Plan where
  | zero (regulator_domain operation_class : UInt8)
  | one (ch0 channel_spacing number_of_channel : Nat)
deriving DecidableEq, Repr

/-- The union of `ws_channel_function_zero_t` and `ws_channel_function_three_t`; the list is an
address. -/
inductive Function where
  | zero (fixed_channel : Nat)
  | none
  | three (channel_hop_count channel_list : Nat)
deriving DecidableEq, Repr

/-- The union of `ws_excluded_channel_range_t` and `ws_excluded_channel_mask_t`, with
addresses. -/
inductive Excluded where
  | none
  | range (number_of_range range_start : Nat)
  | mask (mask_len_inline channel_mask : Nat)
deriving DecidableEq, Repr

/-- What both readers make of the rest of an element. -/
structure Channels where
  channel_plan : Nat
  channel_function : Nat
  plan : Plan
  function : Function
deriving DecidableEq, Repr

/-- `ws_us_ie_t` -/
structure UsIe where
  dwell_interval : UInt8
  clock_drift : UInt8
  timing_accurancy : UInt8
  excluded_channel_ctrl : Nat
  channels : Channels
  excluded_channels : Excluded
deriving DecidableEq, Repr

/-- `ws_bs_ie_t` -/
structure BsIe where
  broadcast_interval : Nat
  broadcast_schedule_identifier : Nat
  dwell_interval : UInt8
  clock_drift : UInt8
  timing_accurancy : UInt8
  excluded_channel_ctrl : Nat
  channels : Channels
deriving DecidableEq, Repr

variable (mem : Store)

def ws_channel_plan_zero_read (a : Nat) : Plan := .zero (mem a) (mem (a + 1))

/-- The spacing is a field of four bits. -/
def ws_channel_plan_one_read (a : Nat) : Plan :=
  .one (le24 mem a / 100) ((mem (a + 3)).toNat % 2 ^ 4) (le16 mem (a + 4))

def infoPlan (info : UInt8) : Nat := info.toNat &&& 3
def infoFunction (info : UInt8) : Nat := (info.toNat &&& 0x38) >>> 3
def infoCtrl (info : UInt8) : Nat := (info.toNat &&& 0xc0) >>> 6

/-- The plan at `data`, with `length` bytes left; what comes next and the bytes left there. -/
def planRead (channel_plan data length : Nat) : Option (Plan × Nat × Nat) :=
  if length < ws_channel_plan_length channel_plan then none
  else match channel_plan with
    | 0 => some (ws_channel_plan_zero_read mem data, data + 2, length - 2)
    | 1 => some (ws_channel_plan_one_read mem data, data + 6, length - 6)
    | _ => none

/-- The channel function.  A list moves the pointer past its first byte with `channel_list = ptr++`
and past all of it with `data += info_length`. -/
def functionRead (channel_function data length : Nat) : Option (Function × Nat × Nat) :=
  if length < ws_channel_function_length channel_function 0 then none
  else match channel_function with
    | 0 => some (.zero (le16 mem data), data + 2, length - 2)
    | 1 => some (.none, data, length)
    | 2 => some (.none, data, length)
    | 3 =>
        let info_length := (mem data).toNat
        if length - 1 < info_length then none
        else some (.three info_length (data + 1), data + 2 + info_length,
          length - 1 - info_length)
    | _ => none

/-- The walk that both readers make over the plan and the function. -/
def channelsRead (info : UInt8) (data length : Nat) : Option (Channels × Nat × Nat) :=
  match planRead mem (infoPlan info) data length with
  | none => none
  | some (plan, data, length) =>
      match functionRead mem (infoFunction info) data length with
      | none => none
      | some (function, data, length) =>
          some (⟨infoPlan info, infoFunction info, plan, function⟩, data, length)

/-- The excluded channels; the length of a mask has eight bits. -/
def excludedRead (ctrl : Nat) (plan : Plan) (data length : Nat) : Option Excluded :=
  match ctrl with
  | 0 => some .none
  | 1 =>
      let number_of_range := (mem data).toNat
      if length < number_of_range * 4 + 1 then none
      else some (.range number_of_range (data + 1))
  | 2 =>
      match plan with
      | .one _ _ number_of_channel =>
          let mask_len_inline := (number_of_channel + 7) / 8 % 2 ^ 8
          if mask_len_inline ≠ length then none else some (.mask mask_len_inline data)
      | .zero _ _ => some (.mask (length % 2 ^ 8) data)
  | _ => none

/-- `ws_wp_nested_us_read` from the content on. -/
def usContentRead (data length : Nat) : Option UsIe :=
  if length < 4 then none
  else
    let info := mem (data + 3)
    match channelsRead mem info (data + 4) (length - 4) with
    | none => none
    | some (channels, next, left) =>
        match excludedRead mem (infoCtrl info) channels.plan next left with
        | none => none
        | some excluded =>
            some ⟨mem data, mem (data + 1), mem (data + 2), infoCtrl info, channels, excluded⟩

/-- `ws_wp_nested_bs_read` from the content on. -/
def bsContentRead (data length : Nat) : Option BsIe :=
  if length < 10 then none
  else
    let info := mem (data + 9)
    match channelsRead mem info (data + 10) (length - 10) with
    | none => none
    | some (channels, _, _) =>
        some ⟨le32 mem data, le16 mem (data + 4), mem (data + 6), mem (data + 7), mem (data + 8),
          infoCtrl info, channels⟩

/-- The elements of a frame: a length of sixteen bits, and as many bytes from address 0 on. -/
def area (length : UInt16) : Area :=
  ⟨bytes mem 0 length.toNat, by rw [length_bytes]; exact length.toNat_lt⟩

/-- Where the content of the element is and how long; an element that is not found counts as
empty. -/
def found (length : UInt16) (id : Nat) : Nat × Nat :=
  match mac_ie_nested_discover (area mem length) id true with
  | .found start len => (start, len)
  | _ => (0, 0)

def ws_wp_nested_us_read (length : UInt16) : Option UsIe :=
  usContentRead mem (found mem length WP_PAYLOAD_IE_US_TYPE).1
    (found mem length WP_PAYLOAD_IE_US_TYPE).2

def ws_wp_nested_bs_read (length : UInt16) : Option BsIe :=
  bsContentRead mem (found mem length WP_PAYLOAD_IE_BS_TYPE).1
    (found mem length WP_PAYLOAD_IE_BS_TYPE).2

variable {mem}

/-! ## What a reader may return -/

/-- The channel list lies in the element at `data`. -/
def Function.Inside (data length : Nat) : Function → Prop
  | .three count list => data ≤ list ∧ list + count ≤ data + length
  | _ => True

/-- The ranges or the mask lie in the element at `data`. -/
def Excluded.Inside (data length : Nat) : Excluded → Prop
  | .none => True
  | .range number start => data ≤ start ∧ start + number * 4 ≤ data + length
  | .mask len start => data ≤ start ∧ start + len ≤ data + length

theorem planRead_some {plan data length next left : Nat} {p : Plan}
    (hread : planRead mem plan data length = some (p, next, left)) :
    plan ≤ 1 ∧ ws_channel_plan_length plan ≤ length ∧
      next = data + ws_channel_plan_length plan ∧
      left = length - ws_channel_plan_length plan ∧
      p = if plan = 0 then ws_channel_plan_zero_read mem data
        else ws_channel_plan_one_read mem data := by
  unfold planRead at hread
  split at hread
  · cases hread
  · next hlong =>
      have hfits := Nat.le_of_not_lt hlong
      split at hread <;> cases hread
      · exact ⟨Nat.zero_le _, hfits, rfl, rfl, rfl⟩
      · exact ⟨Nat.le_refl _, hfits, rfl, rfl, rfl⟩

/-- The function is read to its end, and a list to one byte behind its end. -/
theorem functionRead_some {cf data length next left : Nat} {f : Function}
    (hread : functionRead mem cf data length = some (f, next, left)) :
    f.Inside data length ∧ data ≤ next ∧ left ≤ length ∧
      next + left = data + length + if cf = 3 then 1 else 0 := by
  unfold functionRead at hread
  split at hread
  · cases hread
  · next hlong =>
      split at hread
      · cases hread
        have hfits : 2 ≤ length := Nat.le_of_not_lt hlong
        refine ⟨trivial, Nat.le_add_right .., Nat.sub_le .., ?_⟩
        simp only [Nat.reduceEqDiff, if_false]
        omega
      · cases hread
        exact ⟨trivial, Nat.le_refl _, Nat.le_refl _, rfl⟩
      · cases hread
        exact ⟨trivial, Nat.le_refl _, Nat.le_refl _, rfl⟩
      · have hfits : 1 ≤ length := Nat.le_of_not_lt hlong
        simp only [] at hread
        split at hread
        · cases hread
        · next hlist =>
            cases hread
            refine ⟨⟨Nat.le_add_right .., by omega⟩, by omega, by omega, ?_⟩
            rw [if_pos rfl]
            omega
      · cases hread

/-- Where a channel list would end, counted from the start of the element. -/
def listEnd (mem : Store) (data : Nat) : Nat :=
  5 + ws_channel_plan_length (infoPlan (mem (data + 3))) +
    (mem (data + 4 + ws_channel_plan_length (infoPlan (mem (data + 3))))).toNat

/-- The received bytes make the reader stray: behind a channel list there are excluded channels
that reach to the end of the element, as far as the reader counts. -/
structure Strays (mem : Store) (data length : Nat) : Prop where
  plan : infoPlan (mem (data + 3)) ≤ 1
  function : infoFunction (mem (data + 3)) = 3
  list : listEnd mem data ≤ length
  excluded :
    infoCtrl (mem (data + 3)) = WS_EXC_CHAN_CTRL_RANGE ∧
        length - listEnd mem data = (mem (data + listEnd mem data + 1)).toNat * 4 + 1 ∨
      infoCtrl (mem (data + 3)) = WS_EXC_CHAN_CTRL_BITMASK ∧
        length - listEnd mem data < 2 ^ 8 ∧
        (infoPlan (mem (data + 3)) = 1 →
          (le16 mem (data + 8) + 7) / 8 % 2 ^ 8 = length - listEnd mem data)

/-- The pointers of a unicast schedule lie in the element. -/
def UsIe.Inside (data length : Nat) (ie : UsIe) : Prop :=
  ie.channels.function.Inside data length ∧ ie.excluded_channels.Inside data length

def BsIe.Inside (data length : Nat) (ie : BsIe) : Prop := ie.channels.function.Inside data length

theorem Function.Inside.mono {data length data' length' : Nat} {f : Function}
    (hf : f.Inside data' length') (hstart : data ≤ data')
    (hstop : data' + length' ≤ data + length) : f.Inside data length := by
  cases f with
  | zero _ => trivial
  | none => trivial
  | three count list => exact ⟨Nat.le_trans hstart hf.1, Nat.le_trans hf.2 hstop⟩

theorem channelsRead_some {info : UInt8} {data length next left : Nat} {ch : Channels}
    (hread : channelsRead mem info data length = some (ch, next, left)) :
    ∃ data' length', planRead mem (infoPlan info) data length = some (ch.plan, data', length') ∧
      functionRead mem (infoFunction info) data' length' = some (ch.function, next, left) := by
  unfold channelsRead at hread
  split at hread
  · cases hread
  · next p data' length' hplan =>
      split at hread
      · cases hread
      · next f next' left' hfunction =>
          cases hread
          exact ⟨data', length', hplan, hfunction⟩

/-- A channel list lies in the element, whatever comes behind it. -/
theorem channelsRead_inside {info : UInt8} {data length next left : Nat} {ch : Channels}
    (hread : channelsRead mem info data length = some (ch, next, left)) :
    ch.function.Inside data length := by
  obtain ⟨data', length', hplan, hfunction⟩ := channelsRead_some hread
  obtain ⟨-, hfits, rfl, rfl, -⟩ := planRead_some hplan
  exact (functionRead_some hfunction).1.mono (Nat.le_add_right ..) (by omega)

/-- Excluded channels lie in the element if the reader is where it thinks it is; one byte further
on they do unless bytes are left behind them. -/
theorem excludedRead_inside {ctrl next left data length : Nat} {p : Plan} {ex : Excluded}
    (hread : excludedRead mem ctrl p next left = some ex) (hdata : data ≤ next)
    (hstop : next + left ≤ data + length) : ex.Inside data length := by
  unfold excludedRead at hread
  split at hread
  · cases hread
    trivial
  · simp only [] at hread
    split at hread
    · cases hread
    · next hcount =>
        cases hread
        exact ⟨by omega, by omega⟩
  · cases p with
    | zero _ _ =>
        cases hread
        exact ⟨hdata, by have hmod := Nat.mod_le left (2 ^ 8); omega⟩
    | one _ _ number =>
        simp only [] at hread
        split at hread
        · cases hread
        · next hsame =>
            cases hread
            exact ⟨hdata, by omega⟩
  · cases hread

theorem usContentRead_some {data length : Nat} {ie : UsIe}
    (hread : usContentRead mem data length = some ie) :
    4 ≤ length ∧ ∃ next left,
      channelsRead mem (mem (data + 3)) (data + 4) (length - 4) =
        some (ie.channels, next, left) ∧
      excludedRead mem (infoCtrl (mem (data + 3))) ie.channels.plan next left =
        some ie.excluded_channels := by
  unfold usContentRead at hread
  split at hread
  · cases hread
  · next hlong =>
      simp only [] at hread
      split at hread
      · cases hread
      · next ch next' left' hchannels =>
          split at hread
          · cases hread
          · next ex hexcluded =>
              cases hread
              exact ⟨Nat.le_of_not_lt hlong, next', left', hchannels, hexcluded⟩

theorem plan_length_le {plan : Nat} : ws_channel_plan_length plan ≤ 6 := by
  unfold ws_channel_plan_length
  split <;> decide

/-- Where the reader stands behind a channel list: one byte too far. -/
theorem channelsRead_list {data length next left : Nat} {ch : Channels}
    (hfunction : infoFunction (mem (data + 3)) = 3)
    (_hlength : 4 ≤ length)
    (hread : channelsRead mem (mem (data + 3)) (data + 4) (length - 4) =
      some (ch, next, left)) :
    infoPlan (mem (data + 3)) ≤ 1 ∧ listEnd mem data ≤ length ∧
      next = data + listEnd mem data + 1 ∧ left = length - listEnd mem data := by
  obtain ⟨data', length', hplan, hlist⟩ := channelsRead_some hread
  obtain ⟨hle, hfits, rfl, rfl, -⟩ := planRead_some hplan
  rw [hfunction] at hlist
  unfold functionRead at hlist
  split at hlist
  · cases hlist
  · next hone =>
      have hpos : 1 ≤ length - 4 - ws_channel_plan_length (infoPlan (mem (data + 3))) :=
        Nat.le_of_not_lt hone
      simp only [] at hlist
      split at hlist
      · cases hlist
      · next hcount =>
          simp only [Option.some.injEq, Prod.mk.injEq] at hlist
          obtain ⟨-, rfl, rfl⟩ := hlist
          refine ⟨hle, ?_, ?_, ?_⟩ <;> rw [listEnd] <;> omega

/-- What was accepted behind a channel list lies inside unless it reaches to the end. -/
theorem excludedRead_list {ctrl next left stop : Nat} {p : Plan} {ex : Excluded} {data : Nat}
    (hread : excludedRead mem ctrl p next left = some ex) (hdata : data ≤ next)
    (hstop : next + left = data + stop + 1) :
    ex.Inside data stop ↔ ¬ (ctrl = WS_EXC_CHAN_CTRL_RANGE ∧ left = (mem next).toNat * 4 + 1 ∨
      ctrl = WS_EXC_CHAN_CTRL_BITMASK ∧ left < 2 ^ 8) := by
  unfold WS_EXC_CHAN_CTRL_RANGE WS_EXC_CHAN_CTRL_BITMASK
  unfold excludedRead at hread
  split at hread
  · cases hread
    simp [Excluded.Inside]
  · simp only [] at hread
    split at hread
    · cases hread
    · next hcount =>
        cases hread
        simp only [Excluded.Inside, true_and, Nat.reduceEqDiff, false_and, or_false]
        omega
  · cases p with
    | zero _ _ =>
        cases hread
        simp only [Excluded.Inside, true_and, Nat.reduceEqDiff, false_and, false_or]
        omega
    | one _ _ number =>
        simp only [] at hread
        split at hread
        · cases hread
        · next hsame =>
            cases hread
            simp only [Excluded.Inside, true_and, Nat.reduceEqDiff, false_and, false_or]
            omega
  · cases hread

/-- A mask of a plan with its own number of channels has the length of that number. -/
theorem excludedRead_one {next left ch0 spacing number : Nat} {ex : Excluded}
    (hread : excludedRead mem WS_EXC_CHAN_CTRL_BITMASK (.one ch0 spacing number) next left =
      some ex) : (number + 7) / 8 % 2 ^ 8 = left := by
  unfold excludedRead WS_EXC_CHAN_CTRL_BITMASK at hread
  simp only [] at hread
  split at hread
  · cases hread
  · next hsame => exact Decidable.not_not.mp hsame

/-- The plan is one of the two. -/
theorem planRead_of (mem : Store) (data length : Nat) {plan : Nat} (hplan : plan ≤ 1)
    (hlength : ws_channel_plan_length plan ≤ length) :
    planRead mem plan data length =
      some (if plan = 0 then ws_channel_plan_zero_read mem data
        else ws_channel_plan_one_read mem data, data + ws_channel_plan_length plan,
        length - ws_channel_plan_length plan) := by
  unfold planRead
  rw [if_neg (Nat.not_lt.mpr hlength)]
  obtain rfl | rfl : plan = 0 ∨ plan = 1 := by omega
  · rfl
  · rfl

/-- A list that is there is read. -/
theorem functionRead_three (mem : Store) (data length : Nat)
    (hlist : 1 + (mem data).toNat ≤ length) :
    functionRead mem 3 data length =
      some (.three (mem data).toNat (data + 1), data + 2 + (mem data).toNat,
        length - 1 - (mem data).toNat) := by
  unfold functionRead
  rw [if_neg (show ¬ length < ws_channel_function_length 3 0 from Nat.not_lt.mpr (by
    change 1 ≤ length
    omega))]
  simp only []
  rw [if_neg (by omega)]

/-- Behind a list that is there the reader stands one byte too far. -/
theorem channelsRead_of_list {data length : Nat} (hplan : infoPlan (mem (data + 3)) ≤ 1)
    (hthree : infoFunction (mem (data + 3)) = 3) (hlist : listEnd mem data ≤ length) :
    ∃ ch, channelsRead mem (mem (data + 3)) (data + 4) (length - 4) =
        some (ch, data + listEnd mem data + 1, length - listEnd mem data) ∧
      ch.plan = if infoPlan (mem (data + 3)) = 0 then ws_channel_plan_zero_read mem (data + 4)
        else ws_channel_plan_one_read mem (data + 4) := by
  have hend : listEnd mem data = 5 + ws_channel_plan_length (infoPlan (mem (data + 3))) +
    (mem (data + 4 + ws_channel_plan_length (infoPlan (mem (data + 3))))).toNat := rfl
  generalize hpl : ws_channel_plan_length (infoPlan (mem (data + 3))) = pl at hend
  generalize hcount : (mem (data + 4 + pl)).toNat = count at hend
  have hread := planRead_of mem (data + 4) (length - 4) hplan (by omega)
  have hfunction := functionRead_three mem (data + 4 + pl) (length - 4 - pl) (by omega)
  have hnext : data + 4 + pl + 2 + count = data + listEnd mem data + 1 := by omega
  have hleft : length - 4 - pl - 1 - count = length - listEnd mem data := by omega
  rw [hpl] at hread
  rw [hcount, hnext, hleft] at hfunction
  refine ⟨⟨infoPlan (mem (data + 3)), infoFunction (mem (data + 3)),
    if infoPlan (mem (data + 3)) = 0 then ws_channel_plan_zero_read mem (data + 4)
    else ws_channel_plan_one_read mem (data + 4), .three count (data + 4 + pl + 1)⟩, ?_, rfl⟩
  rw [channelsRead, hread]
  simp only []
  rw [hthree, hfunction]

/-- Where the reader would stray, it accepts the element. -/
theorem Strays.accepted {data length : Nat} (hstrays : Strays mem data length) :
    ∃ ie, usContentRead mem data length = some ie := by
  obtain ⟨hplan, hthree, hlist, hexcluded⟩ := hstrays
  obtain ⟨ch, hchannels, hp⟩ := channelsRead_of_list hplan hthree hlist
  have hfour : ¬ length < 4 := by
    have hend : listEnd mem data = 5 + ws_channel_plan_length (infoPlan (mem (data + 3))) +
      (mem (data + 4 + ws_channel_plan_length (infoPlan (mem (data + 3))))).toNat := rfl
    omega
  have haccepted : ∃ ex, excludedRead mem (infoCtrl (mem (data + 3))) ch.plan
      (data + listEnd mem data + 1) (length - listEnd mem data) = some ex := by
    rcases hexcluded with ⟨hctrl, hcount⟩ | ⟨hctrl, -, hmask⟩
    · refine ⟨.range (mem (data + listEnd mem data + 1)).toNat (data + listEnd mem data + 2), ?_⟩
      rw [hctrl]
      unfold excludedRead WS_EXC_CHAN_CTRL_RANGE
      simp only []
      rw [if_neg (by omega)]
    · rw [hctrl, hp]
      split
      · exact ⟨_, rfl⟩
      · next hnonzero =>
          have hsame := hmask (by omega)
          refine ⟨.mask (length - listEnd mem data) (data + listEnd mem data + 1), ?_⟩
          unfold excludedRead WS_EXC_CHAN_CTRL_BITMASK ws_channel_plan_one_read
          simp only []
          rw [show data + 4 + 4 = data + 8 from rfl, hsame]
          simp
  obtain ⟨ex, hex⟩ := haccepted
  refine ⟨⟨mem data, mem (data + 1), mem (data + 2), infoCtrl (mem (data + 3)), ch, ex⟩, ?_⟩
  rw [usContentRead, if_neg hfour]
  simp only []
  rw [hchannels]
  simp only []
  rw [hex]

/-- **A reader strays** where a list is followed by excluded channels that fill the element. -/
theorem usContentRead_inside_iff (data length : Nat) :
    (∀ ie, usContentRead mem data length = some ie → ie.Inside data length) ↔
      ¬ Strays mem data length := by
  constructor
  · intro hinside hstrays
    obtain ⟨ie, hread⟩ := hstrays.accepted
    obtain ⟨hplan, hthree, hlist, hexcluded⟩ := hstrays
    obtain ⟨hlength, next', left', hchannels, hread'⟩ := usContentRead_some hread
    obtain ⟨-, -, hnext, hleft⟩ := channelsRead_list hthree hlength hchannels
    refine (excludedRead_list hread' (by omega) (by omega)).mp (hinside ie hread).2 ?_
    rw [hleft, hnext]
    rcases hexcluded with hrange | ⟨hctrl, hshort, -⟩
    · exact Or.inl hrange
    · exact Or.inr ⟨hctrl, hshort⟩
  · intro hnot ie hread
    obtain ⟨hlength, next', left', hchannels, hexcluded⟩ := usContentRead_some hread
    obtain ⟨data', length', hplan, hfunction⟩ := channelsRead_some hchannels
    obtain ⟨hplanle, hfits, rfl, rfl, hp⟩ := planRead_some hplan
    obtain ⟨-, hnext, hleft, hsum⟩ := functionRead_some hfunction
    refine ⟨(channelsRead_inside hchannels).mono (by omega) (by omega), ?_⟩
    by_cases hthree : infoFunction (mem (data + 3)) = 3
    · obtain ⟨hle, hlist, hnext', hleft'⟩ := channelsRead_list hthree hlength hchannels
      refine (excludedRead_list hexcluded (by omega) (by omega)).mpr fun hfull => ?_
      refine hnot ⟨hle, hthree, hlist, ?_⟩
      rw [← hleft', ← hnext']
      rcases hfull with ⟨hctrl, hcount⟩ | ⟨hctrl, hshort⟩
      · exact Or.inl ⟨hctrl, hcount⟩
      · refine Or.inr ⟨hctrl, hshort, fun hone => ?_⟩
        rw [hone, if_neg (by decide)] at hp
        rw [hp, hctrl] at hexcluded
        exact excludedRead_one hexcluded
    · refine excludedRead_inside hexcluded (by omega) ?_
      rw [if_neg hthree] at hsum
      omega

/-! ## Reading what was written -/

/-- The plan a schedule describes. -/
def Schedule.plan (h : Schedule) : Plan :=
  if h.channel_plan = 0 then .zero h.regulatory_domain h.operating_class
  else .one h.ch0_freq h.channel_spacing h.number_of_channels.toNat

/-- What was read is the channel function of the schedule; a list has the one entry 0. -/
def FunctionRecovered (mem : Store) (channel_function : Nat) (fixed_channel : UInt16)
    (f : Function) : Prop :=
  match channel_function with
  | 0 => f = .zero fixed_channel.toNat
  | 3 => ∃ list, f = .three 1 list ∧ mem list = 0
  | _ => f = .none

/-- The ranges that lie at an address. -/
def readRanges (mem : Store) : Nat → Nat → List (Nat × Nat)
  | 0, _ => []
  | n + 1, a => (le16 mem a, le16 mem (a + 2)) :: readRanges mem n (a + 4)

/-- Byte `j` of a mask: its words one after the other, the top byte of each first. -/
def maskByte (words : List UInt32) (j : Nat) : UInt8 :=
  UInt8.ofNat ((words.getD (j / 4) 0).toNat >>> (24 - 8 * (j % 4)))

/-- What was read is the excluded channels of the schedule. -/
def ExcludedRecovered (mem : Store) (ex : ExcludedData) (e : Excluded) : Prop :=
  match ex.excuded_channel_ctrl with
  | 0 => e = .none
  | 1 => ∃ start, e = .range ex.exluded_range.length start ∧
      readRanges mem ex.exluded_range.length start =
        ex.exluded_range.map fun r => (r.1.toNat, r.2.toNat)
  | _ => ∃ start, e = .mask ex.channel_mask_bytes_inline start ∧
      ∀ j < ex.channel_mask_bytes_inline, mem (start + j) = maskByte ex.channel_mask.toList j

/-- The fields of a unicast schedule and what they point to. -/
structure UsRecovered (mem : Store) (data length : Nat) (h : Schedule) (ie : UsIe) : Prop where
  dwell_interval : ie.dwell_interval = h.fhss_uc_dwell_interval
  clock_drift : ie.clock_drift = h.clock_drift
  timing_accurancy : ie.timing_accurancy = h.timing_accurancy
  channel_plan : ie.channels.channel_plan = h.channel_plan
  channel_function : ie.channels.channel_function = h.uc_channel_function
  excluded_channel_ctrl :
    ie.excluded_channel_ctrl = h.excluded_channels.excuded_channel_ctrl
  plan : ie.channels.plan = h.plan
  function : FunctionRecovered mem h.uc_channel_function h.uc_fixed_channel ie.channels.function
  excluded_channels : ExcludedRecovered mem h.excluded_channels ie.excluded_channels
  inside : ie.Inside data length

/-- The fields of a broadcast schedule and what they point to. -/
structure BsRecovered (mem : Store) (data length : Nat) (h : Schedule) (ie : BsIe) : Prop where
  broadcast_interval : ie.broadcast_interval = h.fhss_broadcast_interval.toNat
  broadcast_schedule_identifier : ie.broadcast_schedule_identifier = h.fhss_bsi.toNat
  dwell_interval : ie.dwell_interval = h.fhss_bc_dwell_interval
  clock_drift : ie.clock_drift = h.clock_drift
  timing_accurancy : ie.timing_accurancy = h.timing_accurancy
  channel_plan : ie.channels.channel_plan = h.channel_plan
  channel_function : ie.channels.channel_function = h.bc_channel_function
  plan : ie.channels.plan = h.plan
  function : FunctionRecovered mem h.bc_channel_function h.bc_fixed_channel ie.channels.function
  inside : ie.Inside data length

theorem info_fields : ∀ p < 2, ∀ c < 4, ∀ e < 3,
    infoPlan (UInt8.ofNat (p ||| ((c <<< 3) ||| (e <<< 6)))) = p ∧
      infoFunction (UInt8.ofNat (p ||| ((c <<< 3) ||| (e <<< 6)))) = c ∧
      infoCtrl (UInt8.ofNat (p ||| ((c <<< 3) ||| (e <<< 6)))) = e := by
  decide

theorem channelInfo_fields (h : Schedule) (unicast : Bool) :
    infoPlan (channelInfo h unicast) = h.channel_plan ∧
      infoFunction (channelInfo h unicast) = h.channelFunction unicast := by
  have hplan := Nat.lt_succ_of_le h.plan_le
  have huc := Nat.lt_succ_of_le h.uc_function_le
  have hbc := Nat.lt_succ_of_le h.bc_function_le
  have hctrl := Nat.lt_succ_of_le h.excluded_channels.ctrl_le
  cases unicast with
  | true =>
      have hfields := info_fields _ hplan _ huc _ hctrl
      exact ⟨hfields.1, hfields.2.1⟩
  | false =>
      have hfields := info_fields _ hplan _ hbc 0 (by decide)
      rw [Nat.zero_shiftLeft, Nat.or_zero] at hfields
      exact ⟨hfields.1, hfields.2.1⟩

theorem channelInfo_ctrl (h : Schedule) :
    infoCtrl (channelInfo h true) = h.excluded_channels.excuded_channel_ctrl :=
  (info_fields _ (Nat.lt_succ_of_le h.plan_le) _ (Nat.lt_succ_of_le h.uc_function_le) _
    (Nat.lt_succ_of_le h.excluded_channels.ctrl_le)).2.2

/-- The plan is read back. -/
theorem planRead_holds {h : Schedule} {a : Nat} (length : Nat)
    (hbytes : Holds mem a (planBytes h))
    (hlength : ws_channel_plan_length h.channel_plan ≤ length) :
    planRead mem h.channel_plan a length =
      some (h.plan, a + ws_channel_plan_length h.channel_plan,
        length - ws_channel_plan_length h.channel_plan) := by
  have hplan := h.plan_le
  rw [planRead_of mem a length hplan hlength]
  unfold planBytes at hbytes
  unfold Schedule.plan
  split at hbytes
  · next hzero =>
      rw [if_pos hzero, if_pos hzero, ws_channel_plan_zero_read]
      simp only [holds_cons] at hbytes
      rw [hbytes.1, hbytes.2.1]
  · next hone =>
      have hnumber := h.number_of_channels.toNat_lt
      obtain ⟨hch0, hspacing, hcount⟩ : Holds mem a (bytes24 (h.ch0_freq * 100)) ∧
          mem (a + 3) = UInt8.ofNat h.channel_spacing ∧
          Holds mem (a + 4) (bytes16 h.number_of_channels.toNat) := by
        rw [holds_append, holds_cons] at hbytes
        exact hbytes
      have hspacing' : (mem (a + 3)).toNat % 2 ^ 4 = h.channel_spacing := by
        have hlt := h.spacing_lt
        rw [hspacing, UInt8.toNat_ofNat']
        omega
      rw [if_neg (by omega), if_neg (by omega), ws_channel_plan_one_read, hspacing',
        le24_of_holds h.ch0_lt hch0, le16_of_holds (by omega) hcount,
        Nat.mul_div_cancel _ (by decide)]
  · next hzero hone =>
      have htwo : h.channel_plan = 0 ∨ h.channel_plan = 1 := by omega
      exact absurd htwo (not_or.mpr ⟨hzero, hone⟩)

/-- The channel function is read back. -/
theorem functionRead_holds {h : Schedule} {unicast : Bool} {a : Nat} (length : Nat)
    (hbytes : Holds mem a (functionBytes h unicast))
    (hlength : ws_channel_function_length (h.channelFunction unicast) 1 ≤ length) :
    ∃ f, FunctionRecovered mem (h.channelFunction unicast)
        (if unicast then h.uc_fixed_channel else h.bc_fixed_channel) f ∧
      functionRead mem (h.channelFunction unicast) a length =
        some (f, a + ws_channel_function_length (h.channelFunction unicast) 1 +
          (if h.channelFunction unicast = 3 then 1 else 0),
          length - ws_channel_function_length (h.channelFunction unicast) 1) := by
  have hle : h.channelFunction unicast ≤ 3 := by
    cases unicast with
    | true => exact h.uc_function_le
    | false => exact h.bc_function_le
  unfold functionBytes at hbytes
  generalize h.channelFunction unicast = cf at hbytes hlength hle
  generalize (if unicast then h.uc_fixed_channel else h.bc_fixed_channel) = fixed at hbytes
  match cf, hle with
  | 0, _ =>
      have hfixed : le16 mem a = fixed.toNat := le16_of_holds fixed.toNat_lt hbytes
      refine ⟨_, rfl, ?_⟩
      have htwo : ¬ length < ws_channel_function_length 0 0 := Nat.not_lt.mpr hlength
      rw [functionRead, if_neg htwo, hfixed]
      rfl
  | 1, _ => exact ⟨.none, rfl, rfl⟩
  | 2, _ => exact ⟨.none, rfl, rfl⟩
  | 3, _ =>
      simp only [holds_cons] at hbytes
      have hone : (mem a).toNat = 1 := by
        rw [hbytes.1]
        rfl
      have htwo : 2 ≤ length := hlength
      refine ⟨.three 1 (a + 1), ⟨a + 1, rfl, hbytes.2.1⟩, ?_⟩
      rw [functionRead_three mem a length (by omega), hone]
      rfl

theorem readRanges_holds {ranges : List (UInt16 × UInt16)} {a : Nat}
    (hbytes : Holds mem a (rangeBytes ranges)) :
    readRanges mem ranges.length a = ranges.map fun r => (r.1.toNat, r.2.toNat) := by
  induction ranges generalizing a with
  | nil => rfl
  | cons r ranges ih =>
      unfold rangeBytes at hbytes
      obtain ⟨hboth, hrest⟩ := (holds_append ..).mp hbytes
      obtain ⟨hstart, hend⟩ := (holds_append ..).mp hboth
      have hfirst := le16_of_holds r.1.toNat_lt hstart
      have hsecond : le16 mem (a + 2) = r.2.toNat := le16_of_holds r.2.toNat_lt hend
      have hnext := ih (a := a + 4) hrest
      rw [List.length_cons, readRanges, hnext, hfirst, hsecond, List.map_cons]

theorem topBytes_get {w : UInt32} {move n j : Nat} (hj : j < n) :
    (topBytes w move n)[j]? = some (UInt8.ofNat (w.toNat >>> (24 - (move + 8 * j)))) := by
  induction n generalizing move j with
  | zero => cases hj
  | succ n ih =>
      cases j with
      | zero => rfl
      | succ j =>
          rw [topBytes, List.getElem?_cons_succ, ih (by omega)]
          congr 4
          omega

/-- The mask is written byte after byte. -/
theorem maskBytes_get {words : List UInt32} {n j : Nat} (hj : j < n)
    (hn : n ≤ 4 * words.length) : (maskBytes words n)[j]? = some (maskByte words j) := by
  induction words generalizing n j with
  | nil => simp at hn; omega
  | cons w words ih =>
      rw [List.length_cons] at hn
      by_cases hfirst : j < 4
      · have hbyte : maskByte (w :: words) j = UInt8.ofNat (w.toNat >>> (24 - 8 * j)) := by
          rw [maskByte, Nat.div_eq_of_lt hfirst, Nat.mod_eq_of_lt hfirst]
          rfl
        unfold maskBytes
        rw [hbyte]
        split
        · rw [List.getElem?_append_left (by rw [length_topBytes]; exact hfirst),
            topBytes_get hfirst, Nat.zero_add]
        · rw [topBytes_get hj, Nat.zero_add]
      · have hrest : maskByte (w :: words) j = maskByte words (j - 4) := by
          obtain ⟨k, rfl⟩ : ∃ k, j = k + 4 := ⟨j - 4, by omega⟩
          rw [maskByte, maskByte, Nat.add_sub_cancel, Nat.add_div_right _ (by decide),
            Nat.add_mod_right]
          rfl
        unfold maskBytes
        rw [if_pos (by omega), if_neg (by omega), hrest,
          List.getElem?_append_right (by rw [length_topBytes]; omega), length_topBytes]
        exact ih (by omega) (by omega)

theorem holds_get {a j : Nat} {bs : List UInt8} {b : UInt8} (hbs : Holds mem a bs)
    (hj : bs[j]? = some b) : mem (a + j) = b := by
  induction bs generalizing a j with
  | nil => simp at hj
  | cons c bs ih =>
      obtain ⟨hfirst, hrest⟩ := (holds_cons ..).mp hbs
      cases j with
      | zero => exact hfirst.trans (Option.some.inj hj)
      | succ j =>
          have hnext := ih hrest hj
          rw [← hnext]
          congr 1
          omega

/-- The excluded channels are read back by a reader that stands where they start. -/
theorem excludedRead_holds {h : Schedule} {a : Nat} (hbytes : Holds mem a (excludedBytes h true)) :
    ∃ e, ExcludedRecovered mem h.excluded_channels e ∧
      excludedRead mem h.excluded_channels.excuded_channel_ctrl h.plan a
        (excludedBytes h true).length = some e := by
  have hlength := length_excludedBytes h true
  have hranges := h.excluded_channels.range_length_lt
  have hle := h.excluded_channels.ctrl_le
  have hmask := h.excluded_channels.mask_bytes_le
  have hsame := h.mask_bytes_eq
  have hplan := h.plan_le
  unfold WS_EXC_CHAN_CTRL_RANGE at hlength
  unfold WS_EXC_CHAN_CTRL_BITMASK at hsame
  unfold excludedBytes WS_EXC_CHAN_CTRL_RANGE WS_EXC_CHAN_CTRL_BITMASK at hbytes
  unfold ExcludedRecovered
  generalize (excludedBytes h true).length = length at hlength
  simp only [true_and] at hbytes hlength
  generalize h.excluded_channels.excuded_channel_ctrl = ctrl at hbytes hlength hle hsame
  match ctrl, hle with
  | 0, _ => exact ⟨.none, rfl, rfl⟩
  | 1, _ =>
      obtain ⟨hcount, hrest⟩ := (holds_cons ..).mp hbytes
      have hnumber : (mem a).toNat = h.excluded_channels.exluded_range.length := by
        rw [hcount, UInt8.toNat_ofNat']
        omega
      refine ⟨.range h.excluded_channels.exluded_range.length (a + 1),
        ⟨a + 1, rfl, readRanges_holds hrest⟩, ?_⟩
      unfold excludedRead
      simp only [hnumber]
      rw [if_neg (by simp at hlength; omega)]
  | 2, _ =>
      have hinline : length = h.excluded_channels.channel_mask_bytes_inline := hlength
      refine ⟨.mask h.excluded_channels.channel_mask_bytes_inline a, ⟨a, rfl, ?_⟩, ?_⟩
      · intro j hj
        exact holds_get hbytes (maskBytes_get hj (by simpa using hmask))
      · by_cases hzero : h.channel_plan = 0
        · rw [Schedule.plan, if_pos hzero, excludedRead, hinline, Nat.mod_eq_of_lt (by omega)]
        · have hnumber := hsame (by omega) rfl
          rw [Schedule.plan, if_neg hzero, excludedRead]
          rw [if_neg (by omega), ← hnumber, Nat.mod_eq_of_lt (by omega)]

/-- The plan and the function are read back; behind a list the reader is one byte too far. -/
theorem channelsRead_holds {h : Schedule} {unicast : Bool} {a : Nat} (length : Nat)
    (hbytes : Holds mem a (planBytes h ++ (functionBytes h unicast ++ excludedBytes h unicast)))
    (hlength : length = (planBytes h).length + ((functionBytes h unicast).length +
      (excludedBytes h unicast).length)) :
    ∃ f, FunctionRecovered mem (h.channelFunction unicast)
        (if unicast then h.uc_fixed_channel else h.bc_fixed_channel) f ∧
      channelsRead mem (channelInfo h unicast) a length =
        some (⟨h.channel_plan, h.channelFunction unicast, h.plan, f⟩,
          a + (planBytes h).length + (functionBytes h unicast).length +
            (if h.channelFunction unicast = 3 then 1 else 0), (excludedBytes h unicast).length) ∧
      Holds mem (a + (planBytes h).length + (functionBytes h unicast).length)
        (excludedBytes h unicast) := by
  obtain ⟨hplan, hrest⟩ := (holds_append ..).mp hbytes
  obtain ⟨hfunction, hexcluded⟩ := (holds_append ..).mp hrest
  obtain ⟨hp, hc⟩ := channelInfo_fields h unicast
  have hplanlen := length_planBytes h
  have hfunctionlen := length_functionBytes h unicast
  have hread := planRead_holds length hplan (by omega)
  rw [← hplanlen] at hread
  obtain ⟨f, hrecovered, hf⟩ := functionRead_holds (length - (planBytes h).length)
    hfunction (by omega)
  have hleft : length - (planBytes h).length - (functionBytes h unicast).length =
      (excludedBytes h unicast).length := by omega
  rw [← hfunctionlen, hleft] at hf
  refine ⟨f, hrecovered, ?_, hexcluded⟩
  rw [channelsRead, hp, hc, hread]
  simp only []
  rw [hf]

/-- **A written unicast schedule** is read back, unless excluded channels follow a list. -/
theorem usContentRead_write_iff {h : Schedule} {data : Nat}
    (hbytes : Holds mem data (content h true)) :
    (∃ ie, usContentRead mem data (content h true).length = some ie ∧
      UsRecovered mem data (content h true).length h ie) ↔
      ¬ (h.uc_channel_function = 3 ∧ h.excluded_channels.excuded_channel_ctrl ≠ 0) := by
  obtain ⟨htiming, hrest⟩ := (holds_append ..).mp hbytes
  have hfour : (content h true).length = 4 + ((planBytes h).length +
      ((functionBytes h true).length + (excludedBytes h true).length)) := by
    unfold content
    simp only [List.length_append]
    rfl
  obtain ⟨hdwell, hdrift, haccuracy, hinfo⟩ : mem data = h.fhss_uc_dwell_interval ∧
      mem (data + 1) = h.clock_drift ∧ mem (data + 2) = h.timing_accurancy ∧
      mem (data + 3) = channelInfo h true := by
    simpa [timingBytes] using htiming
  obtain ⟨f, hf, hchannels, hexcluded⟩ := channelsRead_holds (a := data + 4)
    ((content h true).length - 4) hrest (by omega)
  have hctrl := channelInfo_ctrl h
  have huc : h.channelFunction true = h.uc_channel_function := rfl
  rw [huc] at hf
  rw [← hinfo, huc] at hchannels
  constructor
  · rintro ⟨ie, hread, hrecovered⟩ ⟨hthree, hsome⟩
    obtain ⟨-, next', left', hchannels', hread'⟩ := usContentRead_some hread
    rw [hchannels, if_pos hthree] at hchannels'
    simp only [Option.some.injEq, Prod.mk.injEq] at hchannels'
    obtain ⟨-, hnext, hleft⟩ := hchannels'
    rw [hinfo, hctrl] at hread'
    refine (excludedRead_list hread' (by omega) (by omega)).mp hrecovered.inside.2 ?_
    have hwas := hrecovered.excluded_channels
    have hlength := length_excludedBytes h true
    have hle := h.excluded_channels.ctrl_le
    have hmask := h.excluded_channels.mask_bytes_le
    unfold ExcludedRecovered at hwas
    unfold WS_EXC_CHAN_CTRL_RANGE at hlength ⊢
    unfold WS_EXC_CHAN_CTRL_BITMASK
    rw [if_pos ⟨rfl, hsome⟩] at hlength
    generalize h.excluded_channels.excuded_channel_ctrl = ctrl at *
    match ctrl, hle with
    | 0, _ => exact absurd rfl hsome
    | 1, _ =>
        obtain ⟨start, hrange, -⟩ := hwas
        refine Or.inl ⟨rfl, ?_⟩
        rw [hrange, excludedRead] at hread'
        split at hread'
        · cases hread'
        · rw [if_pos rfl] at hlength
          simp only [Option.some.injEq, Excluded.range.injEq] at hread'
          rw [hread'.1, ← hleft, hlength]
    | 2, _ =>
        refine Or.inr ⟨rfl, ?_⟩
        rw [if_neg (by decide)] at hlength
        omega
  · intro hnot
    have hopen : ∃ e, ExcludedRecovered mem h.excluded_channels e ∧
        ∃ next, channelsRead mem (mem (data + 3)) (data + 4) ((content h true).length - 4) =
            some (⟨h.channel_plan, h.uc_channel_function, h.plan, f⟩, next,
              (excludedBytes h true).length) ∧
          excludedRead mem h.excluded_channels.excuded_channel_ctrl h.plan next
            (excludedBytes h true).length = some e ∧
          e.Inside data (content h true).length := by
      by_cases hthree : h.uc_channel_function = 3
      · have hzero : h.excluded_channels.excuded_channel_ctrl = 0 := by
          by_contra hsome
          exact hnot ⟨hthree, hsome⟩
        refine ⟨.none, ?_, _, hchannels, ?_, trivial⟩
        · simp [ExcludedRecovered, hzero]
        · rw [hzero, excludedRead]
      · obtain ⟨e, he, hread⟩ := excludedRead_holds hexcluded
        rw [if_neg hthree, Nat.add_zero] at hchannels
        refine ⟨e, he, _, hchannels, hread, excludedRead_inside hread (by omega) (by omega)⟩
    obtain ⟨e, he, next', hchannels, hread, hinside⟩ := hopen
    refine ⟨⟨mem data, mem (data + 1), mem (data + 2), infoCtrl (mem (data + 3)),
      ⟨h.channel_plan, h.uc_channel_function, h.plan, f⟩, e⟩, ?_, ?_⟩
    · rw [usContentRead, if_neg (by omega)]
      simp only []
      rw [hchannels]
      simp only []
      rw [hinfo, hctrl, hread]
    · refine ⟨hdwell, hdrift, haccuracy, rfl, rfl, ?_, rfl, hf, he, ?_, hinside⟩
      · rw [hinfo]
        exact hctrl
      · exact (channelsRead_inside hchannels).mono (by omega) (by omega)

/-- **A written broadcast schedule** is read back; nothing follows a list there. -/
theorem bsContentRead_write {h : Schedule} {data : Nat} (hbytes : Holds mem data (content h false)) :
    ∃ ie, bsContentRead mem data (content h false).length = some ie ∧
      BsRecovered mem data (content h false).length h ie := by
  obtain ⟨htiming, hrest⟩ := (holds_append ..).mp hbytes
  have hten : (content h false).length = 10 + ((planBytes h).length +
      ((functionBytes h false).length + (excludedBytes h false).length)) := by
    unfold content
    simp only [List.length_append]
    rfl
  obtain ⟨hcounts, htail⟩ := (holds_append ..).mp htiming
  obtain ⟨hboth, hdwell⟩ := (holds_append ..).mp hcounts
  obtain ⟨hinterval, hbsi⟩ := (holds_append ..).mp hboth
  have hinterval' : le32 mem data = h.fhss_broadcast_interval.toNat :=
    le32_of_holds h.fhss_broadcast_interval.toNat_lt hinterval
  have hbsi' : le16 mem (data + 4) = h.fhss_bsi.toNat := le16_of_holds h.fhss_bsi.toNat_lt hbsi
  have hdwell' : mem (data + 6) = h.fhss_bc_dwell_interval := ((holds_cons ..).mp hdwell).1
  obtain ⟨hdrift, haccuracy, hinfo⟩ : mem (data + 7) = h.clock_drift ∧
      mem (data + 8) = h.timing_accurancy ∧ mem (data + 9) = channelInfo h false := by
    obtain ⟨hdrift, haccuracy, hinfo, -⟩ := by
      simpa only [holds_cons] using htail
    exact ⟨hdrift, haccuracy, hinfo⟩
  obtain ⟨f, hf, hchannels, -⟩ := channelsRead_holds (a := data + 10)
    ((content h false).length - 10) hrest (by omega)
  have hbc : h.channelFunction false = h.bc_channel_function := rfl
  rw [hbc] at hf
  rw [← hinfo, hbc] at hchannels
  refine ⟨⟨le32 mem data, le16 mem (data + 4), mem (data + 6), mem (data + 7), mem (data + 8),
    infoCtrl (mem (data + 9)), ⟨h.channel_plan, h.bc_channel_function, h.plan, f⟩⟩, ?_, ?_⟩
  · rw [bsContentRead, if_neg (by omega)]
    simp only []
    rw [hchannels]
  · exact ⟨hinterval', hbsi', hdwell', hdrift, haccuracy, rfl, rfl, rfl, hf,
      (channelsRead_inside hchannels).mono (by omega) (by omega)⟩

/-- What a broadcast schedule points to lies in the element. -/
theorem bsContentRead_inside {data length : Nat} {ie : BsIe}
    (hread : bsContentRead mem data length = some ie) : ie.Inside data length := by
  unfold bsContentRead at hread
  split at hread
  · cases hread
  · next hlong =>
      simp only [] at hread
      split at hread
      · cases hread
      · next ch next' left' hchannels =>
          cases hread
          exact (channelsRead_inside hchannels).mono (by omega) (by omega)

theorem length_le (h : Schedule) (unicast : Bool) :
    ws_wp_nested_hopping_schedule_length h unicast < 2 ^ 11 := by
  have hplan : ws_channel_plan_length h.channel_plan ≤ 6 := plan_length_le
  have hfunction : ws_channel_function_length (h.channelFunction unicast) 1 ≤ 2 := by
    unfold ws_channel_function_length
    split <;> decide
  have hranges := h.excluded_channels.range_length_lt
  have hmask := h.excluded_channels.mask_bytes_le
  unfold ws_wp_nested_hopping_schedule_length
  simp only []
  split <;> split <;> try split
  all_goals omega

/-- The element that was written is found where it was written. -/
theorem found_write {h : Schedule} {unicast : Bool} {length : UInt16}
    (hbytes : Holds mem 0 (ws_wp_nested_hopping_schedule_write h unicast))
    (hlength : (ws_wp_nested_hopping_schedule_write h unicast).length ≤ length.toNat) :
    found mem length (if unicast then WP_PAYLOAD_IE_US_TYPE else WP_PAYLOAD_IE_BS_TYPE) =
      (2, (content h unicast).length) ∧ Holds mem 2 (content h unicast) := by
  have hcontent := length_content h unicast
  have hlt := length_le h unicast
  have hid : (if unicast then WP_PAYLOAD_IE_US_TYPE else WP_PAYLOAD_IE_BS_TYPE) < 2 ^ 4 := by
    cases unicast <;> decide
  let e : Ie 4 11 := ⟨_, content h unicast, hid, by omega⟩
  have hwrite : ws_wp_nested_hopping_schedule_write h unicast =
      headerBytes e.nestedLong.1 ++ e.content := by
    change _ = headerBytes (mac_ie_nested_ie_long_base_write _ (content h unicast).length) ++ _
    rw [hcontent]
    rfl
  rw [hwrite] at hbytes hlength
  obtain ⟨hheader, hrest⟩ := (holds_append ..).mp hbytes
  have harea : (area mem length).1 = headerBytes e.nestedLong.1 ++ (e.content ++
      bytes mem (headerBytes e.nestedLong.1 ++ e.content).length
        (length.toNat - (headerBytes e.nestedLong.1 ++ e.content).length)) := by
    have hsum : (headerBytes e.nestedLong.1 ++ e.content).length +
        (length.toNat - (headerBytes e.nestedLong.1 ++ e.content).length) = length.toNat := by
      omega
    have hsplit := bytes_append mem 0 (headerBytes e.nestedLong.1 ++ e.content).length
      (length.toNat - (headerBytes e.nestedLong.1 ++ e.content).length)
    rw [hsum, hbytes, Nat.zero_add, List.append_assoc] at hsplit
    exact hsplit
  have hfound := nested_front e _ harea
  refine ⟨?_, hrest⟩
  change (match mac_ie_nested_discover (area mem length) e.id true with
    | .found start len => (start, len)
    | _ => (0, 0)) = _
  rw [hfound]

/-- **The hopping schedule on the air**: as many bytes are written as were announced; a written
schedule is read back, a unicast schedule if and only if it does not have both a channel list and
excluded channels; what the readers return lies in the received element, for a unicast schedule
if and only if the bytes do not make the reader stray. -/
theorem schedule_round_trip (h : Schedule) (unicast : Bool) (mem : Store) (length : UInt16) :
    (content h unicast).length = ws_wp_nested_hopping_schedule_length h unicast ∧
    (Holds mem 0 (ws_wp_nested_hopping_schedule_write h true) →
      (ws_wp_nested_hopping_schedule_write h true).length ≤ length.toNat →
      ((∃ ie, ws_wp_nested_us_read mem length = some ie ∧
          UsRecovered mem 2 (ws_wp_nested_hopping_schedule_length h true) h ie) ↔
        ¬ (h.uc_channel_function = 3 ∧ h.excluded_channels.excuded_channel_ctrl ≠ 0))) ∧
    (Holds mem 0 (ws_wp_nested_hopping_schedule_write h false) →
      (ws_wp_nested_hopping_schedule_write h false).length ≤ length.toNat →
      ∃ ie, ws_wp_nested_bs_read mem length = some ie ∧
        BsRecovered mem 2 (ws_wp_nested_hopping_schedule_length h false) h ie) ∧
    ((∀ ie, ws_wp_nested_us_read mem length = some ie →
        ie.Inside (found mem length WP_PAYLOAD_IE_US_TYPE).1
          (found mem length WP_PAYLOAD_IE_US_TYPE).2) ↔
      ¬ Strays mem (found mem length WP_PAYLOAD_IE_US_TYPE).1
        (found mem length WP_PAYLOAD_IE_US_TYPE).2) ∧
    (∀ ie, ws_wp_nested_bs_read mem length = some ie →
      ie.Inside (found mem length WP_PAYLOAD_IE_BS_TYPE).1
        (found mem length WP_PAYLOAD_IE_BS_TYPE).2) := by
  refine ⟨length_content h unicast, fun hbytes hlength => ?_, fun hbytes hlength => ?_,
    usContentRead_inside_iff _ _, fun ie hread => bsContentRead_inside hread⟩
  · obtain ⟨hfound, hcontent⟩ := found_write hbytes hlength
    have hfound' : found mem length WP_PAYLOAD_IE_US_TYPE = (2, (content h true).length) := hfound
    unfold ws_wp_nested_us_read
    rw [hfound', ← length_content]
    exact usContentRead_write_iff hcontent
  · obtain ⟨hfound, hcontent⟩ := found_write hbytes hlength
    have hfound' : found mem length WP_PAYLOAD_IE_BS_TYPE = (2, (content h false).length) := hfound
    unfold ws_wp_nested_bs_read
    rw [hfound', ← length_content]
    exact bsContentRead_write hcontent

/-- A schedule with one range of excluded channels. -/
def listed (uc_channel_function : Nat) (hle : uc_channel_function ≤ 3) : Schedule where
  fhss_uc_dwell_interval := 250
  fhss_bc_dwell_interval := 255
  regulatory_domain := 3
  operating_class := 3
  channel_plan := 0
  uc_channel_function := uc_channel_function
  bc_channel_function := 1
  channel_spacing := 2
  number_of_channels := 43
  clock_drift := 255
  timing_accurancy := 0
  uc_fixed_channel := 0
  bc_fixed_channel := 0
  fhss_bsi := 0
  fhss_broadcast_interval := 1020
  ch0_freq := 9026
  excluded_channels :=
    { excuded_channel_ctrl := 1
      exluded_range := [(3, 5)]
      channel_mask_bytes_inline := 6
      channel_mask := Vector.replicate 8 0
      ctrl_le := by decide
      range_length_lt := by decide
      range_ne_nil := by decide
      mask_bytes_le := by decide }
  plan_le := by decide
  uc_function_le := hle
  bc_function_le := by decide
  spacing_lt := by decide
  ch0_lt := by decide
  mask_bytes_eq := by decide

/-- With the direct hash function the schedule is read back. -/
theorem schedule_round_trip_listed :
    ∃ ie, ws_wp_nested_us_read
        (ofList (ws_wp_nested_hopping_schedule_write (listed 2 (by decide)) true)) 13 = some ie ∧
      UsRecovered (ofList (ws_wp_nested_hopping_schedule_write (listed 2 (by decide)) true)) 2
        (ws_wp_nested_hopping_schedule_length (listed 2 (by decide)) true)
        (listed 2 (by decide)) ie :=
  ((schedule_round_trip (listed 2 (by decide)) true
    (ofList (ws_wp_nested_hopping_schedule_write (listed 2 (by decide)) true)) 13).2.1
    (by decide) (by decide)).mpr (by decide)

/-- With a channel list the node that receives the schedule takes the first byte of the range for
the number of ranges, and rejects the element. -/
theorem listed_lost :
    ¬ ∃ ie, ws_wp_nested_us_read
        (ofList (ws_wp_nested_hopping_schedule_write (listed 3 (by decide)) true)) 15 = some ie ∧
      UsRecovered (ofList (ws_wp_nested_hopping_schedule_write (listed 3 (by decide)) true)) 2
        (ws_wp_nested_hopping_schedule_length (listed 3 (by decide)) true)
        (listed 3 (by decide)) ie := by
  have hnone : ws_wp_nested_us_read
      (ofList (ws_wp_nested_hopping_schedule_write (listed 3 (by decide)) true)) 15 = none := by
    decide
  rintro ⟨ie, hread, -⟩
  rw [hnone] at hread
  cases hread

end HoppingIe
