import WisunModem.BitMask
import WisunModem.HoppingIe

/-!
# The channels of a neighbour

`ws_neighbor_class_neighbor_unicast_schedule_set` takes a received unicast schedule over into the
neighbour's entry: it makes the list of the channels of the neighbour's plan that the local
regulation allows, takes out the excluded ones bit by bit, and keeps count.  The list has eight
words; a function returns `none` where it would touch a word that is not there.

* `unicast_schedule_set_exact_iff` — the list is exact unless there are more channels than bits, or
  the list is left as it was, or the neighbour stays on a fixed channel.
-/

namespace ChannelList

open BitMask ByteStore HoppingIe

/-- The regulatory domains that are told apart. -/
inductive Domain where
  | KR | EU | IN | NA | JP | BZ | WW
  | other
deriving DecidableEq, Repr

/-- What the functions use of the own `ws_hopping_schedule_t`. -/
structure Own where
  regulatory_domain : UInt8
  operating_class : UInt8
  channel_plan_id : UInt8
deriving DecidableEq, Repr

/-- `ws_channel_mask_t` -/
structure Channels where
  channel_count : Nat
  channel_mask : Mask 32 8

/-- What the function keeps about a neighbour. -/
structure Neighbor where
  unicast_channel_function : Nat
  fixed_channel : Nat
  unicast_number_of_channels : Nat
  unicast_dwell_interval : UInt8
  uc_channel_list : Channels

-- The numbers of the `REG_DOMAIN_` constants are in a header outside the repository.
variable (domain : UInt8 → Domain)

/-! ## The source -/

def ws_common_channel_number_calc (regulatory_domain operating_class channel_plan_id : UInt8) :
    Nat :=
  match domain regulatory_domain with
  | .KR => if operating_class = 1 then 32 else if operating_class = 2 then 16 else 0
  | .EU =>
      if operating_class = 1 then 69 else if operating_class = 2 then 35
      else if operating_class = 3 then 55 else if operating_class = 4 then 27 else 0
  | .IN => if operating_class = 1 then 19 else if operating_class = 2 then 10 else 0
  | .NA | .BZ =>
      if channel_plan_id = 255 then
        if operating_class = 1 then 129 else if operating_class = 2 then 64
        else if operating_class = 3 then 42 else 0
      else if channel_plan_id = 1 then 136 else if channel_plan_id = 2 then 64
      else if channel_plan_id = 5 then 24 else 0
  | .JP =>
      if operating_class = 1 then 38 else if operating_class = 2 then 18
      else if operating_class = 3 then 12 else 0
  | .WW => if operating_class = 1 then 416 else if operating_class = 2 then 207 else 0
  | .other => 0

/-- The ranges `ws_generate_channel_list` disables. -/
def unsupportedRanges (own : Own) : List (Nat × Nat) :=
  match domain own.regulatory_domain with
  | .NA =>
      if own.channel_plan_id = 1 then [(1, 7)] else if own.channel_plan_id = 5 then [(5, 7)]
      else []
  | .BZ =>
      if own.channel_plan_id = 255 then
        if own.operating_class = 1 then [(26, 64)] else if own.operating_class = 2 then [(12, 32)]
        else if own.operating_class = 3 then [(7, 21)] else []
      else if own.channel_plan_id = 1 then [(1, 7), (64, 64), (72, 103), (106, 111)]
      else if own.channel_plan_id = 2 then [(24, 24), (32, 47), (52, 55)]
      else if own.channel_plan_id = 5 then [(5, 10), (19, 23)] else []
  | _ => []

def ws_disable_channels_in_range (number_of_channels range_start range_stop : Nat)
    (channel_mask : Mask 32 8) : Option (Mask 32 8) :=
  loop (fun i m => if range_start ≤ i ∧ i ≤ range_stop then remove m i else some m)
    number_of_channels channel_mask

/-- What is in the mask before does not matter. -/
def ws_generate_channel_list (number_of_channels : Nat) (own : Own) : Option (Mask 32 8) :=
  (loop (fun i m => insert m i) number_of_channels (Vector.replicate 8 0)).bind fun m =>
    (unsupportedRanges domain own).foldlM
      (fun m r => ws_disable_channels_in_range number_of_channels r.1 r.2 m) m

def ws_active_channel_count (channel_mask : Mask 32 8) (number_of_channels : Nat) : Option Nat :=
  loop (fun i active_channels =>
    (read channel_mask i).map fun b => if b then active_channels + 1 else active_channels)
    number_of_channels 0

/-- Takes a channel out of the list if it is there; the counter has sixteen bits. -/
def cut (info : Channels) (channel : Nat) : Option Channels :=
  (read info.channel_mask channel).bind fun b =>
    if b then
      (toggle info.channel_mask channel).map fun m =>
        ⟨(info.channel_count + 2 ^ 16 - 1) % 2 ^ 16, m⟩
    else some info

/-- The loop over the channels for one range, `n` turns before its end. -/
def cutRange (range_start range_stop : Nat) : Nat → Nat → Channels → Option Channels
  | 0, _, info => some info
  | n + 1, channel, info =>
      if range_start ≤ channel ∧ channel ≤ range_stop then
        (cut info channel).bind (cutRange range_start range_stop n (channel + 1))
      else if range_stop < channel then some info
      else cutRange range_start range_stop n (channel + 1) info

/-- `number_of_range` ranges from `range_ptr` on. -/
def ws_neighbour_excluded_mask_by_range (mem : Store) (number_of_channels : Nat) :
    Nat → Nat → Channels → Option Channels
  | 0, _, info => some info
  | number_of_range + 1, range_ptr, info =>
      (cutRange (le16 mem range_ptr) (le16 mem (range_ptr + 2)) number_of_channels 0 info).bind
        (ws_neighbour_excluded_mask_by_range mem number_of_channels number_of_range
          (range_ptr + 4))

/-- The first `n` bytes at `mask_ptr` as the top bytes of a word: `common_read_32_bit` for four of
them, else the loop over the rest of the bytes. -/
def topWord (mem : Store) (mask_ptr : Nat) : Nat → BitVec 32
  | 0 => 0
  | n + 1 =>
      topWord mem mask_ptr n ||| ((mem (mask_ptr + n)).toBitVec.setWidth 32 <<< (24 - 8 * n))

/-- `n` turns of the loop of `ws_reserve_order_32_bit`. -/
def reserveOrder (value : BitVec 32) : Nat → BitVec 32
  | 0 => 0
  | i + 1 =>
      if value.getLsbD i then reserveOrder value i ||| (1#32 <<< (32 - 1 - i))
      else reserveOrder value i

def ws_reserve_order_32_bit (value : BitVec 32) : BitVec 32 := reserveOrder value 32

/-- The comparison of one word; word `mask_index` of the list has the channels from
`32 * mask_index` on. -/
def cutWord (channel_compare_mask : BitVec 32) (mask_index : Nat) (info : Channels) :
    Option Channels :=
  loop (fun i info =>
    if channel_compare_mask.getLsbD i then cut info (32 * mask_index + i) else some info) 32 info

/-- The loop over the words of the mask, with `len` bytes of it left and `words` more turns; what
is left is counted in bytes. -/
def cutMask (mem : Store) : Nat → Nat → Nat → Nat → Channels → Option Channels
  | 0, _, _, _, info => some info
  | words + 1, mask_index, mask_ptr, len, info =>
      let taken := if 4 ≤ len then 4 else len
      (cutWord (ws_reserve_order_32_bit (topWord mem mask_ptr taken)) mask_index info).bind
        fun info =>
          if len - taken = 0 then some info
          else cutMask mem words (mask_index + 1) (mask_ptr + 4) (len - taken) info

/-- The channels are taken in steps of 32. -/
def ws_neighbour_excluded_mask_by_mask (mem : Store) (number_of_channels mask_len_inline
    channel_mask : Nat) (info : Channels) : Option Channels :=
  if mask_len_inline = 0 then some info
  else cutMask mem ((number_of_channels + 31) / 32) 0 channel_mask mask_len_inline info

/-- The number of channels of the neighbour's plan. -/
def planChannels (own : Own) (ws_us : UsIe) : Nat :=
  match ws_us.channels.plan with
  | .zero regulator_domain operation_class =>
      ws_common_channel_number_calc domain regulator_domain operation_class own.channel_plan_id
  | .one _ _ number_of_channel => number_of_channel

/-- The list of all the channels that are allowed. -/
def fullList (number_of_channels : Nat) (own : Own) : Option Channels :=
  (ws_generate_channel_list domain number_of_channels own).bind fun m =>
    (ws_active_channel_count m number_of_channels).map fun n => ⟨n, m⟩

/-- The list that is made for a received schedule. -/
def listFor (mem : Store) (number_of_channels : Nat) (own : Own) (old : Channels) :
    Excluded → Option Channels
  | .range number_of_range range_start =>
      (fullList domain number_of_channels own).bind
        (ws_neighbour_excluded_mask_by_range mem number_of_channels number_of_range range_start)
  | .mask mask_len_inline channel_mask =>
      (fullList domain number_of_channels own).bind
        (ws_neighbour_excluded_mask_by_mask mem number_of_channels mask_len_inline channel_mask)
  | .none =>
      if number_of_channels ≠ old.channel_count then fullList domain number_of_channels own
      else some old

def ws_neighbor_class_neighbor_unicast_schedule_set (mem : Store) (ws_neighbor : Neighbor)
    (ws_us : UsIe) (own : Own) : Option Neighbor :=
  match ws_us.channels.function with
  | .zero fixed_channel =>
      some
        { ws_neighbor with
          unicast_channel_function := ws_us.channels.channel_function
          fixed_channel := fixed_channel
          unicast_number_of_channels := 1
          unicast_dwell_interval := ws_us.dwell_interval }
  | _ =>
      (listFor domain mem (planChannels domain own ws_us) own ws_neighbor.uc_channel_list
        ws_us.excluded_channels).map fun list =>
        { ws_neighbor with
          unicast_channel_function := ws_us.channels.channel_function
          unicast_number_of_channels := planChannels domain own ws_us
          unicast_dwell_interval := ws_us.dwell_interval
          uc_channel_list := list }

/-! ## What the list is to be -/

/-- In one of the ranges. -/
def InRanges (ranges : List (Nat × Nat)) (c : Nat) : Prop := ∃ r ∈ ranges, r.1 ≤ c ∧ c ≤ r.2

/-- A channel of the plan that the local regulation allows. -/
def Allowed (number_of_channels : Nat) (own : Own) (c : Nat) : Prop :=
  c < number_of_channels ∧ ¬ InRanges (unsupportedRanges domain own) c

/-- The received schedule excludes the channel: it is in a range, or its bit of the mask is set,
which counts from the top bit of the first byte. -/
def Excludes (mem : Store) : Excluded → Nat → Prop
  | .none, _ => False
  | .range number_of_range range_start, c => InRanges (readRanges mem number_of_range range_start) c
  | .mask mask_len_inline channel_mask, c => c / 8 < mask_len_inline ∧
      (mem (channel_mask + c / 8)).toBitVec.getLsbD (7 - c % 8) = true

/-- The list holds these channels and knows how many they are. -/
def Lists (P : Nat → Prop) (info : Channels) : Prop :=
  (∀ c, has info.channel_mask c = true ↔ P c) ∧ info.channel_count = card info.channel_mask

/-- The list is exact. -/
def Exact (mem : Store) (number_of_channels : Nat) (own : Own) (ex : Excluded)
    (info : Channels) : Prop :=
  Lists (fun c => Allowed domain number_of_channels own c ∧ ¬ Excludes mem ex c) info

variable {domain}

/-! ## The full list -/

theorem lists_congr {P Q : Nat → Prop} {info : Channels} (hsame : ∀ c, P c ↔ Q c)
    (hlists : Lists P info) : Lists Q info :=
  ⟨fun c => (hlists.1 c).trans (hsame c), hlists.2⟩

/-- All channels are enabled one by one. -/
theorem enable_spec {n : Nat} (hn : n ≤ 256) :
    ∃ m, loop (fun i m => insert m i) n (Vector.replicate 8 0 : Mask 32 8) = some m ∧
      ∀ c, has m c = true ↔ c < n := by
  refine loop_rule (fun i m => ∀ c, has m c = true ↔ c < i) ?_ ?_
  · intro c
    rw [has_empty]
    simp
  · intro i hi m hinv
    obtain ⟨m', hinsert⟩ := update_isSome (m := m) (f := fun word bit => word ||| bit)
      (show i < 32 * 8 by omega)
    refine ⟨m', hinsert, fun c => ?_⟩
    rw [has_insert (by decide) hinsert c]
    by_cases hc : c = i
    · simp [hc]
    · rw [if_neg hc, hinv c]
      omega

theorem disable_spec {n : Nat} (start stop : Nat) (hn : n ≤ 256) (m : Mask 32 8) :
    ∃ m', ws_disable_channels_in_range n start stop m = some m' ∧
      ∀ c, has m' c = true ↔ has m c = true ∧ ¬ (c < n ∧ start ≤ c ∧ c ≤ stop) := by
  refine loop_rule
    (fun i m' => ∀ c, has m' c = true ↔ has m c = true ∧ ¬ (c < i ∧ start ≤ c ∧ c ≤ stop)) ?_ ?_
  · intro c
    simp
  · intro i hi m' hinv
    by_cases hin : start ≤ i ∧ i ≤ stop
    · obtain ⟨m'', hremove⟩ := update_isSome (m := m') (f := fun word bit => word &&& ~~~bit)
        (show i < 32 * 8 by omega)
      refine ⟨m'', by rw [if_pos hin]; exact hremove, fun c => ?_⟩
      rw [has_remove (by decide) hremove c]
      by_cases hc : c = i
      · simp [hc, hin]
      · rw [if_neg hc, hinv c]
        have hlt : c < i ↔ c < i + 1 := by omega
        rw [hlt]
    · refine ⟨m', if_neg hin, fun c => ?_⟩
      rw [hinv c]
      by_cases hc : c = i
      · subst hc
        simp [hin]
      · have hlt : c < i ↔ c < i + 1 := by omega
        rw [hlt]

theorem disableAll_spec {n : Nat} (hn : n ≤ 256) (ranges : List (Nat × Nat)) (m : Mask 32 8)
    (hm : ∀ c, has m c = true → c < n) :
    ∃ m', ranges.foldlM (fun m r => ws_disable_channels_in_range n r.1 r.2 m) m = some m' ∧
      ∀ c, has m' c = true ↔ has m c = true ∧ ¬ InRanges ranges c := by
  induction ranges generalizing m with
  | nil => exact ⟨m, rfl, fun c => by simp [InRanges]⟩
  | cons r ranges ih =>
      obtain ⟨m', hdisable, hhas⟩ := disable_spec r.1 r.2 hn m
      obtain ⟨m'', hrun, hhas'⟩ := ih m' fun c hc => hm c ((hhas c).mp hc).1
      refine ⟨m'', ?_, fun c => ?_⟩
      · rw [List.foldlM_cons, hdisable]
        exact hrun
      · rw [hhas' c, hhas c]
        have hsplit : InRanges (r :: ranges) c ↔ (r.1 ≤ c ∧ c ≤ r.2) ∨ InRanges ranges c := by
          simp [InRanges]
        rw [hsplit]
        constructor
        · rintro ⟨⟨hc, hout⟩, hrest⟩
          exact ⟨hc, fun hin => hin.elim (fun hr => hout ⟨hm c hc, hr⟩) hrest⟩
        · rintro ⟨hc, hout⟩
          exact ⟨⟨hc, fun hr => hout (Or.inl hr.2)⟩, fun hr => hout (Or.inr hr)⟩

/-- **The list of a plan** has the channels that are allowed. -/
theorem generate_spec {n : Nat} (own : Own) (hn : n ≤ 256) :
    ∃ m, ws_generate_channel_list domain n own = some m ∧
      ∀ c, has m c = true ↔ Allowed domain n own c := by
  obtain ⟨m, henable, hall⟩ := enable_spec hn
  obtain ⟨m', hdisable, hhas⟩ := disableAll_spec hn (unsupportedRanges domain own) m
    fun c hc => (hall c).mp hc
  refine ⟨m', ?_, fun c => ?_⟩
  · rw [ws_generate_channel_list, henable]
    exact hdisable
  · rw [hhas c, hall c, Allowed]

/-- With more channels than bits it writes behind the mask. -/
theorem generate_eq_none {n : Nat} (own : Own) (hn : 256 < n) :
    ws_generate_channel_list domain n own = none := by
  rw [ws_generate_channel_list, loop_eq_none hn]
  · rfl
  · intro m
    exact update_eq_none (by decide) (Nat.le_refl _)

theorem active_spec {n : Nat} {m : Mask 32 8} (hn : n ≤ 256)
    (hm : ∀ c, has m c = true → c < n) : ws_active_channel_count m n = some (card m) := by
  obtain ⟨count, hrun, hcount⟩ : ∃ count, ws_active_channel_count m n = some count ∧
      count = Nat.count (fun c => has m c = true) n := by
    refine loop_rule (fun i count => count = Nat.count (fun c => has m c = true) i) (by simp) ?_
    intro i hi count hinv
    rw [read_eq (show i < 32 * 8 by omega)]
    refine ⟨_, rfl, ?_⟩
    rw [Nat.count_succ, hinv]
    cases has m i <;> rfl
  rw [count_eq_card hm] at hcount
  rw [← hcount]
  exact hrun

theorem fullList_spec {n : Nat} (own : Own) (hn : n ≤ 256) :
    ∃ info, fullList domain n own = some info ∧ Lists (Allowed domain n own) info := by
  obtain ⟨m, hgenerate, hhas⟩ := generate_spec own hn
  have hcount := active_spec (m := m) hn fun c hc => ((hhas c).mp hc).1
  refine ⟨⟨card m, m⟩, ?_, hhas, rfl⟩
  rw [fullList, hgenerate, Option.bind_some, hcount]
  rfl

theorem fullList_eq_none {n : Nat} (own : Own) (hn : 256 < n) : fullList domain n own = none := by
  rw [fullList, generate_eq_none own hn]
  rfl

/-! ## Taking out the excluded channels -/

/-- A channel is taken out, and the count stays right. -/
theorem cut_spec {P : Nat → Prop} {info : Channels} {channel : Nat} (hc : channel < 256)
    (hlists : Lists P info) :
    ∃ info', cut info channel = some info' ∧ Lists (fun c => P c ∧ c ≠ channel) info' := by
  obtain ⟨hhas, hcount⟩ := hlists
  rw [cut, read_eq (show channel < 32 * 8 by omega), Option.bind_some]
  by_cases hin : has info.channel_mask channel = true
  · obtain ⟨m, htoggle⟩ := update_isSome (m := info.channel_mask)
      (f := fun word bit => word ^^^ bit) (show channel < 32 * 8 by omega)
    have hdrop : ∀ d, has m d = if d = channel then false else has info.channel_mask d := by
      intro d
      rw [has_toggle (by decide) htoggle d, hin]
      rfl
    have hcard := card_drop hin hdrop
    have hle := card_le (m := info.channel_mask)
    rw [if_pos hin, toggle, htoggle]
    refine ⟨_, rfl, fun c => ?_, ?_⟩
    · change has m c = true ↔ P c ∧ c ≠ channel
      rw [hdrop c, ← hhas c]
      by_cases hsame : c = channel <;> simp [hsame]
    · change (info.channel_count + 2 ^ 16 - 1) % 2 ^ 16 = card m
      omega
  · rw [if_neg hin]
    refine ⟨info, rfl, fun c => ?_, hcount⟩
    rw [hhas c]
    constructor
    · intro hP
      exact ⟨hP, fun hsame => hin ((hhas channel).mpr (hsame ▸ hP))⟩
    · exact And.left

/-- One range: `n` turns from `channel` on. -/
theorem cutRange_spec {P : Nat → Prop} (start stop n channel : Nat) {info : Channels}
    (hn : channel + n ≤ 256) (hP : ∀ c, P c → c < channel + n) (hlists : Lists P info) :
    ∃ info', cutRange start stop n channel info = some info' ∧
      Lists (fun c => P c ∧ ¬ (channel ≤ c ∧ start ≤ c ∧ c ≤ stop)) info' := by
  induction n generalizing channel P info with
  | zero =>
      refine ⟨info, rfl, lists_congr (fun c => ?_) hlists⟩
      constructor
      · intro hc
        have hlt := hP c hc
        exact ⟨hc, by omega⟩
      · exact And.left
  | succ n ih =>
      unfold cutRange
      split
      · next hin =>
          obtain ⟨info', hcut, hlists'⟩ := cut_spec (show channel < 256 by omega) hlists
          obtain ⟨info'', hrun, hlists''⟩ := ih (channel + 1) (by omega)
            (fun c hc => by have hlt := hP c hc.1; omega) hlists'
          refine ⟨info'', by rw [hcut]; exact hrun, lists_congr (fun c => ?_) hlists''⟩
          have hsplit : channel ≤ c ↔ c = channel ∨ channel + 1 ≤ c := by omega
          rw [and_assoc]
          refine and_congr_right fun _ => ?_
          omega
      · next hout =>
          split
          · next hpast =>
              refine ⟨info, rfl, lists_congr (fun c => ?_) hlists⟩
              constructor
              · intro hc
                exact ⟨hc, by omega⟩
              · exact And.left
          · next hbefore =>
              obtain ⟨info', hrun, hlists'⟩ := ih (channel + 1) (by omega)
                (fun c hc => by have hlt := hP c hc; omega) hlists
              refine ⟨info', hrun, lists_congr (fun c => ?_) hlists'⟩
              refine and_congr_right fun _ => ?_
              omega

/-- All the ranges. -/
theorem byRange_spec {P : Nat → Prop} {mem : Store} {n : Nat} (number range_ptr : Nat)
    {info : Channels} (hn : n ≤ 256) (hP : ∀ c, P c → c < n) (hlists : Lists P info) :
    ∃ info', ws_neighbour_excluded_mask_by_range mem n number range_ptr info = some info' ∧
      Lists (fun c => P c ∧ ¬ InRanges (readRanges mem number range_ptr) c) info' := by
  induction number generalizing range_ptr P info with
  | zero =>
      refine ⟨info, rfl, lists_congr (fun c => ?_) hlists⟩
      simp [InRanges, readRanges]
  | succ number ih =>
      obtain ⟨info', hrange, hlists'⟩ := cutRange_spec (le16 mem range_ptr)
        (le16 mem (range_ptr + 2)) n 0 (by omega)
        (fun c hc => by have hlt := hP c hc; omega) hlists
      obtain ⟨info'', hrun, hlists''⟩ := ih (range_ptr + 4) (fun c hc => hP c hc.1) hlists'
      refine ⟨info'', ?_, lists_congr (fun c => ?_) hlists''⟩
      · unfold ws_neighbour_excluded_mask_by_range
        rw [hrange]
        exact hrun
      · have hsplit : InRanges (readRanges mem (number + 1) range_ptr) c ↔
            (le16 mem range_ptr ≤ c ∧ c ≤ le16 mem (range_ptr + 2)) ∨
              InRanges (readRanges mem number (range_ptr + 4)) c := by
          simp [InRanges, readRanges]
        rw [hsplit, not_or, and_assoc]
        simp

theorem getLsbD_byte (b : UInt8) {i : Nat} (hi : 8 ≤ i) : b.toBitVec.getLsbD i = false :=
  BitVec.getLsbD_of_ge _ _ hi

/-- The bytes lie in the word from its top bit on. -/
theorem topWord_bit (mem : Store) (mask_ptr n : Nat) {i : Nat} (hn : n ≤ 4) (hi : i < 32) :
    (topWord mem mask_ptr n).getLsbD (31 - i) =
      (decide (i / 8 < n) && (mem (mask_ptr + i / 8)).toBitVec.getLsbD (7 - i % 8)) := by
  induction n with
  | zero => simp [topWord]
  | succ n ih =>
      rw [topWord, BitVec.getLsbD_or, ih (by omega), BitVec.getLsbD_shiftLeft,
        BitVec.getLsbD_setWidth]
      rcases Nat.lt_trichotomy (i / 8) n with hlt | heq | hgt
      · have hbyte : (mem (mask_ptr + n)).toBitVec.getLsbD (31 - i - (24 - 8 * n)) = false :=
          getLsbD_byte _ (by omega)
        simp [hbyte, hlt, Nat.lt_succ_of_lt hlt]
      · have hbit : 31 - i - (24 - 8 * n) = 7 - i % 8 := by omega
        have hshift : ¬ 31 - i < 24 - 8 * n := by omega
        have hwidth : 31 - i < 32 := by omega
        have hlow : 7 - i % 8 < 32 := by omega
        simp [hbit, hshift, hwidth, hlow, heq]
      · have hshift : 31 - i < 24 - 8 * n := by omega
        have hle : ¬ i / 8 < n := by omega
        have hle' : ¬ i / 8 < n + 1 := by omega
        simp [hshift, hle, hle']

theorem reserveOrder_bit (value : BitVec 32) {n i : Nat} (hn : n ≤ 32) (hi : i < 32) :
    (reserveOrder value n).getLsbD i = (decide (31 - i < n) && value.getLsbD (31 - i)) := by
  induction n with
  | zero => simp [reserveOrder]
  | succ n ih =>
      have hbit : (1#32 <<< (32 - 1 - n)).getLsbD i = decide (i = 32 - 1 - n) :=
        getLsbD_bit (by omega) hi
      have hrest := ih (by omega)
      unfold reserveOrder
      by_cases hlast : 31 - i = n
      · have htop : i = 32 - 1 - n := by omega
        rw [decide_eq_false (by omega), Bool.false_and] at hrest
        rw [decide_eq_true htop] at hbit
        rw [decide_eq_true (by omega), Bool.true_and, hlast]
        split
        · next hset => rw [BitVec.getLsbD_or, hbit, Bool.or_true, hset]
        · next hclear => rw [hrest, Bool.eq_false_iff.mpr hclear]
      · have hsame : 31 - i < n + 1 ↔ 31 - i < n := by omega
        rw [decide_eq_false (by omega)] at hbit
        simp only [hsame]
        split
        · rw [BitVec.getLsbD_or, hbit, Bool.or_false, hrest]
        · exact hrest

/-- Bit `i` of the word that is compared is bit `i` of the mask from its first byte on. -/
theorem compare_bit (mem : Store) (mask_ptr n : Nat) {i : Nat} (hn : n ≤ 4) (hi : i < 32) :
    (ws_reserve_order_32_bit (topWord mem mask_ptr n)).getLsbD i =
      (decide (i / 8 < n) && (mem (mask_ptr + i / 8)).toBitVec.getLsbD (7 - i % 8)) := by
  have hall : 31 - i < 32 := by omega
  rw [ws_reserve_order_32_bit, reserveOrder_bit _ (Nat.le_refl _) hi, topWord_bit _ _ _ hn hi]
  simp [hall]

/-- One word of the list. -/
theorem cutWord_spec {P : Nat → Prop} {info : Channels} (word : BitVec 32) {mask_index : Nat}
    (hword : mask_index < 8) (hlists : Lists P info) :
    ∃ info', cutWord word mask_index info = some info' ∧
      Lists (fun c => P c ∧ ¬ (c / 32 = mask_index ∧ word.getLsbD (c % 32) = true)) info' := by
  obtain ⟨info', hrun, hlists'⟩ : ∃ info', cutWord word mask_index info = some info' ∧
      Lists (fun c => P c ∧ ¬ (c / 32 = mask_index ∧ c % 32 < 32 ∧
        word.getLsbD (c % 32) = true)) info' := by
    refine loop_rule (fun i info => Lists (fun c => P c ∧
      ¬ (c / 32 = mask_index ∧ c % 32 < i ∧ word.getLsbD (c % 32) = true)) info)
      (lists_congr (fun c => by simp) hlists) ?_
    intro i hi info hinv
    by_cases hbit : word.getLsbD i = true
    · obtain ⟨info', hcut, hlists'⟩ :=
        cut_spec (show 32 * mask_index + i < 256 by omega) hinv
      refine ⟨info', by rw [if_pos hbit]; exact hcut, lists_congr (fun c => ?_) hlists'⟩
      have hsame : c = 32 * mask_index + i ↔ c / 32 = mask_index ∧ c % 32 = i := by omega
      rw [and_assoc]
      refine and_congr_right fun _ => ?_
      rw [ne_eq, hsame]
      by_cases hmod : c % 32 = i
      · simp [hmod, hbit]
      · have hlt : c % 32 < i + 1 ↔ c % 32 < i := by omega
        simp [hmod, hlt]
    · refine ⟨info, if_neg hbit, lists_congr (fun c => and_congr_right fun _ => ?_) hinv⟩
      by_cases hmod : c % 32 = i
      · simp [hmod, hbit]
      · have hlt : c % 32 < i + 1 ↔ c % 32 < i := by omega
        rw [hlt]
  refine ⟨info', hrun, lists_congr (fun c => ?_) hlists'⟩
  have hlt : c % 32 < 32 := Nat.mod_lt _ (by decide)
  simp [hlt]

/-- The words of the mask from `mask_index` on. -/
theorem cutMask_spec {P : Nat → Prop} {mem : Store} (words mask_index mask_ptr len : Nat)
    {info : Channels} (hwords : mask_index + words ≤ 8)
    (hP : ∀ c, P c → c < 32 * (mask_index + words)) (hlists : Lists P info) :
    ∃ info', cutMask mem words mask_index mask_ptr len info = some info' ∧
      Lists (fun c => P c ∧ ¬ (32 * mask_index ≤ c ∧ (c - 32 * mask_index) / 8 < len ∧
        (mem (mask_ptr + (c - 32 * mask_index) / 8)).toBitVec.getLsbD (7 - c % 8) = true))
        info' := by
  induction words generalizing mask_index mask_ptr len P info with
  | zero =>
      refine ⟨info, rfl, lists_congr (fun c => ⟨fun hc => ⟨hc, ?_⟩, And.left⟩) hlists⟩
      have hlt := hP c hc
      omega
  | succ words ih =>
      have htaken : (if 4 ≤ len then 4 else len) ≤ 4 := by split <;> omega
      unfold cutMask
      simp only []
      generalize htake : (if 4 ≤ len then 4 else len) = taken at htaken ⊢
      obtain ⟨info', hcut, hlists'⟩ := cutWord_spec
        (ws_reserve_order_32_bit (topWord mem mask_ptr taken))
        (show mask_index < 8 by omega) hlists
      have hbit : ∀ c, c / 32 = mask_index →
          ((ws_reserve_order_32_bit (topWord mem mask_ptr taken)).getLsbD (c % 32) = true ↔
            (c - 32 * mask_index) / 8 < taken ∧
              (mem (mask_ptr + (c - 32 * mask_index) / 8)).toBitVec.getLsbD (7 - c % 8) = true) := by
        intro c hc
        have hsub : c % 32 = c - 32 * mask_index := by omega
        have hlow : c % 32 % 8 = c % 8 := by omega
        rw [compare_bit mem mask_ptr taken htaken (Nat.mod_lt c (by decide)), hlow, hsub,
          Bool.and_eq_true, decide_eq_true_iff]
      rw [hcut, Option.bind_some]
      split
      · next hdone =>
          refine ⟨info', rfl, lists_congr (fun c => and_congr_right fun _ => ?_) hlists'⟩
          have hlen : taken = len := by
            split at htake <;> omega
          refine not_congr ⟨?_, ?_⟩
          · rintro ⟨hword, hset⟩
            have hset' := (hbit c hword).mp hset
            exact ⟨by omega, by omega, hset'.2⟩
          · rintro ⟨hle, hlt, hset⟩
            have hword : c / 32 = mask_index := by omega
            exact ⟨hword, (hbit c hword).mpr ⟨by omega, hset⟩⟩
      · next hmore =>
          have hfour : taken = 4 := by
            split at htake <;> omega
          obtain ⟨info'', hrun, hlists''⟩ := ih (mask_index + 1) (mask_ptr + 4) (len - taken)
            (by omega) (fun c hc => by have hlt := hP c hc.1; omega) hlists'
          refine ⟨info'', hrun, lists_congr (fun c => ?_) hlists''⟩
          rw [and_assoc]
          refine and_congr_right fun _ => ?_
          by_cases hword : c / 32 = mask_index
          · have hnext : ¬ 32 * (mask_index + 1) ≤ c := by omega
            have hhere : 32 * mask_index ≤ c := by omega
            have hfirst : (c - 32 * mask_index) / 8 < len := by omega
            have hfirst' : (c - 32 * mask_index) / 8 < taken := by omega
            simp [hbit c hword, hword, hnext, hhere, hfirst, hfirst']
          · by_cases hnext : 32 * (mask_index + 1) ≤ c
            · have hhere : 32 * mask_index ≤ c := by omega
              have hbyte : mask_ptr + 4 + (c - 32 * (mask_index + 1)) / 8 =
                  mask_ptr + (c - 32 * mask_index) / 8 := by omega
              have hlt : (c - 32 * (mask_index + 1)) / 8 < len - taken ↔
                  (c - 32 * mask_index) / 8 < len := by omega
              simp [hword, hnext, hhere, hbyte, hlt]
            · have hhere : ¬ 32 * mask_index ≤ c := by omega
              simp [hword, hnext, hhere]

/-- The whole mask. -/
theorem byMask_spec {P : Nat → Prop} {mem : Store} {n : Nat} (len channel_mask : Nat)
    {info : Channels} (hn : n ≤ 256) (hP : ∀ c, P c → c < n) (hlists : Lists P info) :
    ∃ info', ws_neighbour_excluded_mask_by_mask mem n len channel_mask info = some info' ∧
      Lists (fun c => P c ∧ ¬ (c / 8 < len ∧
        (mem (channel_mask + c / 8)).toBitVec.getLsbD (7 - c % 8) = true)) info' := by
  unfold ws_neighbour_excluded_mask_by_mask
  split
  · next hzero =>
      refine ⟨info, rfl, lists_congr (fun c => ?_) hlists⟩
      simp [hzero]
  · obtain ⟨info', hrun, hlists'⟩ := cutMask_spec ((n + 31) / 32) 0 channel_mask len
      (by omega) (fun c hc => by have hlt := hP c hc; omega) hlists
    exact ⟨info', hrun, lists_congr (fun c => by simp) hlists'⟩

/-! ## A received schedule -/

/-- The list is left as it was: the neighbour stays on one channel, or it excludes none and has as
many channels as the list. -/
def KeepsList (domain : UInt8 → Domain) (ws_neighbor : Neighbor) (ws_us : UsIe) (own : Own) :
    Prop :=
  (∃ fixed_channel, ws_us.channels.function = .zero fixed_channel) ∨
    (ws_us.excluded_channels = .none ∧
      planChannels domain own ws_us = ws_neighbor.uc_channel_list.channel_count)

variable {mem : Store} {n : Nat} {own : Own}

/-- A list that is made anew is exact. -/
theorem listFor_spec {old : Channels} {ex : Excluded} (hn : n ≤ 256)
    (hnew : ex = .none → n ≠ old.channel_count) :
    ∃ info, listFor domain mem n own old ex = some info ∧ Exact domain mem n own ex info := by
  obtain ⟨full, hfull, hlists⟩ : ∃ full, fullList domain n own = some full ∧
      Lists (Allowed domain n own) full := fullList_spec own hn
  have hP : ∀ c, Allowed domain n own c → c < n := fun c hc => hc.1
  cases ex with
  | none =>
      refine ⟨full, ?_, lists_congr (fun c => by simp [Excludes]) hlists⟩
      rw [listFor, if_pos (hnew rfl), hfull]
  | range number start =>
      obtain ⟨info, hrun, hcut⟩ := byRange_spec number start hn hP hlists
      exact ⟨info, by rw [listFor, hfull]; exact hrun, hcut⟩
  | mask len start =>
      obtain ⟨info, hrun, hcut⟩ := byMask_spec len start hn hP hlists
      exact ⟨info, by rw [listFor, hfull]; exact hrun, hcut⟩

/-- With more channels than bits a list cannot be made. -/
theorem listFor_eq_none {old : Channels} {ex : Excluded} (hn : 256 < n)
    (hnew : ex = .none → n ≠ old.channel_count) : listFor domain mem n own old ex = none := by
  have hfull : fullList domain n own = none := fullList_eq_none own hn
  cases ex with
  | none => rw [listFor, if_pos (hnew rfl), hfull]
  | range number start => rw [listFor, hfull]; rfl
  | mask len start => rw [listFor, hfull]; rfl

/-- What the function does to the list. -/
theorem set_list (ws_neighbor : Neighbor) (ws_us : UsIe) :
    (ws_neighbor_class_neighbor_unicast_schedule_set domain mem ws_neighbor ws_us own).map
        (·.uc_channel_list) =
      match ws_us.channels.function with
      | .zero _ => some ws_neighbor.uc_channel_list
      | _ => listFor domain mem (planChannels domain own ws_us) own ws_neighbor.uc_channel_list
          ws_us.excluded_channels := by
  unfold ws_neighbor_class_neighbor_unicast_schedule_set
  split
  · rfl
  · rw [Option.map_map]
    exact Option.map_id'

/-- The list is kept where the function says so. -/
theorem set_list_kept {ws_neighbor : Neighbor} {ws_us : UsIe}
    (hkeeps : KeepsList domain ws_neighbor ws_us own) :
    (ws_neighbor_class_neighbor_unicast_schedule_set domain mem ws_neighbor ws_us own).map
        (·.uc_channel_list) = some ws_neighbor.uc_channel_list := by
  rw [set_list]
  rcases hkeeps with ⟨fixed, hfixed⟩ | ⟨hnone, hcount⟩
  · rw [hfixed]
  · split
    · rfl
    · rw [hnone, listFor, if_neg (not_not.mpr hcount)]

/-- Elsewhere it is made anew. -/
theorem set_list_new {ws_neighbor : Neighbor} {ws_us : UsIe}
    (hkeeps : ¬ KeepsList domain ws_neighbor ws_us own) :
    (ws_neighbor_class_neighbor_unicast_schedule_set domain mem ws_neighbor ws_us own).map
        (·.uc_channel_list) =
      listFor domain mem (planChannels domain own ws_us) own ws_neighbor.uc_channel_list
        ws_us.excluded_channels := by
  rw [set_list]
  split
  · next fixed hfixed => exact absurd (Or.inl ⟨fixed, hfixed⟩) hkeeps
  · rfl

/-- A list of more channels than bits runs over its end. -/
theorem set_eq_none {ws_neighbor : Neighbor} {ws_us : UsIe}
    (hkeeps : ¬ KeepsList domain ws_neighbor ws_us own)
    (hmany : 256 < planChannels domain own ws_us) :
    ws_neighbor_class_neighbor_unicast_schedule_set domain mem ws_neighbor ws_us own = none := by
  have hlist : (ws_neighbor_class_neighbor_unicast_schedule_set domain mem ws_neighbor ws_us
      own).map (·.uc_channel_list) = _ := set_list_new hkeeps
  rw [listFor_eq_none hmany fun hnone hcount => hkeeps (Or.inr ⟨hnone, hcount⟩)] at hlist
  exact Option.map_eq_none_iff.mp hlist

theorem exists_map_iff {α β : Type} {f : α → β} {P : β → Prop} {o : Option α} :
    (∃ a, o = some a ∧ P (f a)) ↔ ∃ b, o.map f = some b ∧ P b := by
  cases o <;> simp

/-- **One received schedule** leaves an exact list if and only if the list is kept and was exact
already, or there are not more channels than the mask has bits. -/
theorem set_exact_iff (mem : Store) (ws_neighbor : Neighbor) (ws_us : UsIe) :
    (∃ ws_neighbor', ws_neighbor_class_neighbor_unicast_schedule_set domain mem ws_neighbor ws_us
          own = some ws_neighbor' ∧
        Exact domain mem (planChannels domain own ws_us) own ws_us.excluded_channels
          ws_neighbor'.uc_channel_list) ↔
      (KeepsList domain ws_neighbor ws_us own →
        Exact domain mem (planChannels domain own ws_us) own ws_us.excluded_channels
          ws_neighbor.uc_channel_list) ∧
      (¬ KeepsList domain ws_neighbor ws_us own → planChannels domain own ws_us ≤ 256) := by
  rw [exists_map_iff (f := Neighbor.uc_channel_list)]
  by_cases hkeeps : KeepsList domain ws_neighbor ws_us own
  · rw [set_list_kept hkeeps]
    simp [hkeeps]
  · rw [set_list_new hkeeps]
    have hnew : ws_us.excluded_channels = .none →
        planChannels domain own ws_us ≠ ws_neighbor.uc_channel_list.channel_count :=
      fun hnone hcount => hkeeps (Or.inr ⟨hnone, hcount⟩)
    constructor
    · rintro ⟨info, hrun, -⟩
      refine ⟨fun hyes => absurd hyes hkeeps, fun _ => ?_⟩
      by_contra hmany
      rw [listFor_eq_none (by omega) hnew] at hrun
      cases hrun
    · rintro ⟨-, hfew⟩
      exact listFor_spec (hfew hkeeps) hnew

/-! ## Runs -/

/-- The schedules that are received one after the other, each with the memory it points into. -/
def run (domain : UInt8 → Domain) (own : Own) (received : List (Store × UsIe))
    (ws_neighbor : Neighbor) : Option Neighbor :=
  received.foldlM (fun ws_neighbor r =>
    ws_neighbor_class_neighbor_unicast_schedule_set domain r.1 ws_neighbor r.2 own) ws_neighbor

/-- The list holds allowed channels only and knows how many they are. -/
def Within (domain : UInt8 → Domain) (n : Nat) (own : Own) (info : Channels) : Prop :=
  (∀ c, has info.channel_mask c = true → Allowed domain n own c) ∧
    info.channel_count = card info.channel_mask

theorem Exact.within {ex : Excluded} {info : Channels} (hexact : Exact domain mem n own ex info) :
    Within domain n own info :=
  ⟨fun c hc => ((hexact.1 c).mp hc).1, hexact.2⟩

/-- A list of as many allowed channels as there are in the plan is the whole plan. -/
theorem Within.exact {info : Channels} (hwithin : Within domain n own info)
    (hcount : n = info.channel_count) : Exact domain mem n own .none info := by
  obtain ⟨hhas, hcard⟩ := hwithin
  have hsub : ((Finset.range (32 * 8)).filter fun c => has info.channel_mask c) ⊆
      Finset.range n := by
    intro c hc
    exact Finset.mem_range.mpr (hhas c (Finset.mem_filter.mp hc).2).1
  have hall := Finset.eq_of_subset_of_card_le hsub (by
    rw [Finset.card_range]
    exact Nat.le_of_eq (hcount.trans hcard))
  refine ⟨fun c => ⟨fun hc => ⟨hhas c hc, fun hex => hex⟩, fun hc => ?_⟩, hcard⟩
  have hmem := hall ▸ Finset.mem_range.mpr hc.1.1
  exact (Finset.mem_filter.mp hmem).2

/-- While the plan stays the same, one schedule after the other is taken over. -/
theorem set_within (mem : Store) {ws_neighbor : Neighbor} {ws_us : UsIe}
    (hn : planChannels domain own ws_us ≤ 256)
    (hwithin : Within domain (planChannels domain own ws_us) own ws_neighbor.uc_channel_list) :
    ∃ ws_neighbor', ws_neighbor_class_neighbor_unicast_schedule_set domain mem ws_neighbor ws_us
        own = some ws_neighbor' ∧
      Within domain (planChannels domain own ws_us) own ws_neighbor'.uc_channel_list := by
  rw [exists_map_iff (f := Neighbor.uc_channel_list)]
  by_cases hkeeps : KeepsList domain ws_neighbor ws_us own
  · exact ⟨_, set_list_kept hkeeps, hwithin⟩
  · have hnew : ws_us.excluded_channels = .none →
        planChannels domain own ws_us ≠ ws_neighbor.uc_channel_list.channel_count :=
      fun hnone hcount => hkeeps (Or.inr ⟨hnone, hcount⟩)
    obtain ⟨info, hrun, hexact⟩ : ∃ info, listFor domain mem (planChannels domain own ws_us) own
        ws_neighbor.uc_channel_list ws_us.excluded_channels = some info ∧ Exact _ _ _ _ _ info :=
      listFor_spec hn hnew
    exact ⟨info, (set_list_new hkeeps).trans hrun, hexact.within⟩

theorem run_within {received : List (Store × UsIe)} {ws_neighbor : Neighbor} (hn : n ≤ 256)
    (hplan : ∀ r ∈ received, planChannels domain own r.2 = n)
    (hwithin : Within domain n own ws_neighbor.uc_channel_list) :
    ∃ ws_neighbor', run domain own received ws_neighbor = some ws_neighbor' ∧
      Within domain n own ws_neighbor'.uc_channel_list := by
  induction received generalizing ws_neighbor with
  | nil => exact ⟨ws_neighbor, rfl, hwithin⟩
  | cons r received ih =>
      have hfirst := hplan r (List.mem_cons_self ..)
      obtain ⟨ws_neighbor', hset, hwithin'⟩ := set_within r.1
        (hfirst.symm ▸ hn) (hfirst.symm ▸ hwithin)
      obtain ⟨ws_neighbor'', hrun, hwithin''⟩ := ih
        (fun r' hmem => hplan r' (List.mem_cons_of_mem _ hmem)) (hfirst ▸ hwithin')
      refine ⟨ws_neighbor'', ?_, hwithin''⟩
      rw [run, List.foldlM_cons, hset]
      exact hrun

/-- **The list is exact**: after one received schedule from any state if and only if the list is
kept and was exact already, or made anew for not more channels than the mask has bits; and after
every run of schedules of one plan with not more channels than bits, whatever they exclude, if the
last of them is not for one fixed channel. -/
theorem unicast_schedule_set_exact_iff (domain : UInt8 → Domain) (own : Own) :
    (∀ mem ws_neighbor ws_us,
      (∃ ws_neighbor', ws_neighbor_class_neighbor_unicast_schedule_set domain mem ws_neighbor
            ws_us own = some ws_neighbor' ∧
          Exact domain mem (planChannels domain own ws_us) own ws_us.excluded_channels
            ws_neighbor'.uc_channel_list) ↔
        (KeepsList domain ws_neighbor ws_us own →
          Exact domain mem (planChannels domain own ws_us) own ws_us.excluded_channels
            ws_neighbor.uc_channel_list) ∧
        (¬ KeepsList domain ws_neighbor ws_us own → planChannels domain own ws_us ≤ 256)) ∧
    ∀ (received : List (Store × UsIe)) mem ws_us ws_neighbor n,
      ws_neighbor.uc_channel_list = ⟨0, Vector.replicate 8 0⟩ → n ≤ 256 →
      (∀ r ∈ received ++ [(mem, ws_us)], planChannels domain own r.2 = n) →
      (∀ fixed_channel, ws_us.channels.function ≠ .zero fixed_channel) →
      ∃ ws_neighbor', run domain own (received ++ [(mem, ws_us)]) ws_neighbor =
          some ws_neighbor' ∧
        Exact domain mem n own ws_us.excluded_channels ws_neighbor'.uc_channel_list := by
  refine ⟨fun mem ws_neighbor ws_us => set_exact_iff mem ws_neighbor ws_us, ?_⟩
  intro received mem ws_us ws_neighbor n hcleared hn hplan hhops
  have hstart : Within domain n own ws_neighbor.uc_channel_list := by
    rw [hcleared]
    refine ⟨fun c hc => ?_, card_empty.symm⟩
    exact absurd hc (by rw [has_empty]; decide)
  obtain ⟨ws_neighbor', hrun, hwithin⟩ := run_within hn
    (fun r hmem => hplan r (List.mem_append_left _ hmem)) hstart
  obtain rfl : planChannels domain own ws_us = n := hplan (mem, ws_us) (by simp)
  have hkept : KeepsList domain ws_neighbor' ws_us own → Exact domain mem
      (planChannels domain own ws_us) own ws_us.excluded_channels ws_neighbor'.uc_channel_list := by
    rintro (⟨fixed, hfixed⟩ | ⟨hnone, hcount⟩)
    · exact absurd hfixed (hhops fixed)
    · rw [hnone]
      exact hwithin.exact hcount
  obtain ⟨last, hset, hexact⟩ := (set_exact_iff mem ws_neighbor' ws_us).mpr
    ⟨hkept, fun _ => hn⟩
  refine ⟨last, ?_, hexact⟩
  unfold run at hrun ⊢
  rw [List.foldlM_append, hrun]
  simpa using hset

/-- A plan with its own number of channels, nothing excluded. -/
def plain (number_of_channel : Nat) : UsIe where
  dwell_interval := 250
  clock_drift := 255
  timing_accurancy := 0
  excluded_channel_ctrl := 0
  channels := ⟨1, 2, .one 9026 0 number_of_channel, .none⟩
  excluded_channels := .none

/-- An entry that was just made. -/
def fresh : Neighbor := ⟨0, 0, 0, 0, ⟨0, Vector.replicate 8 0⟩⟩

/-- Forty channels, received once. -/
theorem unicast_schedule_set_exact_plain :
    ∃ ws_neighbor', run (fun _ => .other) ⟨0, 0, 0⟩ ([] ++ [(fun _ => 0, plain 40)]) fresh =
        some ws_neighbor' ∧
      Exact (fun _ => .other) (fun _ => 0) 40 ⟨0, 0, 0⟩ .none ws_neighbor'.uc_channel_list :=
  (unicast_schedule_set_exact_iff (fun _ => .other) ⟨0, 0, 0⟩).2 [] (fun _ => 0) (plain 40) fresh
    40 rfl (by decide) (by simp [planChannels, plain]) (by simp [plain])

/-- A neighbour that announces 257 channels makes the function write behind the eight words. -/
theorem plain_overflows :
    ws_neighbor_class_neighbor_unicast_schedule_set (fun _ => .other) (fun _ => 0) fresh
      (plain 257) ⟨0, 0, 0⟩ = none := by
  refine set_eq_none ?_ (by decide)
  rintro (⟨fixed, hfixed⟩ | ⟨-, hcount⟩)
  · cases hfixed
  · cases hcount

end ChannelList
