import Mathlib.Algebra.GroupWithZero.Nat
import WisunModem.DhcpRelay

/-!
# Readers of DHCPv6 messages

Which messages `libdhcpv6_message_malformed_check` accepts, and the readers of identifiers,
link addresses and identity associations, with reads outside the datagram as faults.

* `scan_iff` — the check accepts sequences of complete options and overruns;
* `duid_inside`, `link_address_inside`, `ia_address_inside`, `relay_msg_inside` — what is
  reported lies in what it is taken from.
-/

namespace DhcpMsg

/-! ## Complete options -/

/-- A sequence of complete options. -/
inductive Options : List UInt8 → Prop
  | nil : Options []
  | cons {type : Nat} {octets rest : List UInt8} :
      type < 65536 → octets.length < 65536 → Options rest → Options (option type octets ++ rest)

/-- The walk over the octets that are left. -/
def scan : List UInt8 → Bool
  | [] => true
  | _ :: _ :: high :: low :: rest =>
      scan (if 256 * high.toNat + low.toNat ≤ rest.length
        then rest.drop (256 * high.toNat + low.toNat) else rest)
  | _ => false
termination_by r => r.length
decreasing_by
  split
  · simp only [List.length_drop, List.length_cons]
    omega
  · simp only [List.length_cons]
    omega

/-- **An overrun**: after complete options comes one that is longer than what is left, and what
is left is accepted in its place. -/
inductive Overrun : List UInt8 → Prop
  | here {type length : Nat} {rest : List UInt8} :
      type < 65536 → length < 65536 → rest.length < length → scan rest = true →
        Overrun (write16 type ++ write16 length ++ rest)
  | past {type : Nat} {octets rest : List UInt8} :
      type < 65536 → octets.length < 65536 → Overrun rest → Overrun (option type octets ++ rest)

theorem write16_bytes (high low : UInt8) :
    write16 (256 * high.toNat + low.toNat) = [high, low] := by
  have hlow := low.toNat_lt
  rw [write16, show (256 * high.toNat + low.toNat) / 256 = high.toNat by omega,
    UInt8.ofNat_toNat]
  congr 2
  apply UInt8.toNat_inj.mp
  rw [UInt8.toNat_ofNat']
  omega

theorem write16_read {n : Nat} (h : n < 65536) :
    ∃ high low : UInt8, write16 n = [high, low] ∧ 256 * high.toNat + low.toNat = n := by
  refine ⟨_, _, rfl, ?_⟩
  rw [UInt8.toNat_ofNat', UInt8.toNat_ofNat']
  omega

theorem scan_head {type length : Nat} (hlength : length < 65536) (rest : List UInt8) :
    scan (write16 type ++ write16 length ++ rest) =
      scan (if length ≤ rest.length then rest.drop length else rest) := by
  obtain ⟨high, low, hwrite, hread⟩ := write16_read hlength
  rw [hwrite, write16]
  show scan (_ :: _ :: high :: low :: rest) = _
  rw [scan, hread]

theorem scan_option {type : Nat} {octets : List UInt8} (hlength : octets.length < 65536)
    (rest : List UInt8) : scan (option type octets ++ rest) = scan rest := by
  rw [option, List.append_assoc, scan_head hlength, List.length_append,
    if_pos (Nat.le_add_right _ _), List.drop_left]

/-- Four octets begin an option, which is complete or not. -/
theorem head_cases (high1 low1 high low : UInt8) (rest : List UInt8) :
    (∃ type octets rest', type < 65536 ∧ octets.length < 65536 ∧
      high1 :: low1 :: high :: low :: rest = option type octets ++ rest' ∧
      rest'.length ≤ rest.length) ∨
    (∃ type length, type < 65536 ∧ length < 65536 ∧ rest.length < length ∧
      high1 :: low1 :: high :: low :: rest = write16 type ++ write16 length ++ rest) := by
  have hh1 := high1.toNat_lt
  have hl1 := low1.toNat_lt
  have hh := high.toNat_lt
  have hl := low.toNat_lt
  rcases Nat.lt_or_ge rest.length (256 * high.toNat + low.toNat) with hlong | hfits
  · refine Or.inr ⟨256 * high1.toNat + low1.toNat, _, by omega, by omega, hlong, ?_⟩
    rw [write16_bytes, write16_bytes]
    rfl
  · have htake : (rest.take (256 * high.toNat + low.toNat)).length =
        256 * high.toNat + low.toNat := List.length_take_of_le hfits
    refine Or.inl ⟨256 * high1.toNat + low1.toNat, rest.take (256 * high.toNat + low.toNat),
      rest.drop (256 * high.toNat + low.toNat), by omega, by omega, ?_, ?_⟩
    · rw [option, htake, write16_bytes, write16_bytes, List.append_assoc, List.take_append_drop]
      rfl
    · rw [List.length_drop]
      omega

theorem Options.scan {r : List UInt8} (h : Options r) : scan r = true := by
  induction h with
  | nil => rw [DhcpMsg.scan]
  | cons _ hlength _ ih => rw [scan_option hlength, ih]

theorem Overrun.scan {r : List UInt8} (h : Overrun r) : scan r = true := by
  induction h with
  | here _ hlength hlong hrest => rw [scan_head hlength, if_neg (by omega), hrest]
  | past _ hlength _ ih => rw [scan_option hlength, ih]

/-- **The check** accepts complete options, and overruns; the induction is on what is left. -/
theorem scan_iff {r : List UInt8} : scan r = true ↔ Options r ∨ Overrun r := by
  constructor
  · intro hscan
    induction hn : r.length using Nat.strongRecOn generalizing r with
    | ind n ih =>
    match r, hscan, hn with
    | [], _, _ => exact Or.inl .nil
    | [_], hscan, _ => exact absurd hscan (by simp [DhcpMsg.scan])
    | [_, _], hscan, _ => exact absurd hscan (by simp [DhcpMsg.scan])
    | [_, _, _], hscan, _ => exact absurd hscan (by simp [DhcpMsg.scan])
    | high1 :: low1 :: high :: low :: rest, hscan, hn =>
        simp only [List.length_cons] at hn
        rcases head_cases high1 low1 high low rest with
          ⟨type, octets, rest', htype, hlength, heq, hshort⟩ |
          ⟨type, length, htype, hlength, hlong, heq⟩
        · rw [heq, scan_option hlength] at hscan
          rw [heq]
          rcases ih rest'.length (by omega) hscan rfl with hrest | hrest
          · exact Or.inl (.cons htype hlength hrest)
          · exact Or.inr (.past htype hlength hrest)
        · rw [heq, scan_head hlength, if_neg (by omega)] at hscan
          rw [heq]
          exact Or.inr (.here htype hlength hlong hscan)
  · rintro (hrest | hrest)
    · exact hrest.scan
    · exact hrest.scan

theorem write16_inj {n m : Nat} (hn : n < 65536) (hm : m < 65536) (h : write16 n = write16 m) :
    n = m := by
  obtain ⟨high, low, hwrite, rfl⟩ := write16_read hn
  obtain ⟨high', low', hwrite', rfl⟩ := write16_read hm
  rw [hwrite, hwrite'] at h
  cases h
  rfl

/-- The head of an option tells its length and what follows. -/
theorem head_inj {type type' length length' : Nat} {r r' : List UInt8} (hlength : length < 65536)
    (hlength' : length' < 65536)
    (h : write16 type ++ write16 length ++ r = write16 type' ++ write16 length' ++ r') :
    length = length' ∧ r = r' := by
  obtain ⟨hhead, hrest⟩ := List.append_inj h rfl
  exact ⟨write16_inj hlength hlength' (List.append_inj hhead rfl).2, hrest⟩

theorem Options.not_overrun {r : List UInt8} (h : Options r) : ¬Overrun r := by
  induction h with
  | nil =>
      intro hover
      generalize hr : ([] : List UInt8) = r at hover
      cases hover with
      | here => cases hr
      | past => cases hr
  | @cons type octets rest htype hlength hrest ih =>
      intro hover
      generalize hr : option type octets ++ rest = r at hover
      cases hover with
      | @here type' length' rest' _ hlength' hlong _ =>
          rw [option, List.append_assoc] at hr
          obtain ⟨rfl, rfl⟩ := head_inj hlength hlength' hr
          rw [List.length_append] at hlong
          omega
      | @past type' octets' rest' _ hlength' hover' =>
          rw [option, option, List.append_assoc, List.append_assoc] at hr
          obtain ⟨hsame, htail⟩ := head_inj hlength hlength' hr
          exact ih ((List.append_inj htail hsame).2 ▸ hover')

/-- The check is right exactly about what does not overrun. -/
theorem scan_right_iff {r : List UInt8} : (scan r = true ↔ Options r) ↔ ¬Overrun r := by
  constructor
  · intro hright hover
    exact (hright.mp hover.scan).not_overrun hover
  · intro hno
    rw [scan_iff]
    exact or_iff_left hno

/-- The walk looks at what is left. -/
theorem walk_scan {d : List UInt8} (fuel : Nat) {p len : Nat} (h : p + len = d.length)
    (hfuel : len ≤ fuel) : walk d fuel p len = .ok (scan (d.drop p)) := by
  induction fuel generalizing p len with
  | zero =>
      rw [List.drop_eq_nil_of_le (by omega), scan]
      rfl
  | succ fuel ih =>
      rw [walk]
      by_cases hzero : len = 0
      · rw [if_pos hzero, List.drop_eq_nil_of_le (by omega), scan]
        rfl
      rw [if_neg hzero]
      have hlen : (d.drop p).length = len := by
        rw [List.length_drop]
        omega
      rcases hr : d.drop p with _ | ⟨high1, _ | ⟨low1, _ | ⟨high, _ | ⟨low, rest⟩⟩⟩⟩
      · exact absurd (hlen.symm.trans (congrArg List.length hr)) hzero
      · rw [hr] at hlen
        rw [if_pos (by simp at hlen; omega), scan]
        · rfl
        all_goals simp
      · rw [hr] at hlen
        rw [if_pos (by simp at hlen; omega), scan]
        · rfl
        all_goals simp
      · rw [hr] at hlen
        rw [if_pos (by simp at hlen; omega), scan]
        · rfl
        all_goals simp
      · rw [hr] at hlen
        simp only [List.length_cons] at hlen
        have hd : d = d.take p ++ (high1 :: low1 :: high :: low :: rest) := by
          rw [← hr, List.take_append_drop]
        have hat : ∀ i, (d[p + i]?) = (high1 :: low1 :: high :: low :: rest)[i]? := by
          intro i
          rw [← hr, List.getElem?_drop]
        have hread : read16 d (p + 2) = .ok (256 * high.toNat + low.toNat) := by
          rw [read16, byte, byte, hat 2, Nat.add_assoc, hat 3]
          rfl
        rw [if_neg (by omega), hread]
        have hrest : ∀ n, d.drop (p + 4 + n) = rest.drop n := by
          intro n
          rw [Nat.add_assoc, ← List.drop_drop, hr, Nat.add_comm 4 n]
          rfl
        show (if 256 * high.toNat + low.toNat ≤ len - 4 then
          walk d fuel (p + 4 + (256 * high.toNat + low.toNat))
            (len - 4 - (256 * high.toNat + low.toNat))
          else walk d fuel (p + 4) (len - 4)) = _
        rw [scan]
        split_ifs with hfits hfits' hfits'
        · rw [ih (by omega) (by omega), hrest]
        · omega
        · omega
        · rw [ih (by omega) (by omega)]
          exact congrArg (fun r => Except.ok (scan r)) (hrest 0)

theorem malformed_check_eq (d : List UInt8) :
    libdhcpv6_message_malformed_check d 0 d.length = .ok (scan (d.drop 4)) := by
  unfold libdhcpv6_message_malformed_check
  split
  · exact walk_scan _ (by omega) (Nat.le_refl _)
  · rw [List.drop_eq_nil_of_le (by omega), scan]
    rfl

/-! ## Readers -/

/-- `DHCPV6_CLIENT_ID_OPTION` -/
def clientIdOption : Nat := 0x0001

/-- `DHCPV6_SERVER_ID_OPTION` -/
def serverIdOption : Nat := 0x0002

/-- `DHCPV6_IDENTITY_ASSOCIATION_OPTION` -/
def identityAssociationOption : Nat := 0x0003

/-- `DHCPV6_IA_ADDRESS_OPTION` -/
def iaAddressOption : Nat := 0x0005

/-- `DHCPV6_STATUS_CODE_OPTION` -/
def statusCodeOption : Nat := 0x000d

/-- `common_read_32_bit` -/
def read32 (d : List UInt8) (p : Nat) : Except Fault Nat := do
  let high ← read16 d p
  let low ← read16 d (p + 2)
  return 65536 * high + low

/-- `libdhcpv6_duid_length_validate` -/
def libdhcpv6_duid_length_validate (duid_type duid_length : Nat) : Bool :=
  -- the least length of a type, none for a type that is not supported
  let min_length : Option Nat :=
    match duid_type with
    | 1 => some 7
    | 2 => some 5
    | 3 => some 3
    | 4 => if duid_length = 16 then some 16 else none
    | _ => none
  match min_length with
  | none => false
  | some min_length => min_length ≤ duid_length && duid_length ≤ 128 - min_length

/-- `dhcp_duid_options_params_t`, with the place of the identifier. -/
structure DuidParams where
  type : Nat
  duid_length : Nat
  duid : Nat
  deriving DecidableEq

/-- `libdhcpv6_get_duid_by_selected_type_id_opt` -/
def libdhcpv6_get_duid_by_selected_type_id_opt (d : List UInt8) (p data_length type : Nat) :
    Except Fault (Option DuidParams) := do
  match ← libdhcpv6_message_option_discover d p data_length type with
  | none => return none
  | some option_msg =>
      if option_msg.len < 5 then return none
      else
        let duid_type ← read16 d option_msg.place
        if libdhcpv6_duid_length_validate duid_type (option_msg.len - 2) then
          return some ⟨duid_type, option_msg.len - 2, option_msg.place + 2⟩
        else return none

/-- `dhcp_link_options_params_t`, with the place of the link address. -/
structure LinkParams where
  link_type : Nat
  link_time : Nat
  link_id : Nat
  deriving DecidableEq

/-- `libdhcpv6_duid_linktype_size` -/
def libdhcpv6_duid_linktype_size (linkType : Nat) : Nat :=
  if linkType = 0x001b ∨ linkType = 0x0006 then 8 else 6

/-- `libdhcpv6_get_link_address_from_duid` -/
def libdhcpv6_get_link_address_from_duid (d : List UInt8) (p data_length type : Nat) :
    Except Fault (Option LinkParams) :=
  if (type ≠ 3 ∧ type ≠ 1) ∨ data_length < 8 then return none
  else do
    let link_type ← read16 d p
    let (link_time, p, data_length) ←
      if type = 1 then do
        let link_time ← read32 d (p + 2)
        pure (link_time, p + 6, data_length - 6)
      else pure (0, p + 2, data_length - 2)
    if libdhcpv6_duid_linktype_size link_type > data_length then return none
    else return some ⟨link_type, link_time, p⟩

/-- `dhcp_ia_non_temporal_params_t`, with the place of the address. -/
structure IaParams where
  iaId : Nat
  T0 : Nat
  T1 : Nat
  nonTemporalAddress : Option Nat
  preferredValidLifeTime : Nat
  validLifeTime : Nat
  deriving DecidableEq

/-- The status code among some options; one that is too short is none. -/
def statusCode (d : List UInt8) (p len : Nat) : Except Fault (Option Nat) := do
  match ← libdhcpv6_message_option_discover d p len statusCodeOption with
  | none => return none
  | some option_msg =>
      if option_msg.len < 2 then return none
      else return some (← read16 d option_msg.place)

/-- What an identity association with options in it says. -/
def iaOptions (d : List UInt8) (p length : Nat) (iaId T0 T1 : Nat) :
    Except Fault (Option IaParams) := do
  let status ← statusCode d p length
  if status.any fun status_code => status_code != 0 then return none
  else
    match ← libdhcpv6_message_option_discover d p length iaAddressOption with
    | none => return none
    | some option_msg =>
        if option_msg.len < 24 then return none
        else
          let preferred ← read32 d (option_msg.place + 16)
          let valid ← read32 d (option_msg.place + 20)
          return some ⟨iaId, T0, T1, some option_msg.place, preferred, valid⟩

/-- `libdhcpv6_get_IA_address` -/
def libdhcpv6_get_IA_address (d : List UInt8) (p data_length : Nat) :
    Except Fault (Option IaParams) := do
  let status ← statusCode d p data_length
  if status = some 2 then return none
  else
    match ← libdhcpv6_message_option_discover d p data_length identityAssociationOption with
    | none => return none
    | some option_msg =>
        if option_msg.len < 12 then return none
        else
          let iaId ← read32 d option_msg.place
          let T0 ← read32 d (option_msg.place + 4)
          let T1 ← read32 d (option_msg.place + 8)
          let length := option_msg.len - 12
          if length > 4 then iaOptions d (option_msg.place + 12) length iaId T0 T1
          else if length = 0 then return some ⟨iaId, T0, T1, none, 0, 0⟩
          else return none

/-! ## What is reported lies inside -/

variable {d : List UInt8} {p len : Nat}

/-- No fault, and what is returned has a property. -/
abbrev Safe {α : Type} (x : Except Fault α) (post : α → Prop) : Prop :=
  Faults.Meets (fun _ => False) x post

theorem read16_safe (h : p + 2 ≤ d.length) : Safe (read16 d p) fun n => n < 65536 := by
  obtain ⟨n, hn, hlt⟩ := read16_ok (d := d) (p := p) (by omega)
  rw [Safe, hn]
  exact hlt

theorem read32_safe (h : p + 4 ≤ d.length) : Safe (read32 d p) fun n => n < 2 ^ 32 := by
  rw [Safe, read32, Faults.meets_bind]
  refine (read16_safe (by omega)).mono fun high hhigh => ?_
  rw [Faults.meets_bind]
  refine (read16_safe (by omega)).mono fun low hlow => ?_
  show 65536 * high + low < 2 ^ 32
  omega

theorem discover_safe (type : Nat) (h : p + len ≤ d.length) :
    Safe (libdhcpv6_message_option_discover d p len type) fun found =>
      ∀ o, found = some o → p + 4 ≤ o.place ∧ o.place + o.len ≤ p + len := by
  obtain ⟨found, hfound, hinside⟩ := discover_ok type len h
  rw [Safe, libdhcpv6_message_option_discover, hfound]
  exact hinside

/-- An option that is found, as a computation that is known. -/
theorem discover_known (type : Nat) (h : p + len ≤ d.length) :
    ∃ found, libdhcpv6_message_option_discover d p len type = .ok found ∧
      ∀ o, found = some o → p + 4 ≤ o.place ∧ o.place + o.len ≤ p + len :=
  discover_ok type len h

/-- An identifier is what its option carries after the type. -/
theorem duid_inside (type : Nat) (h : p + len ≤ d.length) :
    Safe (libdhcpv6_get_duid_by_selected_type_id_opt d p len type) fun read =>
      ∀ params, read = some params →
        libdhcpv6_duid_length_validate params.type params.duid_length = true ∧
        ∃ o, libdhcpv6_message_option_discover d p len type = .ok (some o) ∧
          params.duid = o.place + 2 ∧ params.duid + params.duid_length = o.place + o.len := by
  obtain ⟨found, hfound, hinside⟩ := discover_known type h
  rw [Safe, libdhcpv6_get_duid_by_selected_type_id_opt, hfound, Faults.meets_bind,
    Faults.meets_ok]
  cases found with
  | none => exact fun _ hnone => (nomatch hnone)
  | some o =>
      obtain ⟨hplace, hend⟩ := hinside o rfl
      dsimp only
      split
      · exact fun _ hnone => (nomatch hnone)
      · rename_i hlong
        rw [Faults.meets_bind]
        refine (read16_safe (by omega)).mono fun duid_type _ => ?_
        split
        · rename_i hvalid
          rintro _ ⟨⟩
          refine ⟨hvalid, o, rfl, rfl, ?_⟩
          show o.place + 2 + (o.len - 2) = o.place + o.len
          omega
        · exact fun _ hnone => (nomatch hnone)

/-- A link address lies in the identifier it is taken from. -/
theorem link_address_inside (type : Nat) (h : p + len ≤ d.length) :
    Safe (libdhcpv6_get_link_address_from_duid d p len type) fun read =>
      ∀ params, read = some params → p + 2 ≤ params.link_id ∧
        params.link_id + libdhcpv6_duid_linktype_size params.link_type ≤ p + len := by
  rw [Safe, libdhcpv6_get_link_address_from_duid]
  split
  · exact fun _ hnone => (nomatch hnone)
  · rename_i hlong
    rw [Faults.meets_bind]
    refine (read16_safe (by omega)).mono fun link_type _ => ?_
    dsimp only
    split
    · rw [Faults.meets_bind]
      refine (read32_safe (by omega)).mono fun link_time _ => ?_
      show Faults.Meets _ (if libdhcpv6_duid_linktype_size link_type > len - 6 then _ else _) _
      split
      · exact fun _ hnone => (nomatch hnone)
      · rintro _ ⟨⟩
        constructor
        · show p + 2 ≤ p + 6
          omega
        · show p + 6 + libdhcpv6_duid_linktype_size link_type ≤ p + len
          omega
    · show Faults.Meets _ (if libdhcpv6_duid_linktype_size link_type > len - 2 then _ else _) _
      split
      · exact fun _ hnone => (nomatch hnone)
      · rintro _ ⟨⟩
        constructor
        · exact Nat.le_refl _
        · show p + 2 + libdhcpv6_duid_linktype_size link_type ≤ p + len
          omega

theorem statusCode_safe (h : p + len ≤ d.length) : Safe (statusCode d p len) fun _ => True := by
  rw [Safe, statusCode, Faults.meets_bind]
  refine (discover_safe statusCodeOption h).mono fun found hfound => ?_
  cases found with
  | none => trivial
  | some o =>
      obtain ⟨-, hend⟩ := hfound o rfl
      dsimp only
      split
      · trivial
      · rename_i hlong
        rw [Faults.meets_bind]
        exact (read16_safe (by omega)).mono fun _ _ => trivial

/-- An address lies with its lifetimes in the options it is taken from. -/
theorem iaOptions_inside (h : p + len ≤ d.length) (iaId T0 T1 : Nat) :
    Safe (iaOptions d p len iaId T0 T1) fun read =>
      ∀ params, read = some params → ∀ place, params.nonTemporalAddress = some place →
        p + 4 ≤ place ∧ place + 24 ≤ p + len := by
  rw [Safe, iaOptions, Faults.meets_bind]
  refine (statusCode_safe h).mono fun status _ => ?_
  split
  · exact fun _ hnone => (nomatch hnone)
  · rw [Faults.meets_bind]
    refine (discover_safe iaAddressOption h).mono fun found hfound => ?_
    cases found with
    | none => exact fun _ hnone => (nomatch hnone)
    | some o =>
        obtain ⟨hplace, hend⟩ := hfound o rfl
        dsimp only
        split
        · exact fun _ hnone => (nomatch hnone)
        · rename_i hlong
          rw [Faults.meets_bind]
          refine (read32_safe (by omega)).mono fun preferred _ => ?_
          rw [Faults.meets_bind]
          refine (read32_safe (by omega)).mono fun valid _ => ?_
          rintro _ ⟨⟩ _ ⟨⟩
          exact ⟨hplace, by omega⟩

/-- And in the identity association that these are in. -/
theorem ia_address_inside (h : p + len ≤ d.length) :
    Safe (libdhcpv6_get_IA_address d p len) fun read =>
      ∀ params, read = some params → ∀ place, params.nonTemporalAddress = some place →
        ∃ o, libdhcpv6_message_option_discover d p len identityAssociationOption =
            .ok (some o) ∧
          o.place + 16 ≤ place ∧ place + 24 ≤ o.place + o.len := by
  obtain ⟨found, hfound, hinside⟩ := discover_known identityAssociationOption h
  rw [Safe, libdhcpv6_get_IA_address, Faults.meets_bind]
  refine (statusCode_safe h).mono fun status _ => ?_
  split
  · exact fun _ hnone => (nomatch hnone)
  · rw [hfound, Faults.meets_bind, Faults.meets_ok]
    cases found with
    | none => exact fun _ hnone => (nomatch hnone)
    | some o =>
        obtain ⟨hplace, hend⟩ := hinside o rfl
        dsimp only
        split
        · exact fun _ hnone => (nomatch hnone)
        · rename_i hlong
          rw [Faults.meets_bind]
          refine (read32_safe (by omega)).mono fun iaId _ => ?_
          rw [Faults.meets_bind]
          refine (read32_safe (by omega)).mono fun T0 _ => ?_
          rw [Faults.meets_bind]
          refine (read32_safe (by omega)).mono fun T1 _ => ?_
          split
          · refine (iaOptions_inside (by omega) iaId T0 T1).mono fun read hread params hparams => ?_
            intro place hat
            have hwithin := hread params hparams place hat
            exact ⟨o, rfl, by omega, by omega⟩
          · split
            · rintro _ ⟨⟩ _ ⟨⟩
            · exact fun _ hnone => (nomatch hnone)

/-- A relay message reports its parts inside what it was given. -/
theorem relay_msg_inside (d : List UInt8) :
    Safe (libdhcpv6_relay_msg_read d d.length) fun read =>
      ∀ relayMsg, read = some relayMsg →
        relayMsg.peerAddress + 16 ≤ d.length ∧
        relayMsg.options.place + relayMsg.options.len ≤ d.length ∧
        ∀ found, relayMsg.interfaceId = some found → found.place + found.len ≤ d.length := by
  rw [Safe, libdhcpv6_relay_msg_read]
  split
  · exact fun _ hnone => (nomatch hnone)
  · rename_i hlong
    have hrelay : relayLength = 34 := rfl
    have hregion : relayLength + (d.length - relayLength) ≤ d.length := by omega
    rw [Faults.meets_bind]
    refine (discover_safe optionInterfaceId hregion).mono fun id hid => ?_
    rw [Faults.meets_bind]
    refine (discover_safe optionRelay hregion).mono fun options hoptions => ?_
    cases options with
    | none => exact fun _ hnone => (nomatch hnone)
    | some found =>
        obtain ⟨-, hend⟩ := hoptions found rfl
        rintro _ ⟨⟩
        refine ⟨?_, ?_, ?_⟩
        · show 18 + 16 ≤ d.length
          omega
        · show found.place + found.len ≤ d.length
          omega
        · intro interface hinterface
          obtain ⟨-, hlast⟩ := hid interface hinterface
          omega

end DhcpMsg
