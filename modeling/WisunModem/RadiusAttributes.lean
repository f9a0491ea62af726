import Mathlib.Data.List.Basic
import Mathlib.Tactic.Common

/-!
# Attributes of a RADIUS packet

An attribute is its type, its length and its value; the length counts the two octets before
the value.  The readers look for the first attribute of a type, or for the first attribute of
a vendor.  Octets are read with checks, and a loop that does not end runs out of fuel.

* `search_moves`, `search_ends` — when a search ends.
-/

namespace Radius

/-- What the C code must not do: leave a buffer, or go on for ever. -/
inductive Trouble where
  | outside
  | unfinished
  deriving DecidableEq

abbrev Octets := List UInt8

/-- One octet of a datagram. -/
def octet (d : Octets) (p : Nat) : Except Trouble Nat :=
  match d[p]? with
  | some b => .ok b.toNat
  | none => .error .outside

/-- `memcpy` from a datagram. -/
def copy (d : Octets) (p n : Nat) : Except Trouble Octets :=
  if p + n ≤ d.length then .ok ((d.drop p).take n) else .error .outside

/-- Octets in place of those of a datagram. -/
def overwrite (d : Octets) (p : Nat) (bs : Octets) : Octets :=
  d.take p ++ bs ++ d.drop (p + bs.length)

/-- `memcpy` to a datagram. -/
def store (d : Octets) (p : Nat) (bs : Octets) : Except Trouble Octets :=
  if p + bs.length ≤ d.length then .ok (overwrite d p bs) else .error .outside

abbrev AVP_FIXED_LEN : Nat := 2
abbrev AVP_VALUE_MAX_LEN : Nat := 253

abbrev AVP_TYPE_USER_NAME : Nat := 1
abbrev AVP_TYPE_NAS_PORT : Nat := 5
abbrev AVP_TYPE_FRAMED_MTU : Nat := 12
abbrev AVP_TYPE_STATE : Nat := 24
abbrev AVP_TYPE_VENDOR_SPECIFIC : Nat := 26
abbrev AVP_TYPE_CALLED_STATION_ID : Nat := 30
abbrev AVP_TYPE_CALLING_STATION_ID : Nat := 31
abbrev AVP_TYPE_NAS_IDENTIFIER : Nat := 32
abbrev AVP_TYPE_NAS_PORT_TYPE : Nat := 61
abbrev AVP_TYPE_EAP_MESSAGE : Nat := 79
abbrev AVP_TYPE_MESSAGE_AUTHENTICATOR : Nat := 80
abbrev AVP_TYPE_NAS_IPV6_ADDRESS : Nat := 95

/-- The loop of `avp_search` and of `avp_vpa_search`; `check` looks at one attribute. -/
def search (check : Nat → Nat → Except Trouble (Option (Nat × Nat))) (d : Octets) :
    Nat → Nat → Nat → Except Trouble (Option (Nat × Nat))
  | 0, _, _ => .error .unfinished
  | fuel + 1, ptr, len =>
      if len < AVP_FIXED_LEN then .ok none
      else do
        let avp_len ← octet d (ptr + 1)
        if avp_len > len then .ok none
        else do
          let found ← check ptr avp_len
          if found.isSome then .ok found
          else if len > avp_len then search check d fuel (ptr + avp_len) (len - avp_len)
          else .ok none

/-- Whether an attribute has the type, for `avp_search`. -/
def typeCheck (d : Octets) (type ptr avp_len : Nat) : Except Trouble (Option (Nat × Nat)) := do
  let found ← octet d ptr
  return if found = type then some (ptr + AVP_FIXED_LEN, avp_len) else none

/-- `avp_search`: place and length octet of the first attribute of a type. -/
def avp_search (d : Octets) (type fuel ptr len : Nat) : Except Trouble (Option (Nat × Nat)) :=
  search (typeCheck d type) d fuel ptr len

/-- Whether an attribute is the vendor's, for `avp_vpa_search`.  The highest octet of the
vendor identifier is cleared before it is read; nothing reads that octet again. -/
def vendorCheck (d : Octets) (vendor_id vendor_type ptr avp_len : Nat) :
    Except Trouble (Option (Nat × Nat)) := do
  let found ← octet d ptr
  if found = AVP_TYPE_VENDOR_SPECIFIC ∧ 9 ≤ avp_len then do
    let id1 ← octet d (ptr + 3)
    let id2 ← octet d (ptr + 4)
    let id3 ← octet d (ptr + 5)
    let vendor_len ← octet d (ptr + 7)
    let type ← octet d (ptr + 6)
    return if 65536 * id1 + 256 * id2 + id3 = vendor_id ∧ type = vendor_type
      then some (ptr + 8, vendor_len) else none
  else return none

/-- `avp_vpa_search` -/
def avp_vpa_search (d : Octets) (vendor_id vendor_type fuel ptr len : Nat) :
    Except Trouble (Option (Nat × Nat)) :=
  search (vendorCheck d vendor_id vendor_type) d fuel ptr len

/-- `avp_eap_message_read` -/
def avp_eap_message_read (d : Octets) (fuel ptr len : Nat) :=
  avp_search d AVP_TYPE_EAP_MESSAGE fuel ptr len

/-- `avp_message_authenticator_read` -/
def avp_message_authenticator_read (d : Octets) (fuel ptr len : Nat) :
    Except Trouble (Option Nat) := do
  let found ← avp_search d AVP_TYPE_MESSAGE_AUTHENTICATOR fuel ptr len
  return match found with
    | some (place, auth_len) => if auth_len < 18 then none else some place
    | none => none

/-- `avp_state_read` -/
def avp_state_read (d : Octets) (fuel ptr len : Nat) :=
  avp_search d AVP_TYPE_STATE fuel ptr len

/-- `avp_vsa_ms_mppe_recv_key_read` -/
def avp_vsa_ms_mppe_recv_key_read (d : Octets) (fuel ptr len : Nat) :=
  avp_vpa_search d 311 17 fuel ptr len

/-- Where a value is copied: nowhere, or to a buffer with room. -/
def copyTo (d : Octets) (room : Option Nat) (copied : Octets) (p n : Nat) :
    Except Trouble Octets :=
  match room with
  | none => .ok copied
  | some room => do
      let value ← copy d p n
      if copied.length + n ≤ room then .ok (copied ++ value) else .error .outside

/-- The loop of `radius_client_sec_prot_eap_avps_handle`. -/
def eap_avps_loop (d : Octets) (room : Option Nat) (fuel : Nat) :
    Nat → Nat → Nat → Nat → Octets → Except Trouble (Nat × Octets)
  | 0, _, _, _, _ => .error .unfinished
  | turns + 1, avp_ptr, avp_length, eap_len, copied => do
      let found ← avp_eap_message_read d fuel avp_ptr avp_length
      match found with
      | none => .ok (eap_len, copied)
      | some (eap_message, avp_len) => do
          let avp_eap_len := (avp_len + 256 - AVP_FIXED_LEN) % 256
          let copied ← copyTo d room copied eap_message avp_eap_len
          let offset := eap_message - avp_ptr
          eap_avps_loop d room fuel turns (eap_message + avp_eap_len)
            ((avp_length + 131072 - (offset + avp_eap_len)) % 65536)
            ((eap_len + avp_eap_len) % 65536) copied

/-- `radius_client_sec_prot_eap_avps_handle`: the length, and what is copied. -/
def eap_avps_handle (d : Octets) (room : Option Nat) (fuel avp_ptr avp_length : Nat) :
    Except Trouble (Nat × Octets) :=
  eap_avps_loop d room fuel fuel avp_ptr avp_length 0 []

/-! ## When a search ends -/

/-- An octet, zero outside the datagram. -/
def val (d : Octets) (p : Nat) : Nat := (d.getD p 0).toNat

theorem octet_ok {d : Octets} {p : Nat} (h : p < d.length) : octet d p = .ok (val d p) := by
  simp [octet, val, h]

theorem octet_outside {d : Octets} {p : Nat} (h : d.length ≤ p) :
    octet d p = .error .outside := by
  simp [octet, List.getElem?_eq_none h]

/-- **The chain of attributes.**  From an attribute on which the walk does not stop, and which
is not longer than what is left, it goes on behind the span of that attribute, in 16 bits. -/
inductive Reaches (d : Octets) (stop : Nat → Bool) (span : Nat → Nat) (p n : Nat) :
    Nat → Nat → Prop
  | start : Reaches d stop span p n p n
  | past {q m : Nat} :
      Reaches d stop span p n q m → 2 ≤ m → stop q = false → val d (q + 1) ≤ m →
        Reaches d stop span p n (q + span q) ((m + 65536 - span q) % 65536)

variable {d : Octets} {stop : Nat → Bool} {span : Nat → Nat} {p n q m fuel : Nat}

/-- What is reached is the attribute itself, or reached from the next one. -/
theorem Reaches.cases_head (h : Reaches d stop span p n q m) :
    (q = p ∧ m = n) ∨ (2 ≤ n ∧ stop p = false ∧ val d (p + 1) ≤ n ∧
      Reaches d stop span (p + span p) ((n + 65536 - span p) % 65536) q m) := by
  induction h with
  | start => exact Or.inl ⟨rfl, rfl⟩
  | past _ hm hs hv ih =>
      rcases ih with ⟨rfl, rfl⟩ | ⟨hn, hstop, hl, hrest⟩
      · exact Or.inr ⟨hm, hs, hv, .start⟩
      · exact Or.inr ⟨hn, hstop, hl, .past hrest hm hs hv⟩

/-- What is reached from the next attribute is reached from this one. -/
theorem Reaches.head (hn : 2 ≤ n) (hstop : stop p = false) (hl : val d (p + 1) ≤ n)
    (h : Reaches d stop span (p + span p) ((n + 65536 - span p) % 65536) q m) :
    Reaches d stop span p n q m := by
  induction h with
  | start => exact .past .start hn hstop hl
  | past _ hm hs hv ih => exact .past ih hm hs hv

/-- The chain a search goes along: it stops on what it looks for. -/
abbrev Passes (d : Octets) (found : Nat → Option (Nat × Nat)) :=
  Reaches d (fun q => (found q).isSome) (fun q => val d (q + 1))

/-- No attribute that is passed over has the length zero. -/
def Moves (d : Octets) (found : Nat → Option (Nat × Nat)) (p n : Nat) : Prop :=
  ∀ q m, Passes d found p n q m → 2 ≤ m → val d (q + 1) = 0 → (found q).isSome

variable {check : Nat → Nat → Except Trouble (Option (Nat × Nat))}
  {found : Nat → Option (Nat × Nat)} {r : Option (Nat × Nat)}

/-- `check` computes `found` on attributes inside the datagram. -/
def Checks (d : Octets) (check : Nat → Nat → Except Trouble (Option (Nat × Nat)))
    (found : Nat → Option (Nat × Nat)) : Prop :=
  ∀ p, p + 2 ≤ d.length → p + val d (p + 1) ≤ d.length → check p (val d (p + 1)) = .ok (found p)

/-- What is reached by a search lies in what is searched. -/
theorem Reaches.sum (h : Passes d found p n q m) (hn : n < 65536) : q + m = p + n ∧ m < 65536 := by
  induction h with
  | start => exact ⟨rfl, hn⟩
  | past _ _ _ hl ih => omega

/-- One pass of the loop over an attribute whose head lies in the datagram. -/
theorem search_head (hhead : p + 2 ≤ d.length) (hn : 2 ≤ n)
    (hcheck : val d (p + 1) ≤ n → check p (val d (p + 1)) = .ok (found p)) :
    search check d (fuel + 1) p n =
      if val d (p + 1) > n then .ok none
      else if (found p).isSome then .ok (found p)
      else if n > val d (p + 1) then
        search check d fuel (p + val d (p + 1)) (n - val d (p + 1))
      else .ok none := by
  rw [search, if_neg (by simp only [AVP_FIXED_LEN]; omega), octet_ok (by omega)]
  by_cases hl : val d (p + 1) > n
  · simp only [bind, Except.bind, if_pos hl]
  · simp only [bind, Except.bind, if_neg hl]
    rw [hcheck (by omega)]

theorem search_succ (hcheck : Checks d check found) (hin : p + n ≤ d.length) (hn : 2 ≤ n) :
    search check d (fuel + 1) p n =
      if val d (p + 1) > n then .ok none
      else if (found p).isSome then .ok (found p)
      else if n > val d (p + 1) then
        search check d fuel (p + val d (p + 1)) (n - val d (p + 1))
      else .ok none :=
  search_head (by omega) hn fun hl => hcheck p (by omega) (by omega)

/-- A search reads the head of an attribute. -/
theorem search_outside (hhead : d.length < p + 2) (hn : 2 ≤ n) :
    search check d fuel p n ≠ .ok r := by
  cases fuel with
  | zero =>
      intro h
      cases h
  | succ fuel =>
      rw [search, if_neg (by simp only [AVP_FIXED_LEN]; omega), octet_outside (by omega)]
      intro h
      cases h

theorem search_short (hn : n < 2) : search check d (fuel + 1) p n = .ok none := by
  rw [search, if_pos (by simpa only [AVP_FIXED_LEN] using hn)]

/-- A search does not come past an attribute of length zero. -/
theorem search_stalls (hcheck : Checks d check found) (hin : p + n ≤ d.length) (hn : 2 ≤ n)
    (hzero : val d (p + 1) = 0) (hfound : (found p).isSome = false) :
    search check d fuel p n ≠ .ok r := by
  induction fuel with
  | zero =>
      intro h
      cases h
  | succ fuel ih =>
      rw [search_succ hcheck hin hn, if_neg (by omega), if_neg (by simp [hfound]),
        if_pos (by omega), hzero]
      exact ih

/-- A search that ends moves on at every attribute it passes over. -/
theorem search_reached (hcheck : Checks d check found) (hin : p + n ≤ d.length)
    (hn : n < 65536) (hr : search check d fuel p n = .ok r) (h : Passes d found p n q m) :
    ∃ fuel, search check d fuel q m = .ok r := by
  induction h with
  | start => exact ⟨fuel, hr⟩
  | @past q m hreach hm hstop hl ih =>
      obtain ⟨fuel, hq⟩ := ih
      have hsum := hreach.sum hn
      cases fuel with
      | zero => cases hq
      | succ fuel =>
          rw [search_succ hcheck (by omega) hm, if_neg (by omega), if_neg (by simp [hstop])] at hq
          split at hq
          · have hleft : (m + 65536 - val d (q + 1)) % 65536 = m - val d (q + 1) := by omega
            exact ⟨fuel, by rw [hleft]; exact hq⟩
          · have hleft : (m + 65536 - val d (q + 1)) % 65536 = 0 := by omega
            exact ⟨1, by rw [hleft, search_short (by omega)]; exact hq⟩

theorem search_moves (hcheck : Checks d check found) (hin : p + n ≤ d.length)
    (hn : n < 65536) (hr : search check d fuel p n = .ok r) : Moves d found p n := by
  intro q m hreach hm hzero
  by_contra hfound
  obtain ⟨fuel', hq⟩ := search_reached hcheck hin hn hr hreach
  have hsum := hreach.sum hn
  exact search_stalls hcheck (by omega) hm hzero (by simpa using hfound) hq

/-- **A search ends** where no attribute that it passes over has the length zero. -/
theorem search_ends (hcheck : Checks d check found) (hin : p + n ≤ d.length) (hn : n < 65536)
    (hmoves : Moves d found p n) (hfuel : n < fuel) : ∃ r, search check d fuel p n = .ok r := by
  induction fuel generalizing p n with
  | zero => omega
  | succ fuel ih =>
      by_cases htwo : n < 2
      · exact ⟨none, search_short htwo⟩
      rw [search_succ hcheck hin (by omega)]
      split
      · exact ⟨none, rfl⟩
      split
      · exact ⟨found p, rfl⟩
      next hstop =>
      split
      · have hpos : val d (p + 1) ≠ 0 := by
          intro hzero
          exact hstop (hmoves p n .start (by omega) hzero)
        have hleft : n - val d (p + 1) = (n + 65536 - val d (p + 1)) % 65536 := by omega
        apply ih (by omega) (by omega) _ (by omega)
        intro q m hreach hm hzero
        rw [hleft] at hreach
        exact hmoves q m (hreach.head (by omega) (by simpa using hstop) (by omega)) hm hzero
      · exact ⟨none, rfl⟩

/-- What a search reports is an attribute it reaches. -/
theorem search_found (hcheck : Checks d check found) (hin : p + n ≤ d.length) (hn : n < 65536)
    {x : Nat × Nat} (hr : search check d fuel p n = .ok (some x)) :
    ∃ q m, Passes d found p n q m ∧ 2 ≤ m ∧ val d (q + 1) ≤ m ∧ found q = some x := by
  induction fuel generalizing p n with
  | zero => cases hr
  | succ fuel ih =>
      by_cases htwo : n < 2
      · rw [search_short htwo] at hr
        cases hr
      rw [search_succ hcheck hin (by omega)] at hr
      split at hr
      · cases hr
      split at hr
      · exact ⟨p, n, .start, by omega, by omega, Except.ok.inj hr⟩
      next hstop =>
      split at hr
      · obtain ⟨q, m, hreach, hm, hl, hq⟩ := ih (by omega) (by omega) hr
        have hleft : n - val d (p + 1) = (n + 65536 - val d (p + 1)) % 65536 := by omega
        rw [hleft] at hreach
        exact ⟨q, m, hreach.head (by omega) (by simpa using hstop) (by omega), hm, hl, hq⟩
      · cases hr

/-- A search that ends reports what it reaches. -/
theorem search_reports (hcheck : Checks d check found) (hin : p + n ≤ d.length)
    (hn : n < 65536) (hr : search check d fuel p n = .ok r) (h : Passes d found p n q m)
    (hm : 2 ≤ m) (hl : val d (q + 1) ≤ m) {x : Nat × Nat} (hx : found q = some x) :
    r = some x := by
  obtain ⟨fuel', hq⟩ := search_reached hcheck hin hn hr h
  have hsum := h.sum hn
  cases fuel' with
  | zero => cases hq
  | succ fuel' =>
      rw [search_succ hcheck (by omega) hm, if_neg (by omega), if_pos (by simp [hx]), hx] at hq
      exact (Except.ok.inj hq).symm

/-! ## What the readers look for -/

/-- An attribute of a type. -/
def ofType (d : Octets) (type p : Nat) : Option (Nat × Nat) :=
  if val d p = type then some (p + AVP_FIXED_LEN, val d (p + 1)) else none

/-- An attribute of a vendor: the place of the vendor's value and the vendor length. -/
def ofVendor (d : Octets) (vendor_id vendor_type p : Nat) : Option (Nat × Nat) :=
  if (val d p = AVP_TYPE_VENDOR_SPECIFIC ∧ 9 ≤ val d (p + 1)) ∧
      65536 * val d (p + 3) + 256 * val d (p + 4) + val d (p + 5) = vendor_id ∧
      val d (p + 6) = vendor_type
    then some (p + 8, val d (p + 7)) else none

theorem checks_type (d : Octets) (type : Nat) : Checks d (typeCheck d type) (ofType d type) := by
  intro p hhead _
  rw [typeCheck, octet_ok (by omega)]
  rfl

theorem checks_vendor (d : Octets) (vendor_id vendor_type : Nat) :
    Checks d (vendorCheck d vendor_id vendor_type) (ofVendor d vendor_id vendor_type) := by
  intro p hhead hin
  rw [vendorCheck, octet_ok (by omega), ofVendor]
  by_cases h : val d p = AVP_TYPE_VENDOR_SPECIFIC ∧ 9 ≤ val d (p + 1)
  · simp only [bind, Except.bind, if_pos h]
    rw [octet_ok (by omega), octet_ok (by omega), octet_ok (by omega), octet_ok (by omega),
      octet_ok (by omega)]
    simp only [pure, Except.pure, h, true_and]
  · simp only [bind, Except.bind, h, false_and, if_false, pure, Except.pure]

theorem ofType_isSome {type : Nat} : (ofType d type p).isSome ↔ val d p = type := by
  rw [ofType]
  split <;> simp [*]

end Radius
