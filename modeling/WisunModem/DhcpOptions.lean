import Mathlib.Data.List.Basic
import WisunModem.Faults

/-!
# Options of DHCPv6 messages

The octets of a datagram are read with checks, so that a read outside it is a fault.  An
option is its type and its length, two octets each, and as many octets as its length says.
`libdhcpv6_message_option_discover` looks for the first option of a type in a part of a
datagram; `libdhcpv6_message_malformed_check` walks over the options of a message.
-/

namespace DhcpMsg

/-- What the C code must not do. -/
inductive Fault where
  | outside
  | freed
  deriving DecidableEq

/-- One octet of a datagram. -/
def byte (d : List UInt8) (p : Nat) : Except Fault UInt8 :=
  match d[p]? with
  | some b => .ok b
  | none => .error .outside

/-- `common_read_16_bit` -/
def read16 (d : List UInt8) (p : Nat) : Except Fault Nat := do
  let high ← byte d p
  let low ← byte d (p + 1)
  return 256 * high.toNat + low.toNat

/-- `memcpy` from a datagram. -/
def copy (d : List UInt8) (p : Nat) : Nat → Except Fault (List UInt8)
  | 0 => return []
  | n + 1 => do
      let b ← byte d p
      let bs ← copy d (p + 1) n
      return b :: bs

/-- `common_write_16_bit` -/
def write16 (n : Nat) : List UInt8 := [UInt8.ofNat (n / 256), UInt8.ofNat n]

/-- `dhcp_options_msg_t`, with the place of the octets. -/
structure Found where
  place : Nat
  len : Nat
  deriving DecidableEq

/-- The loop of `libdhcpv6_message_option_discover`. -/
def discover (d : List UInt8) (type : Nat) : Nat → Nat → Nat → Except Fault (Option Found)
  | 0, _, _ => return none
  | fuel + 1, p, len =>
      if len < 4 then return none
      else do
        let found ← read16 d p
        let length ← read16 d (p + 2)
        if length ≤ len - 4 then
          if found = type then return some ⟨p + 4, length⟩
          else discover d type fuel (p + 4 + length) (len - 4 - length)
        else return none

/-- `libdhcpv6_message_option_discover`; each pass takes four octets at least. -/
def libdhcpv6_message_option_discover (d : List UInt8) (p len type : Nat) :
    Except Fault (Option Found) :=
  discover d type len p len

/-- The loop of `libdhcpv6_message_malformed_check`: whether the walk ends at the end. -/
def walk (d : List UInt8) : Nat → Nat → Nat → Except Fault Bool
  | 0, _, _ => return true
  | fuel + 1, p, len =>
      if len = 0 then return true
      else if len < 4 then return false
      else do
        let length ← read16 d (p + 2)
        if length ≤ len - 4 then walk d fuel (p + 4 + length) (len - 4 - length)
        else walk d fuel (p + 4) (len - 4)

/-- `libdhcpv6_message_malformed_check`: whether a message is not malformed. -/
def libdhcpv6_message_malformed_check (d : List UInt8) (p len : Nat) : Except Fault Bool :=
  if 4 < len then walk d (len - 4) (p + 4) (len - 4) else return true

/-! ## Reading inside -/

variable {d : List UInt8} {p q len type fuel n : Nat}

theorem byte_ok (h : p < d.length) : byte d p = .ok d[p] := by
  rw [byte, List.getElem?_eq_getElem h]

theorem read16_ok (h : p + 1 < d.length) : ∃ n, read16 d p = .ok n ∧ n < 65536 := by
  refine ⟨256 * d[p].toNat + d[p + 1].toNat, ?_, ?_⟩
  · rw [read16, byte_ok (by omega), byte_ok h]
    rfl
  · have hhigh := d[p].toNat_lt
    have hlow := d[p + 1].toNat_lt
    omega

theorem copy_ok (h : p + n ≤ d.length) : copy d p n = .ok ((d.drop p).take n) := by
  induction n generalizing p with
  | zero => simp [copy, pure, Except.pure]
  | succ n ih =>
      rw [copy, byte_ok (by omega), ih (by omega : p + 1 + n ≤ d.length),
        List.drop_eq_getElem_cons (by omega : p < d.length)]
      rfl

/-- An option that is found lies in the part that was looked at. -/
theorem discover_ok (type fuel : Nat) (h : p + len ≤ d.length) :
    ∃ found, discover d type fuel p len = .ok found ∧
      ∀ o, found = some o → p + 4 ≤ o.place ∧ o.place + o.len ≤ p + len := by
  induction fuel generalizing p len with
  | zero => exact ⟨none, rfl, fun o ho => by cases ho⟩
  | succ fuel ih =>
      rw [discover]
      split
      · exact ⟨none, rfl, fun o ho => by cases ho⟩
      · next hlen =>
          obtain ⟨found, hfound, -⟩ := read16_ok (d := d) (p := p) (by omega)
          obtain ⟨length, hlength, -⟩ := read16_ok (d := d) (p := p + 2) (by omega)
          rw [hfound, hlength]
          show ∃ r, (if length ≤ len - 4 then
            if found = type then Except.ok (some ⟨p + 4, length⟩)
            else discover d type fuel (p + 4 + length) (len - 4 - length)
            else Except.ok none) = .ok r ∧ _
          split
          · split
            · refine ⟨_, rfl, fun o ho => ?_⟩
              obtain rfl := Option.some.inj ho
              refine ⟨Nat.le_refl _, ?_⟩
              show p + 4 + length ≤ p + len
              omega
            · obtain ⟨r, hr, hall⟩ := ih (by omega : p + 4 + length + (len - 4 - length) ≤ d.length)
              refine ⟨r, hr, fun o ho => ?_⟩
              have hinside := hall o ho
              omega
          · exact ⟨none, rfl, fun o ho => by cases ho⟩

theorem walk_ok (h : p + len ≤ d.length) : ∃ well, walk d fuel p len = .ok well := by
  induction fuel generalizing p len with
  | zero => exact ⟨true, rfl⟩
  | succ fuel ih =>
      rw [walk]
      split
      · exact ⟨true, rfl⟩
      split
      · exact ⟨false, rfl⟩
      obtain ⟨length, hlength, -⟩ := read16_ok (d := d) (p := p + 2) (by omega)
      rw [hlength]
      show ∃ well, (if length ≤ len - 4 then walk d fuel (p + 4 + length) (len - 4 - length)
        else walk d fuel (p + 4) (len - 4)) = .ok well
      split
      · exact ih (by omega)
      · exact ih (by omega)

theorem malformed_ok (h : p + len ≤ d.length) :
    ∃ well, libdhcpv6_message_malformed_check d p len = .ok well := by
  unfold libdhcpv6_message_malformed_check
  split
  · exact walk_ok (by omega)
  · exact ⟨true, rfl⟩

/-! ## The same octets elsewhere -/

variable {a b e : List UInt8}

theorem byte_shift (h : p < d.length) : byte (a ++ d ++ e) (a.length + p) = byte d p := by
  rw [byte, byte, List.append_assoc, List.getElem?_append_right (Nat.le_add_right _ _),
    Nat.add_sub_cancel_left, List.getElem?_append_left h]

theorem read16_shift (h : p + 1 < d.length) :
    read16 (a ++ d ++ e) (a.length + p) = read16 d p := by
  rw [read16, read16, byte_shift (by omega), Nat.add_assoc, byte_shift h]

theorem walk_shift (a e : List UInt8) (fuel : Nat) (h : p + len ≤ d.length) :
    walk (a ++ d ++ e) fuel (a.length + p) len = walk d fuel p len := by
  induction fuel generalizing p len with
  | zero => rfl
  | succ fuel ih =>
      rw [walk, walk]
      split
      · rfl
      split
      · rfl
      have hread : read16 (a ++ d ++ e) (a.length + p + 2) = read16 d (p + 2) := by
        rw [Nat.add_assoc]
        exact read16_shift (by omega)
      rw [hread]
      obtain ⟨length, hlength, -⟩ := read16_ok (d := d) (p := p + 2) (by omega)
      rw [hlength]
      show (if length ≤ len - 4 then
          walk (a ++ d ++ e) fuel (a.length + p + 4 + length) (len - 4 - length)
          else walk (a ++ d ++ e) fuel (a.length + p + 4) (len - 4)) =
        if length ≤ len - 4 then walk d fuel (p + 4 + length) (len - 4 - length)
        else walk d fuel (p + 4) (len - 4)
      split
      · rw [Nat.add_assoc a.length, Nat.add_assoc a.length, ih (by omega)]
      · rw [Nat.add_assoc a.length, ih (by omega)]

/-- A place, so much further. -/
def Found.shift (n : Nat) (found : Found) : Found := ⟨n + found.place, found.len⟩

theorem discover_shift (a e : List UInt8) (type fuel : Nat) (h : p + len ≤ d.length) :
    discover (a ++ d ++ e) type fuel (a.length + p) len =
      (discover d type fuel p len).map (Option.map (Found.shift a.length)) := by
  induction fuel generalizing p len with
  | zero => rfl
  | succ fuel ih =>
      rw [discover, discover]
      split
      · rfl
      have htype : read16 (a ++ d ++ e) (a.length + p) = read16 d p := read16_shift (by omega)
      have hread : read16 (a ++ d ++ e) (a.length + p + 2) = read16 d (p + 2) := by
        rw [Nat.add_assoc]
        exact read16_shift (by omega)
      rw [htype, hread]
      obtain ⟨found, hfound, -⟩ := read16_ok (d := d) (p := p) (by omega)
      obtain ⟨length, hlength, -⟩ := read16_ok (d := d) (p := p + 2) (by omega)
      rw [hfound, hlength]
      show (if length ≤ len - 4 then
          if found = type then Except.ok (some (Found.mk (a.length + p + 4) length))
          else discover (a ++ d ++ e) type fuel (a.length + p + 4 + length) (len - 4 - length)
          else Except.ok none) =
        Except.map _ (if length ≤ len - 4 then
          if found = type then Except.ok (some (Found.mk (p + 4) length))
          else discover d type fuel (p + 4 + length) (len - 4 - length)
          else Except.ok none)
      split
      · split
        · rw [Nat.add_assoc]
          rfl
        · rw [Nat.add_assoc a.length, Nat.add_assoc a.length, ih (by omega)]
      · rfl

/-- Whether a message is malformed does not depend on where it is. -/
theorem malformed_shift (a d e : List UInt8) :
    libdhcpv6_message_malformed_check (a ++ d ++ e) a.length d.length =
      libdhcpv6_message_malformed_check d 0 d.length := by
  unfold libdhcpv6_message_malformed_check
  split
  · rw [Nat.zero_add]
    exact walk_shift a e _ (by omega)
  · rfl

/-! ## Options that were written -/

/-- An option. -/
def option (type : Nat) (octets : List UInt8) : List UInt8 :=
  write16 type ++ write16 octets.length ++ octets

@[simp] theorem length_option (type : Nat) (octets : List UInt8) :
    (option type octets).length = octets.length + 4 := by
  simp only [option, write16, List.length_append, List.length_cons, List.length_nil]
  omega

theorem read16_write16 {m : Nat} (hm : m < 65536) :
    read16 (a ++ write16 m ++ e) a.length = .ok m := by
  have h := read16_shift (a := a) (d := write16 m) (e := e) (p := 0) (by simp [write16])
  rw [Nat.add_zero] at h
  rw [h]
  show Except.ok (256 * (UInt8.ofNat (m / 256)).toNat + (UInt8.ofNat m).toNat) = Except.ok m
  rw [UInt8.toNat_ofNat', UInt8.toNat_ofNat']
  congr 1
  omega

/-- The first option is the one that is looked for. -/
theorem discover_here (a octets e : List UInt8) (fuel len : Nat) (htype : type < 65536)
    (hlen : octets.length < 65536) (hfuel : 0 < fuel) (hfits : octets.length + 4 ≤ len) :
    discover (a ++ option type octets ++ e) type fuel a.length len =
      .ok (some ⟨a.length + 4, octets.length⟩) := by
  obtain ⟨fuel, rfl⟩ := Nat.exists_eq_succ_of_ne_zero (Nat.ne_of_gt hfuel)
  have htypes : read16 (a ++ option type octets ++ e) a.length = .ok type := by
    have h := read16_write16 (a := a) (e := write16 octets.length ++ octets ++ e) htype
    simpa [option] using h
  have hlens : read16 (a ++ option type octets ++ e) (a.length + 2) = .ok octets.length := by
    have h := read16_write16 (a := a ++ write16 type) (e := octets ++ e) hlen
    simpa [option, write16] using h
  rw [discover, if_neg (by omega), htypes, hlens]
  show (if octets.length ≤ len - 4 then
    if type = type then Except.ok (some (Found.mk (a.length + 4) octets.length))
    else _ else _) = _
  rw [if_pos (by omega), if_pos rfl]

/-- Another option is passed over. -/
theorem discover_past (a octets e : List UInt8) (type fuel len : Nat) {other : Nat} (hother : other < 65536)
    (hne : other ≠ type) (hlen : octets.length < 65536) (hfits : octets.length + 4 ≤ len) :
    discover (a ++ option other octets ++ e) type (fuel + 1) a.length len =
      discover (a ++ option other octets ++ e) type fuel (a ++ option other octets).length
        (len - (octets.length + 4)) := by
  have htypes : read16 (a ++ option other octets ++ e) a.length = .ok other := by
    have h := read16_write16 (a := a) (e := write16 octets.length ++ octets ++ e) hother
    simpa [option] using h
  have hlens : read16 (a ++ option other octets ++ e) (a.length + 2) = .ok octets.length := by
    have h := read16_write16 (a := a ++ write16 other) (e := octets ++ e) hlen
    simpa [option, write16] using h
  rw [discover, if_neg (by omega), htypes, hlens]
  show (if octets.length ≤ len - 4 then
    if other = type then _
    else discover _ type fuel (a.length + 4 + octets.length) (len - 4 - octets.length)
    else _) = _
  rw [if_pos (by omega), if_neg hne, List.length_append, length_option]
  congr 1
  · omega
  · omega

end DhcpMsg
