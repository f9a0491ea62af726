import WisunModem.GuardedStore

/-!
# RPL source routing headers

`rpl_data_process_routing_header` and `rpl_data_get_srh_last_address`.  The packet
is a byte store whose address 0 is the first byte of the IPv6 header, so the IPv6
destination is at 24, and `ptr` is where the routing header starts.  Counts are the
32-bit `uint_fast16_t` of the target and addresses are formed modulo `2 ^ 32`.

The number of addresses is a C quotient of a signed difference, stored unsigned.
`RoutingHeader.process_inside_iff` gives the headers for which it fits.
-/

namespace RoutingHeader

open ByteStore GuardedStore Exec

/-! ## Fields -/

variable (m : Store) (ptr : Nat)

/-- The bytes of the header, from `Hdr Ext Len`. -/
def hdrLen : Nat := ((m (ptr + 1)).toNat + 1) * 8

def segsLeft : Nat := (m (ptr + 3)).toNat

def cmprI : Nat := (m (ptr + 4)).toNat / 16

def cmprE : Nat := (m (ptr + 4)).toNat % 16

def padLen : Nat := (m (ptr + 5)).toNat / 16

/-- `((hlen - 8 - pad - (16 - cmprE)) / (16 - cmprI)) + 1` as `uint_fast16_t`. -/
def nAddrs : Nat :=
  ((((hdrLen m ptr : Int) - 8 - padLen m ptr - (16 - cmprE m ptr)).tdiv (16 - cmprI m ptr) + 1) %
    2 ^ 32).toNat

/-- `addr_is_ipv6_multicast`. -/
def isMulticast (addr : List UInt8) : Bool := addr.head? == some 0xff

/-! ## Processing -/

/-- What the node that processes the header knows. -/
structure Node where
  /-- `cur->rpl_domain` is set. -/
  rplDomain : Bool
  /-- `addr_interface_address_compare(cur, addr) == 0`. -/
  isLocal : List UInt8 → Bool
  /-- Policy names an interface for the next hop and the buffer gets its route. -/
  routeTo : List UInt8 → Bool

/-- What becomes of the packet. -/
inductive Outcome
  | drop
  /-- The header is skipped; its length goes to `hdrlen_out`. -/
  | skip (hdrlen : Nat)
  /-- ICMPv6 parameter problem with this pointer. -/
  | parameterProblem (pointer : Nat)
  /-- ICMPv6 error in source routing header. -/
  | unreachable
  /-- Forwarded to the new destination. -/
  | forward (dst : List UInt8)
deriving DecidableEq, Repr

variable (node : Node) (ok : Nat → Bool)

/-- The search for a loop from `Address[i]`, `left` addresses before the end:
a local address behind one that is not local. -/
def findLoop (cmprI cmprE : Nat) : Nat → Nat → List UInt8 → Bool → Guarded Bool
  | 0, _, _, _ => pure false
  | left + 1, a, addr, prevWasLocal => do
      let cpr := if left = 0 then cmprE else cmprI
      let entry ← loads ok a (16 - cpr)
      let addr := addr.take cpr ++ entry
      let localAddr := node.isLocal addr
      if localAddr && !prevWasLocal then pure true
      else findLoop cmprI cmprE left (a + (16 - cpr)) addr localAddr

/-- The loop search is made only where two more addresses follow. -/
def routeLoops (cmprI cmprE n i aptr : Nat) : Guarded Bool :=
  if i + 1 ≤ n then do
    let addr ← loads ok 24 16
    findLoop node ok cmprI cmprE (n + 1 - i) aptr addr true
  else pure false

/-- `cmpr == 0 && addr_is_ipv6_multicast(aptr)`. -/
def nextIsMulticast (cmpr aptr : Nat) : Guarded Bool :=
  if cmpr = 0 then do
    let b ← load ok aptr
    pure (b == 0xff)
  else pure false

/-- The exchange with `Address[i]` and the way on. -/
def advance (cmpr aptr : Nat) : Guarded Outcome := do
  memswap ok (24 + cmpr) aptr (16 - cmpr)
  let dst ← loads ok 24 16
  pure (if node.routeTo dst then .forward dst else .unreachable)

/-- The steps on `Address[i]`. -/
def visit (cmprI cmprE n i aptr : Nat) : Guarded Outcome := do
  let cmpr := if i = n then cmprE else cmprI
  let refused ← nextIsMulticast ok cmpr aptr
  if refused then pure .drop else do
    let loops ← routeLoops node ok cmprI cmprE n i aptr
    if loops then pure (.parameterProblem aptr) else advance node ok cmpr aptr

/-- The steps once the addresses are counted. -/
def nextSegment (dstSa : List UInt8) (ptr segs cmprI cmprE n : Nat) : Guarded Outcome :=
  if n < segs then pure (.parameterProblem (ptr + 3)) else do
    save ok (ptr + 3) (UInt8.ofNat (segs - 1))
    if isMulticast dstSa then pure .drop else
      let i := n - (segs - 1)
      visit node ok cmprI cmprE n i ((ptr + 8 + (i - 1) * (16 - cmprI)) % 2 ^ 32)

def rpl_data_process_routing_header (dstSa : List UInt8) (ptr : Nat) : Guarded Outcome :=
  if node.rplDomain then do
    let m ← get
    let _ ← load ok (ptr + 1)
    let _ ← load ok (ptr + 3)
    if segsLeft m ptr = 0 then pure (.skip (hdrLen m ptr)) else do
      let _ ← load ok (ptr + 4)
      let _ ← load ok (ptr + 5)
      nextSegment node ok dstSa ptr (segsLeft m ptr) (cmprI m ptr) (cmprE m ptr) (nAddrs m ptr)
  else pure .drop

/-! ## Counting the addresses -/

/-- The bytes of the header and the IPv6 destination. -/
def inHeader (a : Nat) : Bool :=
  decide ((ptr ≤ a ∧ a < ptr + hdrLen m ptr) ∨ (24 ≤ a ∧ a < 40))

/-- The counted addresses lie inside the header. -/
def AddressesFit : Prop :=
  nAddrs m ptr = 0 ∨
    8 + (nAddrs m ptr - 1) * (16 - cmprI m ptr) + (16 - cmprE m ptr) ≤ hdrLen m ptr

/-- The shortfall of the header against one address behind the fixed part and the
pad: there is none, or it is smaller than an address and the pad makes it up, or it
is one whole address but not two, which counts no address at all. -/
def CountSound : Prop :=
  24 + padLen m ptr ≤ hdrLen m ptr + cmprE m ptr ∨
    (24 + padLen m ptr < hdrLen m ptr + cmprE m ptr + (16 - cmprI m ptr) ∧
      24 ≤ hdrLen m ptr + cmprE m ptr) ∨
    (hdrLen m ptr + cmprE m ptr + (16 - cmprI m ptr) ≤ 24 + padLen m ptr ∧
      24 + padLen m ptr < hdrLen m ptr + cmprE m ptr + 2 * (16 - cmprI m ptr))

theorem cmprI_lt : cmprI m ptr < 16 := by
  have hbyte := (m (ptr + 4)).toNat_lt
  unfold cmprI
  omega

theorem cmprE_lt : cmprE m ptr < 16 := Nat.mod_lt _ (by decide)

theorem padLen_lt : padLen m ptr < 16 := by
  have hbyte := (m (ptr + 5)).toNat_lt
  unfold padLen
  omega

theorem hdrLen_pos : 8 ≤ hdrLen m ptr := by
  unfold hdrLen
  omega

theorem hdrLen_le : hdrLen m ptr ≤ 2048 := by
  have hbyte := (m (ptr + 1)).toNat_lt
  unfold hdrLen
  omega

variable {m ptr node ok}

/-- No shortfall: the quotient is one of naturals. -/
theorem nAddrs_of_le (h : 24 + padLen m ptr ≤ hdrLen m ptr + cmprE m ptr) :
    nAddrs m ptr =
      (hdrLen m ptr + cmprE m ptr - (24 + padLen m ptr)) / (16 - cmprI m ptr) + 1 := by
  have hI := cmprI_lt m ptr
  have hlen := hdrLen_le m ptr
  have hE := cmprE_lt m ptr
  have hdiff : (hdrLen m ptr : Int) - 8 - padLen m ptr - (16 - cmprE m ptr) =
      ((hdrLen m ptr + cmprE m ptr - (24 + padLen m ptr) : Nat) : Int) := by omega
  have hstep : (16 : Int) - cmprI m ptr = ((16 - cmprI m ptr : Nat) : Int) := by omega
  have hle := Nat.div_le_self (hdrLen m ptr + cmprE m ptr - (24 + padLen m ptr))
    (16 - cmprI m ptr)
  rw [nAddrs, hdiff, hstep, ← Int.ofNat_tdiv]
  generalize (hdrLen m ptr + cmprE m ptr - (24 + padLen m ptr)) / (16 - cmprI m ptr) = quot at *
  omega

/-- A shortfall: the quotient rounds towards zero. -/
theorem nAddrs_of_lt (h : hdrLen m ptr + cmprE m ptr < 24 + padLen m ptr) :
    (nAddrs m ptr : Int) =
      (1 - (((24 + padLen m ptr - (hdrLen m ptr + cmprE m ptr)) / (16 - cmprI m ptr) : Nat) :
        Int)) % 2 ^ 32 := by
  have hI := cmprI_lt m ptr
  have hdiff : (hdrLen m ptr : Int) - 8 - padLen m ptr - (16 - cmprE m ptr) =
      -((24 + padLen m ptr - (hdrLen m ptr + cmprE m ptr) : Nat) : Int) := by omega
  have hstep : (16 : Int) - cmprI m ptr = ((16 - cmprI m ptr : Nat) : Int) := by omega
  rw [nAddrs, hdiff, hstep, Int.neg_tdiv, ← Int.ofNat_tdiv]
  omega

/-- **The count fits exactly when the header is not too short for it.** -/
theorem addressesFit_iff : AddressesFit m ptr ↔ CountSound m ptr := by
  have hI := cmprI_lt m ptr
  have hE := cmprE_lt m ptr
  have hpad := padLen_lt m ptr
  have hlen := hdrLen_le m ptr
  have hpos := hdrLen_pos m ptr
  unfold AddressesFit CountSound
  by_cases hshort : 24 + padLen m ptr ≤ hdrLen m ptr + cmprE m ptr
  · have hn := nAddrs_of_le hshort
    have hmul := Nat.div_mul_le_self (hdrLen m ptr + cmprE m ptr - (24 + padLen m ptr))
      (16 - cmprI m ptr)
    refine iff_of_true (Or.inr ?_) (Or.inl hshort)
    rw [hn, Nat.add_sub_cancel]
    omega
  · have hn := nAddrs_of_lt (by omega : hdrLen m ptr + cmprE m ptr < 24 + padLen m ptr)
    generalize hdiff : 24 + padLen m ptr - (hdrLen m ptr + cmprE m ptr) = short at hn
    have hdiv := Nat.div_add_mod short (16 - cmprI m ptr)
    have hmod := Nat.mod_lt short (by omega : 0 < 16 - cmprI m ptr)
    rcases Nat.lt_or_ge short (16 - cmprI m ptr) with hlt | hge
    · have hzero := Nat.div_eq_of_lt hlt
      rw [hzero] at hn
      have hone : nAddrs m ptr = 1 := by omega
      rw [hone]
      omega
    · rcases Nat.lt_or_ge short (2 * (16 - cmprI m ptr)) with hlt2 | hge2
      · have hquot : short / (16 - cmprI m ptr) = 1 :=
          Nat.div_eq_of_lt_le (by omega) (by omega)
        rw [hquot] at hn
        omega
      · have hquot : 2 ≤ short / (16 - cmprI m ptr) :=
          (Nat.le_div_iff_mul_le (by omega)).mpr hge2
        have hself := Nat.div_le_self short (16 - cmprI m ptr)
        have hlarge : 4096 ≤ nAddrs m ptr - 1 := by omega
        have hmul := Nat.mul_le_mul hlarge (by omega : 1 ≤ 16 - cmprI m ptr)
        omega

/-! ## Staying inside -/

theorem inHeader_of_header {a : Nat} (h : ptr ≤ a) (hlt : a < ptr + hdrLen m ptr) :
    inHeader m ptr a = true := decide_eq_true (Or.inl ⟨h, hlt⟩)

theorem inHeader_of_dst {a : Nat} (h : 24 ≤ a) (hlt : a < 40) : inHeader m ptr a = true :=
  decide_eq_true (Or.inr ⟨h, hlt⟩)

/-- The addresses the loop search forms, from `Address[i]` on. -/
def laterAddresses (m : Store) (cmprI cmprE : Nat) : Nat → Nat → List UInt8 → List (List UInt8)
  | 0, _, _ => []
  | left + 1, a, addr =>
      let cpr := if left = 0 then cmprE else cmprI
      let addr := addr.take cpr ++ bytes m a (16 - cpr)
      addr :: laterAddresses m cmprI cmprE left (a + (16 - cpr)) addr

/-- The bytes of the last `left` addresses. -/
def restLen (I E : Nat) : Nat → Nat
  | 0 => 0
  | left + 1 => (16 - if left = 0 then E else I) + restLen I E left

theorem restLen_succ (I E left : Nat) :
    restLen I E (left + 1) = left * (16 - I) + (16 - E) := by
  induction left with
  | zero => simp [restLen]
  | succ left ih =>
      rw [restLen, ih, if_neg (Nat.succ_ne_zero left), Nat.succ_mul]
      omega

/-- The loop search reads the rest of the addresses and changes nothing; it finds a
loop only where one of them is local. -/
theorem ends_findLoop {I E left a : Nat} {addr : List UInt8} {prev : Bool} {t : Store}
    (hok : ∀ x, a ≤ x → x < a + restLen I E left → ok x = true) :
    Ends (findLoop node ok I E left a addr prev) t fun r t' =>
      t' = t ∧ (r = true → ∃ x ∈ laterAddresses t I E left a addr, node.isLocal x = true) := by
  induction left generalizing a addr prev with
  | zero => simp [findLoop]
  | succ left ih =>
      rw [findLoop, ends_bind, ends_loads, laterAddresses]
      rw [restLen] at hok
      generalize (if left = 0 then E else I) = cpr at *
      refine ⟨fun i hi => hok (a + i) (by omega) (by omega), ?_⟩
      dsimp only
      split
      case isTrue hloop =>
        refine ends_pure.mpr ⟨rfl, fun _ => ⟨_, List.mem_cons_self, ?_⟩⟩
        exact (Bool.and_eq_true_iff.mp hloop).1
      case isFalse =>
        refine Ends.mono (ih fun x hx hlt => hok x (by omega) (by omega)) ?_
        rintro r t' ⟨hsame, hlocal⟩
        refine ⟨hsame, fun hr => ?_⟩
        obtain ⟨x, hx, hxlocal⟩ := hlocal hr
        exact ⟨x, List.mem_cons_of_mem _ hx, hxlocal⟩

theorem ends_routeLoops {I E n i aptr : Nat} {t : Store}
    (hdst : ∀ x, 24 ≤ x → x < 40 → ok x = true)
    (hok : ∀ x, aptr ≤ x → x < aptr + restLen I E (n + 1 - i) → ok x = true) :
    Ends (routeLoops node ok I E n i aptr) t fun r t' =>
      t' = t ∧ (r = true →
        ∃ x ∈ laterAddresses t I E (n + 1 - i) aptr (bytes t 24 16), node.isLocal x = true) := by
  unfold routeLoops
  split
  · rw [ends_bind, ends_loads]
    exact ⟨fun j hj => hdst (24 + j) (by omega) (by omega), ends_findLoop hok⟩
  · simp

theorem ends_nextIsMulticast {cmpr aptr : Nat} {t : Store} (hok : ok aptr = true) :
    Ends (nextIsMulticast ok cmpr aptr) t fun r t' =>
      t' = t ∧ r = (decide (cmpr = 0) && t aptr == 0xff) := by
  unfold nextIsMulticast
  split
  case isTrue h =>
    rw [ends_bind, ends_load, ends_pure]
    exact ⟨hok, rfl, by simp [h]⟩
  case isFalse h => simp [h]

/-- The exchange, for an entry behind the IPv6 header. -/
theorem ends_advance {cmpr aptr : Nat} {t : Store} (hptr : 40 ≤ aptr) (hcmpr : cmpr ≤ 16)
    (hdst : ∀ x, 24 ≤ x → x < 40 → ok x = true)
    (hok : ∀ x, aptr ≤ x → x < aptr + (16 - cmpr) → ok x = true) :
    Ends (advance node ok cmpr aptr) t fun r t' =>
      t' = swapped t (24 + cmpr) aptr (16 - cmpr) ∧
        r = if node.routeTo (bytes t' 24 16) then .forward (bytes t' 24 16)
          else .unreachable := by
  rw [advance, ends_bind]
  refine ends_memswap (fun i hi => hdst _ (by omega) (by omega))
    (fun i hi => hok _ (by omega) (by omega)) (by omega) ?_
  rw [ends_bind, ends_loads, ends_pure]
  exact ⟨fun i hi => hdst _ (by omega) (by omega), rfl, rfl⟩

/-- A visit either does not forward the packet, for a multicast address or a later local
one, or exchanges the destination with `Address[i]`. -/
theorem ends_visit {I E n i aptr : Nat} {t : Store} (hi : i ≤ n) (hE : E < 16) (hI : I < 16)
    (hptr : 40 ≤ aptr) (hdst : ∀ x, 24 ≤ x → x < 40 → ok x = true)
    (hok : ∀ x, aptr ≤ x → x < aptr + restLen I E (n + 1 - i) → ok x = true) :
    Ends (visit node ok I E n i aptr) t fun r t' =>
      ((∀ d, r ≠ .forward d) ∧ (((if i = n then E else I) = 0 ∧ t aptr = 0xff) ∨
        ∃ x ∈ laterAddresses t I E (n + 1 - i) aptr (bytes t 24 16), node.isLocal x = true)) ∨
      (¬((if i = n then E else I) = 0 ∧ t aptr = 0xff) ∧
        t' = swapped t (24 + if i = n then E else I) aptr (16 - if i = n then E else I) ∧
        r = if node.routeTo (bytes t' 24 16) then .forward (bytes t' 24 16)
          else .unreachable) := by
  have hsize : 0 < 16 - (if i = n then E else I) ∧
      16 - (if i = n then E else I) ≤ restLen I E (n + 1 - i) := by
    obtain ⟨left, hleft⟩ : ∃ left, n + 1 - i = left + 1 := ⟨n - i, by omega⟩
    have hlast : left = 0 ↔ i = n := by omega
    rw [hleft, restLen]
    simp only [hlast]
    split <;> omega
  obtain ⟨hpos, hle⟩ := hsize
  rw [visit, ends_bind]
  generalize (if i = n then E else I) = cmpr at *
  refine (ends_nextIsMulticast (hok aptr (by omega) (by omega))).mono ?_
  rintro refused t₁ ⟨hsame₁, hrefused⟩
  subst t₁
  split
  case isTrue h =>
    rw [ends_pure]
    refine Or.inl ⟨(fun d hd => by cases hd), Or.inl ?_⟩
    simpa [h] using hrefused.symm
  case isFalse hnotrefused =>
  have hunicast : ¬(cmpr = 0 ∧ t aptr = 0xff) := by
    simpa [hnotrefused] using hrefused
  rw [ends_bind]
  refine (ends_routeLoops hdst hok).mono ?_
  rintro loops t₂ ⟨hsame₂, hloops⟩
  subst t₂
  split
  case isTrue h =>
    rw [ends_pure]
    exact Or.inl ⟨(fun d hd => by cases hd), Or.inr (hloops h)⟩
  refine (ends_advance hptr (by omega) hdst fun x hx hlt => hok x hx (by omega)).mono ?_
  exact fun r t' hadvanced => Or.inr ⟨hunicast, hadvanced⟩

/-- The entry visited and all later ones lie inside a header whose count fits. -/
theorem entry_inside {I E n i H : Nat} (hfit : 8 + (n - 1) * (16 - I) + (16 - E) ≤ H)
    (hpos : 1 ≤ i) (hi : i ≤ n) :
    8 + (i - 1) * (16 - I) + restLen I E (n + 1 - i) ≤ H := by
  obtain ⟨left, rfl⟩ : ∃ left, n = i + left := ⟨n - i, by omega⟩
  have hleft : i + left + 1 - i = left + 1 := by omega
  have hsum : i + left - 1 = (i - 1) + left := by omega
  rw [hsum, Nat.add_mul] at hfit
  rw [hleft, restLen_succ]
  omega

/-- The routing header at `ptr` was checked against the length of the packet. -/
structure Checked (m : Store) (ptr len : Nat) : Prop where
  behind : 40 ≤ ptr
  inside : ptr + hdrLen m ptr ≤ len
  length : len < 2 ^ 16

theorem inHeader_field {i : Nat} (h : i < 8) : inHeader m ptr (ptr + i) = true := by
  have hpos := hdrLen_pos m ptr
  exact inHeader_of_header (by omega) (by omega)

/-- The visit of a header whose count fits stays inside it. -/
theorem ends_nextSegment {dstSa : List UInt8} {len n segs : Nat} {t : Store}
    (hchecked : Checked m ptr len) (hpos : segs ≠ 0)
    (hfit : n ≠ 0 → 8 + (n - 1) * (16 - cmprI m ptr) + (16 - cmprE m ptr) ≤ hdrLen m ptr) :
    Ends (nextSegment node (inHeader m ptr) dstSa ptr segs (cmprI m ptr) (cmprE m ptr) n) t
      fun _ _ => True := by
  have hI := cmprI_lt m ptr
  have hE := cmprE_lt m ptr
  have hlen := hchecked.length
  have hbehind := hchecked.behind
  have hinside := hchecked.inside
  unfold nextSegment
  split
  case isTrue => exact ends_pure.mpr trivial
  case isFalse hle =>
    rw [ends_bind, ends_save]
    refine ⟨inHeader_field (by decide), ?_⟩
    split
    case isTrue => exact ends_pure.mpr trivial
    case isFalse =>
      have hentry := entry_inside (hfit (by omega)) (by omega : 1 ≤ n - (segs - 1))
        (Nat.sub_le n (segs - 1))
      have hnowrap : (ptr + 8 + (n - (segs - 1) - 1) * (16 - cmprI m ptr)) % 2 ^ 32 =
          ptr + 8 + (n - (segs - 1) - 1) * (16 - cmprI m ptr) := Nat.mod_eq_of_lt (by omega)
      dsimp only
      rw [hnowrap]
      refine (ends_visit (Nat.sub_le n (segs - 1)) hE hI (by omega)
        (fun x hx hlt => inHeader_of_dst hx hlt)
        (fun x hx hlt => inHeader_of_header (by omega) (by omega))).mono ?_
      exact fun _ _ _ => trivial

/-- What is asked of the processing of one header: the addresses it counts fit inside
the header, and it touches only the header and the IPv6 destination. -/
def Bounded (node : Node) (dstSa : List UInt8) (m : Store) (ptr : Nat) : Prop :=
  (node.rplDomain = true → segsLeft m ptr ≠ 0 → AddressesFit m ptr) ∧
    Ends (rpl_data_process_routing_header node (inHeader m ptr) dstSa ptr) m fun _ _ => True

/-- The headers that are processed inside their bounds. -/
def Sound (node : Node) (m : Store) (ptr : Nat) : Prop :=
  node.rplDomain = false ∨ segsLeft m ptr = 0 ∨ CountSound m ptr

/-- **Processing a checked routing header stays inside it exactly when its count is
sound.** -/
theorem process_inside_iff {dstSa : List UInt8} {len : Nat} (hchecked : Checked m ptr len) :
    Bounded node dstSa m ptr ↔ Sound node m ptr := by
  constructor
  · rintro ⟨hfit, -⟩
    cases hdomain : node.rplDomain with
    | false => exact Or.inl hdomain
    | true =>
        by_cases hsegs : segsLeft m ptr = 0
        · exact Or.inr (Or.inl hsegs)
        · exact Or.inr (Or.inr (addressesFit_iff.mp (hfit hdomain hsegs)))
  · intro hsound
    have hfit : node.rplDomain = true → segsLeft m ptr ≠ 0 → AddressesFit m ptr := by
      intro hdomain hsegs
      rcases hsound with hno | hzero | hcount
      · rw [hdomain] at hno
        cases hno
      · exact absurd hzero hsegs
      · exact addressesFit_iff.mpr hcount
    refine ⟨hfit, ?_⟩
    unfold rpl_data_process_routing_header
    split
    case isFalse => exact ends_pure.mpr trivial
    case isTrue hdomain =>
      simp only [ends_bind, ends_get, ends_load]
      refine ⟨inHeader_field (by decide), inHeader_field (by decide), ?_⟩
      split
      case isTrue => exact ends_pure.mpr trivial
      case isFalse hsegs =>
        simp only [ends_bind, ends_load]
        refine ⟨inHeader_field (by decide), inHeader_field (by decide), ?_⟩
        refine ends_nextSegment hchecked hsegs fun hn => ?_
        exact (hfit hdomain hsegs).resolve_left hn

end RoutingHeader
