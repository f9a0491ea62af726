import WisunModem.RoutingHeader

/-!
# Source routes

The root keeps the route to a target as a table of intermediate addresses, built
backwards from the final destination.  `rpl_data_sr_write_header` turns it into a
routing header in which each address drops the bytes it shares with the first hop
(`CmprI`), the last one those it shares with the address before it (`CmprE`).

Every node on the way swaps the destination with the next entry.  A `Route` is what
the header stands for, `Stage` the invariant of the packet after some of the hops,
and `followed_iff` says which routes are followed to their end.
-/

namespace SourceRoute

open ByteStore GuardedStore Exec RoutingHeader

/-! ## The table -/

/-- An IPv6 address. -/
abbrev Addr := {a : List UInt8 // a.length = 16}

/-- `rpl_data_sr` once it is computed; `iaddr` is built backwards and `ihops` is its length. -/
structure Table where
  finalDest : Addr
  iaddr : List Addr
  hops_lt : iaddr.length < 2 ^ 8

namespace Table

/-- The addresses from `final_dest` on, which lie side by side. -/
def entry (t : Table) : Nat → List UInt8
  | 0 => t.finalDest.val
  | p + 1 => (t.iaddr.getD p t.finalDest).val

/-- The `k`-th address on the way; the first hop is number 0. -/
def hop (t : Table) (k : Nat) : List UInt8 := t.entry (t.iaddr.length - k)

theorem length_entry (t : Table) (p : Nat) : (t.entry p).length = 16 := by
  cases p with
  | zero => exact t.finalDest.property
  | succ p => exact (t.iaddr.getD p t.finalDest).property

theorem length_hop (t : Table) (k : Nat) : (t.hop k).length = 16 := t.length_entry _

end Table

/-! ## The size of the header -/

/-- The number of leading bytes that agree, at most `len`. -/
def rpl_data_matching_addr_bytes : List UInt8 → List UInt8 → Nat → Nat
  | x :: xs, y :: ys, len + 1 =>
      if x = y then rpl_data_matching_addr_bytes xs ys len + 1 else 0
  | _, _, _ => 0

/-- The scan of all addresses but the last against the first hop. -/
def scanCmprI (t : Table) : Nat → Nat → Nat → Nat
  | 0, _, cmprI => cmprI
  | n + 1, p, cmprI =>
      scanCmprI t n (p - 1)
        (rpl_data_matching_addr_bytes (t.entry p) (t.entry t.iaddr.length) cmprI)

/-- `cmprI` of a header of `segments` addresses. -/
def tableCmprI (t : Table) (segments : Nat) : Nat :=
  scanCmprI t (segments - 1) (t.iaddr.length - 1) 15

/-- `cmprE`: the last address against the one before it. -/
def tableCmprE (t : Table) (segments : Nat) : Nat :=
  rpl_data_matching_addr_bytes (t.entry (t.iaddr.length - 1 - (segments - 1)))
    (t.entry (t.iaddr.length - 1 - (segments - 1) + 1)) 15

/-- The bytes of the addresses in the header. -/
def addressLen (t : Table) (segments : Nat) : Nat :=
  (16 - tableCmprE t segments) + (16 - tableCmprI t segments) * (segments - 1)

/-- The zero bytes that fill the header up to a multiple of eight. -/
def padOf (total : Nat) : Nat := if total % 8 = 0 then 0 else 8 - total % 8

/-- `rpl_srh_info_t`. -/
structure SrhInfo where
  hlen : Nat
  segments : Nat
  cmprI : Nat
  cmprE : Nat
  pad : Nat
deriving DecidableEq, Repr

/-- The number of hops: `1 + ihops` in eight bits, cut to the hop limit. -/
def hopCount (t : Table) (hopLimit : UInt8) : Nat :=
  min ((1 + t.iaddr.length) % 2 ^ 8) hopLimit.toNat

/-- `NULL` where no header is needed.  The table holds the final destination the
caller passes, which is the one the route was computed for. -/
def rpl_data_sr_compute_header_size (t : Table) (hopLimit : UInt8) : Option SrhInfo :=
  if hopCount t hopLimit ≤ 1 then none
  else
    let segments := hopCount t hopLimit - 1
    let total := addressLen t segments
    some {
      hlen := (total + padOf total) / 8 % 2 ^ 8
      segments := segments
      cmprI := tableCmprI t segments
      cmprE := tableCmprE t segments
      pad := padOf total }

/-! ## Writing the header -/

/-- All addresses but the last, without their first `cmprI` bytes. -/
def innerBytes (t : Table) (cmprI : Nat) : Nat → Nat → List UInt8
  | 0, _ => []
  | n + 1, p => (t.entry p).drop cmprI ++ innerBytes t cmprI n (p - 1)

/-- The fixed part of the header. -/
def fixedBytes (info : SrhInfo) (nh : UInt8) : List UInt8 :=
  [nh, UInt8.ofNat info.hlen, 3, UInt8.ofNat info.segments,
    UInt8.ofNat (info.cmprI * 16 + info.cmprE), UInt8.ofNat (info.pad * 16), 0, 0]

/-- What is written behind each other. -/
def headerBytes (t : Table) (info : SrhInfo) (nh : UInt8) : List UInt8 :=
  fixedBytes info nh ++
    (innerBytes t info.cmprI (info.segments - 1) (t.iaddr.length - 1) ++
      ((t.entry (t.iaddr.length - 1 - (info.segments - 1))).drop info.cmprE ++
        List.replicate info.pad 0))

/-- The packet with the header, and the address behind it. -/
def rpl_data_sr_write_header (t : Table) (info : SrhInfo) (m : Store) (ptr : Nat) (nh : UInt8) :
    Store × Nat :=
  (store m ptr (headerBytes t info nh), ptr + (headerBytes t info nh).length)

/-- `rpl_data_get_srh_last_address` for the header at `rh`; `addr` is what `addr_out`
points to on entry. -/
def rpl_data_get_srh_last_address (m : Store) (rh : Nat) (addr : List UInt8) : List UInt8 :=
  let last := rh + 8 + (m (rh + 1)).toNat * 8 - padLen m rh - (16 - cmprE m rh)
  if segsLeft m rh = 0 then addr else
    let addr :=
      if 1 < segsLeft m rh then
        addr.take (cmprI m rh) ++ bytes m (last - (16 - cmprI m rh)) (16 - cmprI m rh)
      else addr
    addr.take (cmprE m rh) ++ bytes m last (16 - cmprE m rh)

/-! ## Shared bytes -/

theorem matching_le (a b : List UInt8) (len : Nat) :
    rpl_data_matching_addr_bytes a b len ≤ len := by
  fun_induction rpl_data_matching_addr_bytes a b len with
  | case1 => omega
  | case2 => omega
  | case3 => omega

/-- The bytes counted agree. -/
theorem take_matching (a b : List UInt8) (len : Nat) :
    a.take (rpl_data_matching_addr_bytes a b len) =
      b.take (rpl_data_matching_addr_bytes a b len) := by
  fun_induction rpl_data_matching_addr_bytes a b len with
  | case1 xs y ys len ih => simp [ih]
  | case2 => simp
  | case3 => simp

theorem take_of_le {a b : List UInt8} {n k : Nat} (h : a.take n = b.take n) (hle : k ≤ n) :
    a.take k = b.take k := by
  have hk := congrArg (List.take k) h
  rwa [List.take_take, List.take_take, Nat.min_eq_left hle] at hk

theorem scanCmprI_le (t : Table) (n p c : Nat) : scanCmprI t n p c ≤ c := by
  induction n generalizing p c with
  | zero => exact le_rfl
  | succ n ih => exact (ih ..).trans (matching_le ..)

/-- All the addresses scanned share the bytes left over with the first hop. -/
theorem take_scanCmprI (t : Table) (n p c i : Nat) (hi : i < n) :
    (t.entry (p - i)).take (scanCmprI t n p c) =
      (t.entry t.iaddr.length).take (scanCmprI t n p c) := by
  induction n generalizing p c i with
  | zero => omega
  | succ n ih =>
      rw [scanCmprI]
      cases i with
      | zero => exact take_of_le (take_matching ..) (scanCmprI_le ..)
      | succ i =>
          have hpos : p - (i + 1) = p - 1 - i := by omega
          rw [hpos]
          exact ih (p - 1) _ i (by omega)

/-! ## Routes -/

/-- What a routing header stands for: `n` addresses behind the first hop, of which all
but the last share `I` bytes with the first hop and the last `E` with the one before. -/
structure Route where
  n : Nat
  I : Nat
  E : Nat
  pad : Nat
  hop : Nat → List UInt8
  length_hop : ∀ k, (hop k).length = 16
  pos : 0 < n
  n_lt : n < 2 ^ 8
  I_lt : I < 16
  E_lt : E < 16
  inner : ∀ k, k < n → (hop k).take I = (hop 0).take I
  outer : (hop n).take E = (hop (n - 1)).take E
  length_le : 8 + (n - 1) * (16 - I) + (16 - E) + pad ≤ 2048

namespace Route

variable (r : Route)

/-- The bytes of the header. -/
def len : Nat := 8 + (r.n - 1) * (16 - r.I) + (16 - r.E) + r.pad

/-- The bytes entry `j` leaves out. -/
def cmpr (j : Nat) : Nat := if j = r.n then r.E else r.I

/-- Where entry `j` lies in the header. -/
def offset (j : Nat) : Nat := 8 + (j - 1) * (16 - r.I)

theorem cmpr_lt (j : Nat) : r.cmpr j < 16 := by
  unfold cmpr
  split
  · exact r.E_lt
  · exact r.I_lt

/-- The bytes an entry leaves out are those of the address before it. -/
theorem take_hop {k : Nat} (hk : k < r.n) :
    (r.hop k).take (r.cmpr (k + 1)) = (r.hop (k + 1)).take (r.cmpr (k + 1)) := by
  unfold cmpr
  split
  case isTrue hlast =>
    have hprev : k = r.n - 1 := by omega
    rw [hlast, hprev, r.outer]
  case isFalse hinner => rw [r.inner k hk, r.inner (k + 1) (by omega)]

/-- The entry completes the address before it. -/
theorem hop_succ {k : Nat} (hk : k < r.n) :
    (r.hop k).take (r.cmpr (k + 1)) ++ (r.hop (k + 1)).drop (r.cmpr (k + 1)) = r.hop (k + 1) := by
  rw [r.take_hop hk, List.take_append_drop]

/-- An entry ends where the next one starts. -/
theorem offset_succ {j : Nat} (hpos : 0 < j) (hj : j < r.n) :
    r.offset j + (16 - r.cmpr j) = r.offset (j + 1) := by
  obtain ⟨i, rfl⟩ : ∃ i, j = i + 1 := ⟨j - 1, by omega⟩
  have hI : r.cmpr (i + 1) = r.I := if_neg (by omega)
  simp only [offset, hI, Nat.add_sub_cancel, Nat.succ_mul]
  omega

theorem offset_mono {i j : Nat} (h : i ≤ j) : r.offset i ≤ r.offset j := by
  have hmul : (i - 1) * (16 - r.I) ≤ (j - 1) * (16 - r.I) := Nat.mul_le_mul_right _ (by omega)
  unfold offset
  omega

/-- The last entry ends where the pad starts. -/
theorem offset_last : r.offset r.n + (16 - r.cmpr r.n) + r.pad = r.len := by
  have hE : r.cmpr r.n = r.E := if_pos rfl
  simp only [offset, hE, len]

/-- All entries lie inside the header. -/
theorem offset_le {j : Nat} (hpos : 0 < j) (hj : j ≤ r.n) :
    r.offset j + (16 - r.cmpr j) ≤ r.len := by
  have hlast := r.offset_last
  rcases Nat.lt_or_eq_of_le hj with hlt | rfl
  · have hnext := r.offset_succ hpos hlt
    have hmono := r.offset_mono (by omega : j + 1 ≤ r.n)
    omega
  · omega

end Route

/-! ## The packet on its way -/

/-- The entries behind hop `k` are in place. -/
def Entries (r : Route) (ptr k : Nat) (m : Store) : Prop :=
  ∀ j, k < j → j ≤ r.n → bytes m (ptr + r.offset j) (16 - r.cmpr j) = (r.hop j).drop (r.cmpr j)

/-- The loop search forms the hops still to come. -/
theorem Entries.laterAddresses {r : Route} {ptr k : Nat} {m : Store} (h : Entries r ptr k m)
    {left i : Nat} (hleft : i + left = r.n) (hi : k ≤ i) {x : List UInt8}
    (hx : x ∈ laterAddresses m r.I r.E left (ptr + r.offset (i + 1)) (r.hop i)) :
    ∃ j, i < j ∧ j ≤ r.n ∧ x = r.hop j := by
  induction left generalizing i with
  | zero => cases hx
  | succ left ih =>
      have hcmpr : (if left = 0 then r.E else r.I) = r.cmpr (i + 1) := by
        have hlast : left = 0 ↔ i + 1 = r.n := by omega
        simp only [hlast, Route.cmpr]
      rw [RoutingHeader.laterAddresses, hcmpr, h (i + 1) (by omega) (by omega),
        r.hop_succ (by omega), List.mem_cons] at hx
      rcases hx with rfl | hx
      · exact ⟨i + 1, by omega, by omega, rfl⟩
      · rcases Nat.eq_zero_or_pos left with rfl | hpos
        · cases hx
        · have hnext := r.offset_succ (by omega : 0 < i + 1) (by omega)
          rw [Nat.add_assoc, hnext] at hx
          obtain ⟨j, hj, hle, rfl⟩ := ih (by omega) (by omega) hx
          exact ⟨j, by omega, hle, rfl⟩

/-- The packet after `k` hops: the header announces what the route does, the destination
is hop `k`, and the entries still to come are in place. -/
structure Stage (r : Route) (ptr k : Nat) (m : Store) : Prop where
  hops_le : k ≤ r.n
  hdrLen_eq : hdrLen m ptr = r.len
  segs_eq : segsLeft m ptr = r.n - k
  cmprI_eq : cmprI m ptr = r.I
  cmprE_eq : cmprE m ptr = r.E
  padLen_eq : padLen m ptr = r.pad
  dst : bytes m 24 16 = r.hop k
  entries : Entries r ptr k m

namespace Stage

variable {r : Route} {ptr k : Nat} {m : Store}

/-- The stage is one of the header and the destination only. -/
theorem congr {m' : Store} (h : Stage r ptr k m) (hsame : ∀ a, inHeader m ptr a = true → m' a = m a) :
    Stage r ptr k m' := by
  have hlen := h.hdrLen_eq
  have hfield : ∀ i, i < 8 → m' (ptr + i) = m (ptr + i) := fun i hi =>
    hsame _ (inHeader_field hi)
  refine ⟨h.hops_le, ?_, ?_, ?_, ?_, ?_, ?_, fun j hk hj => ?_⟩
  · rw [hdrLen, hfield 1 (by decide)]
    exact hlen
  · rw [segsLeft, hfield 3 (by decide)]
    exact h.segs_eq
  · rw [cmprI, hfield 4 (by decide)]
    exact h.cmprI_eq
  · rw [cmprE, hfield 4 (by decide)]
    exact h.cmprE_eq
  · rw [padLen, hfield 5 (by decide)]
    exact h.padLen_eq
  · rw [← h.dst]
    exact bytes_congr fun i hi => hsame _ (inHeader_of_dst (by omega) (by omega))
  · rw [← h.entries j hk hj]
    have hle := r.offset_le (by omega) hj
    exact bytes_congr fun i hi => hsame _ (inHeader_of_header (by omega) (by omega))

/-- The header counts the addresses of the route. -/
theorem nAddrs_eq (h : Stage r ptr k m) : nAddrs m ptr = r.n := by
  have hlen := h.hdrLen_eq
  have hI := h.cmprI_eq
  have hE := h.cmprE_eq
  have hpad := h.padLen_eq
  have hEl := r.E_lt
  have hIl := r.I_lt
  have hpos := r.pos
  have hdef : r.len = 8 + (r.n - 1) * (16 - r.I) + (16 - r.E) + r.pad := rfl
  have hroom : 24 + padLen m ptr ≤ hdrLen m ptr + cmprE m ptr := by omega
  have hdiff : hdrLen m ptr + cmprE m ptr - (24 + padLen m ptr) = (r.n - 1) * (16 - r.I) := by
    omega
  rw [nAddrs_of_le hroom, hdiff, hI, Nat.mul_div_cancel _ (by omega)]
  omega

/-- `rpl_data_get_srh_last_address` gives the last hop at every stage. -/
theorem last_address (h : Stage r ptr k m) :
    rpl_data_get_srh_last_address m ptr (bytes m 24 16) = r.hop r.n := by
  have hlen := h.hdrLen_eq
  have hE := r.E_lt
  have hI := r.I_lt
  have hk := h.hops_le
  have hdef : r.len = 8 + (r.n - 1) * (16 - r.I) + (16 - r.E) + r.pad := rfl
  have hoff : r.offset r.n = 8 + (r.n - 1) * (16 - r.I) := rfl
  have hcE : r.cmpr r.n = r.E := if_pos rfl
  have hlast : ptr + 8 + (m (ptr + 1)).toNat * 8 - padLen m ptr - (16 - cmprE m ptr) =
      ptr + r.offset r.n := by
    rw [h.padLen_eq, h.cmprE_eq]
    unfold hdrLen at hlen
    omega
  unfold rpl_data_get_srh_last_address
  dsimp only
  rw [hlast, h.segs_eq, h.cmprI_eq, h.cmprE_eq, h.dst]
  split
  case isTrue hzero =>
    have hn : k = r.n := by omega
    rw [hn]
  case isFalse hsegs =>
    have hentry := h.entries r.n (by omega) le_rfl
    rw [hcE] at hentry
    have hend := r.hop_succ (by omega : r.n - 1 < r.n)
    rw [Nat.sub_add_cancel r.pos, hcE] at hend
    have hprev : (if 1 < r.n - k then
        (r.hop k).take r.I ++ bytes m (ptr + r.offset r.n - (16 - r.I)) (16 - r.I)
        else r.hop k) = r.hop (r.n - 1) := by
      split
      case isTrue hmore =>
        have hcI : r.cmpr (r.n - 1) = r.I := if_neg (by omega)
        have hnext := r.offset_succ (by omega : 0 < r.n - 1) (by omega)
        rw [Nat.sub_add_cancel r.pos, hcI] at hnext
        have hbefore : ptr + r.offset r.n - (16 - r.I) = ptr + r.offset (r.n - 1) := by omega
        have hentry' := h.entries (r.n - 1) (by omega) (by omega)
        rw [hcI] at hentry'
        rw [hbefore, hentry', r.inner k (by omega), ← r.inner (r.n - 1) (by omega),
          List.take_append_drop]
      case isFalse hone =>
        have hk' : k = r.n - 1 := by omega
        rw [hk']
    rw [hprev, hentry, hend]

end Stage

/-! ## One hop -/

theorem isMulticast_iff (a : List UInt8) : isMulticast a = true ↔ a.head? = some 0xff := by
  simp [isMulticast]

theorem head_bytes (m : Store) (a n : Nat) : (bytes m a (n + 1)).head? = some (m a) := by
  rw [Nat.add_comm, bytes_append]
  rfl

/-- Addresses that share bytes are both multicast or both not. -/
theorem isMulticast_congr {a b : List UInt8} {n : Nat} (hpos : 0 < n) (h : a.take n = b.take n) :
    isMulticast a = isMulticast b := by
  have hhead : (a.take n).head? = (b.take n).head? := by rw [h]
  rw [List.head?_take, List.head?_take, if_neg (by omega), if_neg (by omega)] at hhead
  rw [isMulticast, isMulticast, hhead]

namespace Stage

variable {r : Route} {ptr k : Nat} {m : Store}

/-- After the exchange the packet is one hop further. -/
theorem swap (h : Stage r ptr k m) (hptr : 40 ≤ ptr) (hk : k < r.n) :
    Stage r ptr (k + 1) (swapped (store m (ptr + 3) [UInt8.ofNat (r.n - k - 1)])
      (24 + r.cmpr (k + 1)) (ptr + r.offset (k + 1)) (16 - r.cmpr (k + 1))) := by
  have hc := r.cmpr_lt (k + 1)
  have hn := r.n_lt
  have hoff : 8 ≤ r.offset (k + 1) := by
    unfold Route.offset
    omega
  have hout : ∀ a, (a < 24 + r.cmpr (k + 1) ∨ 40 ≤ a) →
      (a < ptr + r.offset (k + 1) ∨ ptr + r.offset (k + 1) + (16 - r.cmpr (k + 1)) ≤ a) →
      a ≠ ptr + 3 →
      swapped (store m (ptr + 3) [UInt8.ofNat (r.n - k - 1)]) (24 + r.cmpr (k + 1))
        (ptr + r.offset (k + 1)) (16 - r.cmpr (k + 1)) a = m a := by
    intro a hdst hentry hseg
    rw [swapped_apart (by omega) hentry, store_apart]
    simp only [List.length_cons, List.length_nil]
    omega
  have hentry := h.entries (k + 1) (by omega) (by omega)
  refine ⟨hk, ?_, ?_, ?_, ?_, ?_, ?_, fun j hj hle => ?_⟩
  · rw [hdrLen, hout _ (by omega) (by omega) (by omega)]
    exact h.hdrLen_eq
  · rw [segsLeft, swapped_apart (by omega) (by omega)]
    have hbyte : store m (ptr + 3) [UInt8.ofNat (r.n - k - 1)] (ptr + 3) =
        UInt8.ofNat (r.n - k - 1) := ((holds_cons ..).mp (holds_store ..)).1
    rw [hbyte, UInt8.toNat_ofNat']
    omega
  · rw [cmprI, hout _ (by omega) (by omega) (by omega)]
    exact h.cmprI_eq
  · rw [cmprE, hout _ (by omega) (by omega) (by omega)]
    exact h.cmprE_eq
  · rw [padLen, hout _ (by omega) (by omega) (by omega)]
    exact h.padLen_eq
  · have hsplit : 16 = r.cmpr (k + 1) + (16 - r.cmpr (k + 1)) := by omega
    rw [← r.hop_succ hk, hsplit, bytes_append, ← hsplit, bytes_swapped_left]
    refine congrArg₂ _ ?_ ?_
    · have hdst : (r.hop k).take (r.cmpr (k + 1)) = bytes m 24 (r.cmpr (k + 1)) := by
        rw [← h.dst, hsplit, bytes_append, List.take_append_of_le_length (by simp)]
        simp
      rw [hdst]
      exact bytes_congr fun i hi => hout _ (by omega) (by omega) (by omega)
    · rw [← hentry]
      refine bytes_congr fun i hi => store_apart ?_
      simp only [List.length_cons, List.length_nil]
      omega
  · rw [← h.entries j (by omega) hle]
    have hnext := r.offset_succ (by omega : 0 < k + 1) (by omega)
    have hmono := r.offset_mono (by omega : k + 1 + 1 ≤ j)
    exact bytes_congr fun i hi => hout _ (by omega) (by omega) (by omega)

/-- With segments left the header is read and the addresses are counted. -/
theorem ends_process (h : Stage r ptr k m) (hk : k < r.n) {node : Node} {dstSa : List UInt8}
    (hdomain : node.rplDomain = true) {post : Outcome → Store → Prop}
    (hnext : Ends (nextSegment node (inHeader m ptr) dstSa ptr (r.n - k) r.I r.E r.n) m post) :
    Ends (rpl_data_process_routing_header node (inHeader m ptr) dstSa ptr) m post := by
  have hsegs := h.segs_eq
  unfold rpl_data_process_routing_header
  rw [if_pos hdomain]
  simp only [ends_bind, ends_get, ends_load]
  refine ⟨inHeader_field (by decide), inHeader_field (by decide), ?_⟩
  rw [if_neg (by omega)]
  simp only [ends_bind, ends_load]
  refine ⟨inHeader_field (by decide), inHeader_field (by decide), ?_⟩
  rwa [h.nAddrs_eq, hsegs, h.cmprI_eq, h.cmprE_eq]

/-- The last node skips the header. -/
theorem process_last (h : Stage r ptr r.n m) {node : Node} (dstSa : List UInt8)
    (hdomain : node.rplDomain = true) :
    Ends (rpl_data_process_routing_header node (inHeader m ptr) dstSa ptr) m fun o q =>
      o = .skip r.len ∧ q = m := by
  have hsegs := h.segs_eq
  unfold rpl_data_process_routing_header
  rw [if_pos hdomain]
  simp only [ends_bind, ends_get, ends_load]
  refine ⟨inHeader_field (by decide), inHeader_field (by decide), ?_⟩
  rw [if_pos (by omega), ends_pure, h.hdrLen_eq]
  exact ⟨rfl, rfl⟩

/-- A packet that came to a multicast address goes no further. -/
theorem process_multicast (h : Stage r ptr k m) (hk : k < r.n) {node : Node}
    (hdomain : node.rplDomain = true) (hmulticast : isMulticast (r.hop k) = true) :
    Ends (rpl_data_process_routing_header node (inHeader m ptr) (r.hop k) ptr) m fun o _ =>
      ∀ d, o ≠ .forward d := by
  refine h.ends_process hk hdomain ?_
  rw [nextSegment, if_neg (by omega), ends_bind, ends_save]
  refine ⟨inHeader_field (by decide), ?_⟩
  rw [if_pos hmulticast, ends_pure]
  exact fun d hd => by cases hd

/-- **One hop.**  The packet is exchanged for the next stage and forwarded to the next
hop, or it is dropped where that is a multicast address. -/
theorem process (h : Stage r ptr k m) (hptr : 40 ≤ ptr) (hend : ptr + r.len < 2 ^ 16)
    (hk : k < r.n) {node : Node} (hdomain : node.rplDomain = true)
    (hroute : ∀ a, node.routeTo a = true)
    (hlocal : ∀ j, k < j → j ≤ r.n → node.isLocal (r.hop j) = false)
    (hunicast : isMulticast (r.hop k) = false) :
    Ends (rpl_data_process_routing_header node (inHeader m ptr) (r.hop k) ptr) m fun o q =>
      ((∀ d, o ≠ .forward d) ∧ isMulticast (r.hop (k + 1)) = true) ∨
      (o = .forward (r.hop (k + 1)) ∧ isMulticast (r.hop (k + 1)) = false ∧
        Stage r ptr (k + 1) q) := by
  have hsegs := h.segs_eq
  have hlen := h.hdrLen_eq
  have hoff : 8 ≤ r.offset (k + 1) := by
    unfold Route.offset
    omega
  have hc := r.cmpr_lt (k + 1)
  have hle := r.offset_le (by omega : 0 < k + 1) hk
  have hcmpr : (if k + 1 = r.n then r.E else r.I) = r.cmpr (k + 1) := rfl
  refine h.ends_process hk hdomain ?_
  rw [nextSegment, if_neg (by omega), ends_bind, ends_save]
  refine ⟨inHeader_field (by decide), ?_⟩
  rw [if_neg (by simp [hunicast])]
  have hi : r.n - (r.n - k - 1) = k + 1 := by omega
  have haptr : (ptr + 8 + (k + 1 - 1) * (16 - r.I)) % 2 ^ 32 = ptr + r.offset (k + 1) := by
    have hdef : r.offset (k + 1) = 8 + (k + 1 - 1) * (16 - r.I) := rfl
    rw [Nat.mod_eq_of_lt (by omega)]
    omega
  dsimp only
  rw [hi, haptr]
  have hsame : ∀ a, a ≠ ptr + 3 → store m (ptr + 3) [UInt8.ofNat (r.n - k - 1)] a = m a :=
    fun a ha => store_apart (by simp only [List.length_cons, List.length_nil]; omega)
  have hentries : Entries r ptr k (store m (ptr + 3) [UInt8.ofNat (r.n - k - 1)]) := by
    intro j hj hjn
    have hmono := r.offset_mono (by omega : k + 1 ≤ j)
    rw [← h.entries j hj hjn]
    exact bytes_congr fun i hi => hsame _ (by omega)
  have hdst : bytes (store m (ptr + 3) [UInt8.ofNat (r.n - k - 1)]) 24 16 = r.hop k := by
    rw [← h.dst]
    exact bytes_congr fun i hi => hsame _ (by omega)
  have hfirst : r.cmpr (k + 1) = 0 → (r.hop (k + 1)).head? =
      some (store m (ptr + 3) [UInt8.ofNat (r.n - k - 1)] (ptr + r.offset (k + 1))) := by
    intro hzero
    have hentry := hentries (k + 1) (by omega) hk
    rw [hzero, List.drop_zero] at hentry
    rw [← hentry]
    exact head_bytes ..
  have hlater : k + (r.n + 1 - (k + 1)) = r.n := by omega
  have hinside := entry_inside (I := r.I) (E := r.E) (n := r.n) (i := k + 1) (H := r.len)
    (by unfold Route.len; omega) (by omega) hk
  refine (ends_visit (i := k + 1) hk r.E_lt r.I_lt (by omega) (fun x hx hlt => inHeader_of_dst hx hlt)
    (fun x hx hlt => inHeader_of_header (by omega) ?_)).mono ?_
  · have hdef : r.offset (k + 1) = 8 + (k + 1 - 1) * (16 - r.I) := rfl
    omega
  · rintro o q (⟨hstay, hmulticast | ⟨x, hx, hxlocal⟩⟩ | ⟨hgo, rfl, ho⟩)
    · refine Or.inl ⟨hstay, (isMulticast_iff _).mpr ?_⟩
      rw [hcmpr] at hmulticast
      rw [hfirst hmulticast.1, hmulticast.2]
    · rw [hdst] at hx
      obtain ⟨j, hj, hjn, rfl⟩ := hentries.laterAddresses hlater le_rfl hx
      rw [hlocal j hj hjn] at hxlocal
      cases hxlocal
    · rw [hcmpr] at hgo ho ⊢
      have hnext := h.swap hptr hk
      rw [hnext.dst, hroute, if_pos rfl] at ho
      refine Or.inr ⟨ho, ?_, hnext⟩
      rcases Nat.eq_zero_or_pos (r.cmpr (k + 1)) with hzero | hpos
      · rw [isMulticast, hfirst hzero]
        simpa [hzero] using hgo
      · rw [← isMulticast_congr hpos (r.take_hop hk)]
        exact hunicast

end Stage

/-! ## The route of a table -/

theorem padOf_le (total : Nat) : padOf total < 8 ∧ (total + padOf total) % 8 = 0 := by
  unfold padOf
  split <;> omega

theorem tableCmprI_lt (t : Table) (segments : Nat) : tableCmprI t segments < 16 :=
  Nat.lt_succ_of_le (scanCmprI_le ..)

theorem tableCmprE_lt (t : Table) (segments : Nat) : tableCmprE t segments < 16 :=
  Nat.lt_succ_of_le (matching_le ..)

/-- The route that a header of `n` addresses stands for. -/
def Table.route (t : Table) (n : Nat) (hpos : 0 < n) (hn : n ≤ t.iaddr.length)
    (hlen : addressLen t n ≤ 2040) : Route where
  n := n
  I := tableCmprI t n
  E := tableCmprE t n
  pad := padOf (addressLen t n)
  hop := t.hop
  length_hop := t.length_hop
  pos := hpos
  n_lt := lt_of_le_of_lt hn t.hops_lt
  I_lt := tableCmprI_lt t n
  E_lt := tableCmprE_lt t n
  inner := by
    intro k hk
    cases k with
    | zero => rfl
    | succ k =>
        have hpos : t.iaddr.length - (k + 1) = t.iaddr.length - 1 - k := by omega
        rw [Table.hop, hpos]
        exact take_scanCmprI t (n - 1) (t.iaddr.length - 1) 15 k (by omega)
  outer := by
    have hlast : t.iaddr.length - n = t.iaddr.length - 1 - (n - 1) := by omega
    have hprev : t.iaddr.length - (n - 1) = t.iaddr.length - 1 - (n - 1) + 1 := by omega
    rw [Table.hop, Table.hop, hlast, hprev]
    exact take_matching ..
  length_le := by
    have hpad := padOf_le (addressLen t n)
    have hcomm := Nat.mul_comm (n - 1) (16 - tableCmprI t n)
    unfold addressLen at *
    omega

theorem length_innerBytes (t : Table) (c n p : Nat) :
    (innerBytes t c n p).length = n * (16 - c) := by
  induction n generalizing p with
  | zero => simp [innerBytes]
  | succ n ih =>
      rw [innerBytes, List.length_append, List.length_drop, t.length_entry, ih, Nat.succ_mul,
        Nat.add_comm]

/-- The entries of the inner addresses are those written. -/
theorem holds_innerBytes {t : Table} {c n p i a : Nat} {m : Store}
    (h : Holds m a (innerBytes t c n p)) (hi : i < n) :
    bytes m (a + i * (16 - c)) (16 - c) = (t.entry (p - i)).drop c := by
  induction n generalizing p i a with
  | zero => omega
  | succ n ih =>
      rw [innerBytes, holds_append, List.length_drop, t.length_entry] at h
      obtain ⟨hfirst, hrest⟩ := h
      cases i with
      | zero =>
          rw [Holds, List.length_drop, t.length_entry] at hfirst
          simpa using hfirst
      | succ i =>
          have hnext := ih hrest (by omega : i < n)
          have hpos : p - 1 - i = p - (i + 1) := by omega
          rw [hpos] at hnext
          rw [Nat.succ_mul, Nat.add_comm (i * (16 - c)), ← Nat.add_assoc]
          exact hnext

theorem length_headerBytes (t : Table) (info : SrhInfo) (nh : UInt8) :
    (headerBytes t info nh).length =
      8 + (info.segments - 1) * (16 - info.cmprI) + (16 - info.cmprE) + info.pad := by
  simp only [headerBytes, fixedBytes, List.length_append, List.length_cons, List.length_nil,
    length_innerBytes, List.length_drop, t.length_entry, List.length_replicate]
  omega

/-- What `rpl_data_sr_compute_header_size` gives for `n` addresses. -/
def infoOf (t : Table) (n : Nat) : SrhInfo where
  hlen := (addressLen t n + padOf (addressLen t n)) / 8 % 2 ^ 8
  segments := n
  cmprI := tableCmprI t n
  cmprE := tableCmprE t n
  pad := padOf (addressLen t n)

theorem compute_header_size_eq (t : Table) (hopLimit : UInt8) :
    rpl_data_sr_compute_header_size t hopLimit =
      if hopCount t hopLimit ≤ 1 then none else some (infoOf t (hopCount t hopLimit - 1)) := rfl

/-- A packet with the header written and the first hop as its destination is at the
start of the route. -/
theorem stage_start {t : Table} {n ptr : Nat} {nh : UInt8} {m : Store} (hpos : 0 < n)
    (hn : n ≤ t.iaddr.length) (hlen : addressLen t n ≤ 2040)
    (hheader : Holds m ptr (headerBytes t (infoOf t n) nh)) (hdst : bytes m 24 16 = t.hop 0) :
    Stage (t.route n hpos hn hlen) ptr 0 m := by
  have hI := tableCmprI_lt t n
  have hE := tableCmprE_lt t n
  have hpad := padOf_le (addressLen t n)
  have hn8 := t.hops_lt
  have hcomm := Nat.mul_comm (n - 1) (16 - tableCmprI t n)
  have hdef : (t.route n hpos hn hlen).len =
      8 + (n - 1) * (16 - tableCmprI t n) + (16 - tableCmprE t n) + padOf (addressLen t n) := rfl
  have haddr : addressLen t n =
      (16 - tableCmprE t n) + (16 - tableCmprI t n) * (n - 1) := rfl
  rw [headerBytes, holds_append] at hheader
  obtain ⟨hfixed, hentries⟩ := hheader
  simp only [fixedBytes, holds_cons, infoOf, Nat.add_assoc, Nat.reduceAdd] at hfixed
  obtain ⟨-, h1, -, h3, h4, h5, -⟩ := hfixed
  refine ⟨Nat.zero_le n, ?_, ?_, ?_, ?_, ?_, hdst, ?_⟩
  · rw [hdrLen, h1, UInt8.toNat_ofNat', hdef]
    omega
  · rw [segsLeft, h3, UInt8.toNat_ofNat']
    exact Nat.mod_eq_of_lt (by omega)
  · rw [cmprI, h4, UInt8.toNat_ofNat']
    change _ = tableCmprI t n
    omega
  · rw [cmprE, h4, UInt8.toNat_ofNat']
    change _ = tableCmprE t n
    omega
  · rw [padLen, h5, UInt8.toNat_ofNat']
    change _ = padOf (addressLen t n)
    omega
  · rw [holds_append, holds_append] at hentries
    obtain ⟨hinner, hlast, -⟩ := hentries
    intro j hj hjn
    change j ≤ n at hjn
    have hoff : (t.route n hpos hn hlen).offset j = 8 + (j - 1) * (16 - tableCmprI t n) := rfl
    rcases Nat.lt_or_eq_of_le hjn with hlt | rfl
    · have hcmpr : (t.route n hpos hn hlen).cmpr j = tableCmprI t n := if_neg (by
        change ¬j = n
        omega)
      have hentry := holds_innerBytes hinner (by
        change j - 1 < n - 1
        omega)
      have hhop : t.iaddr.length - 1 - (j - 1) = t.iaddr.length - j := by omega
      rw [hhop, Nat.add_assoc] at hentry
      rw [hcmpr, hoff]
      exact hentry
    · have hcmpr : (t.route j hpos hn hlen).cmpr j = tableCmprE t j := if_pos rfl
      have hhop : t.iaddr.length - 1 - (j - 1) = t.iaddr.length - j := by omega
      simp only [infoOf] at hlast
      rw [Holds, length_innerBytes, List.length_drop, t.length_entry, hhop, Nat.add_assoc] at hlast
      rw [hcmpr, hoff]
      exact hlast

end SourceRoute
