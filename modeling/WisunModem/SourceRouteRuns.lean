import WisunModem.SourceRoute

/-!
# Following a source route

A packet leaves the root with the header written and the first hop as its IPv6
destination, and each node processes the header and sends the packet on.  `Followed`
is that it goes over all the computed addresses to the last of them, and
`followed_iff` gives the routes for which it does.
-/

namespace SourceRoute

open ByteStore GuardedStore Exec RoutingHeader

/-- The number of addresses a header has to list: those behind the first hop, as far as
the hop limit goes. -/
def listed (t : Table) (hopLimit : UInt8) : Nat := min (t.iaddr.length + 1) hopLimit.toNat - 1

/-- The node hop `k` leads to: it is in the RPL domain and can send to the next hop, and
no address still to come is one of its own. -/
structure Serves (t : Table) (n k : Nat) (node : Node) : Prop where
  domain : node.rplDomain = true
  route : ∀ a, node.routeTo a = true
  notLocal : ∀ j, k < j → j ≤ n → node.isLocal (t.hop j) = false

/-- The packets that have made `k` hops.  On its way a packet may change, but not in the
routing header and the destination. -/
inductive Travels (t : Table) (info : SrhInfo) (ptr : Nat) (nh : UInt8) (nodes : Nat → Node) :
    Nat → Store → Prop
  | start {m p : Store}
      (hwritten : ∀ a, ptr ≤ a → a < (rpl_data_sr_write_header t info m ptr nh).2 →
        p a = (rpl_data_sr_write_header t info m ptr nh).1 a)
      (hdst : bytes p 24 16 = t.hop 0) : Travels t info ptr nh nodes 0 p
  | hop {k : Nat} {p q q' : Store} {d : List UInt8} (hp : Travels t info ptr nh nodes k p)
      (hrun : (rpl_data_process_routing_header (nodes k) (inHeader p ptr) (bytes p 24 16)
        ptr).run p = .ok (.forward d, q))
      (hsame : ∀ a, inHeader q ptr a = true → q' a = q a) :
      Travels t info ptr nh nodes (k + 1) q'

/-- A packet after `k` hops is at hop `k` of `n`, it still leads to hop `n`, and its node
sends it to the next hop, or at the last one skips the header. -/
structure OnRoute (t : Table) (n ptr len : Nat) (node : Node) (k : Nat) (p : Store) : Prop where
  hops_le : k ≤ n
  dst : bytes p 24 16 = t.hop k
  segs : segsLeft p ptr = n - k
  last : rpl_data_get_srh_last_address p ptr (bytes p 24 16) = t.hop n
  next : k < n → ∃ q, (rpl_data_process_routing_header node (inHeader p ptr) (bytes p 24 16)
    ptr).run p = .ok (.forward (t.hop (k + 1)), q)
  done : k = n → (rpl_data_process_routing_header node (inHeader p ptr) (bytes p 24 16)
    ptr).run p = .ok (.skip len, p)

/-- A route is followed: a header is left out only where no hop is to be listed, and one
that is written has the length announced and leads each packet over all listed hops. -/
def Followed (t : Table) (hopLimit : UInt8) : Prop :=
  match rpl_data_sr_compute_header_size t hopLimit with
  | none => listed t hopLimit = 0
  | some info =>
      ∀ (ptr : Nat) (nh : UInt8) (m : Store), 40 ≤ ptr →
        (rpl_data_sr_write_header t info m ptr nh).2 < 2 ^ 16 →
        (rpl_data_sr_write_header t info m ptr nh).2 = ptr + 8 * (info.hlen + 1) ∧
          ∀ nodes : Nat → Node, (∀ k, Serves t (listed t hopLimit) k (nodes k)) →
            ∀ k p, Travels t info ptr nh nodes k p →
              OnRoute t (listed t hopLimit) ptr (8 * (info.hlen + 1)) (nodes k) k p

/-- The routes that are followed: no hop is to be listed, or the addresses behind the
first hop are at most 254, they fit in 2040 bytes with what they share left out, and no
hop is a multicast address. -/
def Followable (t : Table) (hopLimit : UInt8) : Prop :=
  listed t hopLimit = 0 ∨
    (t.iaddr.length < 255 ∧ addressLen t (listed t hopLimit) ≤ 2040 ∧
      ∀ j, j ≤ listed t hopLimit → isMulticast (t.hop j) = false)

/-! ## Packets and stages -/

section

variable {t : Table} {n ptr : Nat} {nodes : Nat → Node} {hpos : 0 < n}
  {hn : n ≤ t.iaddr.length} {hlen : addressLen t n ≤ 2040}

/-- Every packet on its way is at a stage of the route. -/
theorem Travels.stage {nh : UInt8} (hptr : 40 ≤ ptr) (hend : ptr + (t.route n hpos hn hlen).len < 2 ^ 16)
    (hnodes : ∀ k, Serves t n k (nodes k))
    (hunicast : ∀ j, j ≤ n → isMulticast (t.hop j) = false) {k : Nat} {p : Store}
    (h : Travels t (infoOf t n) ptr nh nodes k p) : Stage (t.route n hpos hn hlen) ptr k p := by
  induction h with
  | @start m p hwritten hdst =>
      have hheader : Holds p ptr (headerBytes t (infoOf t n) nh) :=
        (holds_store m ptr (headerBytes t (infoOf t n) nh)).congr hwritten
      exact stage_start hpos hn hlen hheader hdst
  | @hop k p q q' d hp hrun hsame ih =>
      rcases Nat.lt_or_eq_of_le ih.hops_le with hk | hk
      · change k < n at hk
        have hstep := ih.process hptr hend hk (hnodes k).domain (hnodes k).route
          (hnodes k).notLocal (hunicast k hk.le)
        obtain ⟨o, s, hrun', hpost⟩ := hstep
        have hdst : bytes p 24 16 = t.hop k := ih.dst
        change (rpl_data_process_routing_header _ _ (t.hop k) ptr).run p = _ at hrun'
        rw [hdst, hrun'] at hrun
        cases hrun
        rcases hpost with ⟨hstay, -⟩ | ⟨-, -, hnext⟩
        · exact absurd rfl (hstay d)
        · exact hnext.congr hsame
      · subst hk
        obtain ⟨o, s, hrun', ho, -⟩ := ih.process_last (bytes p 24 16) (hnodes _).domain
        rw [hrun'] at hrun
        cases hrun
        cases ho

/-- A stage of the route is on it. -/
theorem onRoute_of_stage (hptr : 40 ≤ ptr) (hend : ptr + (t.route n hpos hn hlen).len < 2 ^ 16)
    {k : Nat} {node : Node} (hnode : Serves t n k node)
    (hunicast : ∀ j, j ≤ n → isMulticast (t.hop j) = false) {p : Store}
    (h : Stage (t.route n hpos hn hlen) ptr k p) :
    OnRoute t n ptr (t.route n hpos hn hlen).len node k p := by
  refine ⟨h.hops_le, h.dst, h.segs_eq, h.last_address, fun hk => ?_, fun hk => ?_⟩
  · obtain ⟨o, q, hrun, hpost⟩ := h.process hptr hend hk hnode.domain hnode.route hnode.notLocal
      (hunicast k hk.le)
    rw [h.dst]
    rcases hpost with ⟨-, hmulticast⟩ | ⟨rfl, -, -⟩
    · rw [show (t.route n hpos hn hlen).hop (k + 1) = t.hop (k + 1) from rfl,
        hunicast (k + 1) hk] at hmulticast
      cases hmulticast
    · exact ⟨q, hrun⟩
  · subst hk
    obtain ⟨o, q, hrun, rfl, rfl⟩ := h.process_last (bytes p 24 16) hnode.domain
    exact hrun

/-- As far as no hop is a multicast address there is a packet that comes there. -/
theorem exists_travels (nh : UInt8) (hptr : 40 ≤ ptr) (hend : ptr + (t.route n hpos hn hlen).len < 2 ^ 16)
    (hnodes : ∀ k, Serves t n k (nodes k)) {k : Nat} (hk : k ≤ n)
    (hunicast : ∀ j, j < k → isMulticast (t.hop j) = false)
    (harrives : k = 0 ∨ isMulticast (t.hop k) = false) :
    ∃ p, Travels t (infoOf t n) ptr nh nodes k p ∧ Stage (t.route n hpos hn hlen) ptr k p := by
  induction k with
  | zero =>
      let m : Store := store (fun _ => 0) ptr (headerBytes t (infoOf t n) nh)
      have hdst : bytes (store m 24 (t.hop 0)) 24 16 = t.hop 0 := by
        have hholds := holds_store m 24 (t.hop 0)
        rwa [Holds, t.length_hop] at hholds
      have hwritten : ∀ a, ptr ≤ a →
          a < (rpl_data_sr_write_header t (infoOf t n) (fun _ => 0) ptr nh).2 →
          store m 24 (t.hop 0) a =
            (rpl_data_sr_write_header t (infoOf t n) (fun _ => 0) ptr nh).1 a := by
        intro a ha _
        refine store_apart ?_
        rw [t.length_hop]
        omega
      have hheader : Holds (store m 24 (t.hop 0)) ptr (headerBytes t (infoOf t n) nh) :=
        (holds_store (fun _ => 0) ptr (headerBytes t (infoOf t n) nh)).congr hwritten
      exact ⟨store m 24 (t.hop 0), .start hwritten hdst, stage_start hpos hn hlen hheader hdst⟩
  | succ k ih =>
      have hhere : isMulticast (t.hop k) = false := hunicast k (by omega)
      obtain ⟨p, hp, hstage⟩ := ih (by omega) (fun j hj => hunicast j (by omega)) (Or.inr hhere)
      obtain ⟨o, q, hrun, hpost⟩ := hstage.process hptr hend hk (hnodes k).domain (hnodes k).route
        (hnodes k).notLocal hhere
      change (rpl_data_process_routing_header _ _ (t.hop k) ptr).run p = _ at hrun
      have hdst : bytes p 24 16 = t.hop k := hstage.dst
      rw [← hdst] at hrun
      rcases hpost with ⟨-, hmulticast⟩ | ⟨rfl, -, hnext⟩
      · have hnext : isMulticast (t.hop (k + 1)) = false := by simpa using harrives
        change isMulticast (t.hop (k + 1)) = true at hmulticast
        rw [hnext] at hmulticast
        cases hmulticast
      · exact ⟨q, hp.hop hrun fun a _ => rfl, hnext⟩

end

/-! ## The routes that are followed -/

theorem hopCount_eq {t : Table} (hopLimit : UInt8) (hhops : t.iaddr.length < 255) :
    hopCount t hopLimit - 1 = listed t hopLimit := by
  unfold hopCount listed
  rw [Nat.mod_eq_of_lt (by omega), Nat.add_comm]

/-- The header is longer than it says where it needs more than 2040 bytes of addresses. -/
theorem header_truncated {t : Table} {n ptr : Nat} {nh : UInt8} {m : Store}
    (h : (rpl_data_sr_write_header t (infoOf t n) m ptr nh).2 =
      ptr + 8 * ((infoOf t n).hlen + 1)) : addressLen t n ≤ 2040 := by
  have hpad := padOf_le (addressLen t n)
  have haddr : addressLen t n =
      (16 - tableCmprE t n) + (16 - tableCmprI t n) * (n - 1) := rfl
  have hcomm := Nat.mul_comm (n - 1) (16 - tableCmprI t n)
  have hE := tableCmprE_lt t n
  have hI := tableCmprI_lt t n
  rw [rpl_data_sr_write_header, length_headerBytes] at h
  simp only [infoOf] at h
  have hmod := Nat.mod_lt ((addressLen t n + padOf (addressLen t n)) / 8) (by decide : 0 < 2 ^ 8)
  omega

theorem length_written {t : Table} {n : Nat} (ptr : Nat) (nh : UInt8) (m : Store)
    (hlen : addressLen t n ≤ 2040) :
    (rpl_data_sr_write_header t (infoOf t n) m ptr nh).2 = ptr + 8 * ((infoOf t n).hlen + 1) ∧
      ∀ hpos hn, (t.route n hpos hn hlen).len = 8 * ((infoOf t n).hlen + 1) := by
  have hpad := padOf_le (addressLen t n)
  have haddr : addressLen t n =
      (16 - tableCmprE t n) + (16 - tableCmprI t n) * (n - 1) := rfl
  have hcomm := Nat.mul_comm (n - 1) (16 - tableCmprI t n)
  have hE := tableCmprE_lt t n
  have hlen' : 8 * ((infoOf t n).hlen + 1) =
      8 + (n - 1) * (16 - tableCmprI t n) + (16 - tableCmprE t n) + padOf (addressLen t n) := by
    simp only [infoOf]
    omega
  refine ⟨?_, fun hpos hn => ?_⟩
  · rw [rpl_data_sr_write_header, length_headerBytes, hlen']
    rfl
  · rw [hlen']
    rfl

/-- A node that sends on whatever comes. -/
def relay : Node where
  rplDomain := true
  isLocal := fun _ => false
  routeTo := fun _ => true

theorem relay_serves (t : Table) (n k : Nat) : Serves t n k relay :=
  ⟨rfl, fun _ => rfl, fun _ _ _ => rfl⟩

theorem addressLen_le_of_written {t : Table} {n : Nat} (hn : n < 2 ^ 8)
    (h : (rpl_data_sr_write_header t (infoOf t n) (fun _ => 0) 40 0).2 < 2 ^ 16 →
      (rpl_data_sr_write_header t (infoOf t n) (fun _ => 0) 40 0).2 =
        40 + 8 * ((infoOf t n).hlen + 1)) : addressLen t n ≤ 2040 := by
  refine header_truncated (h ?_)
  have hpad := padOf_le (addressLen t n)
  have hmul : (n - 1) * (16 - tableCmprI t n) ≤ 2 ^ 8 * 16 :=
    Nat.mul_le_mul (by omega) (by omega)
  rw [rpl_data_sr_write_header, length_headerBytes]
  simp only [infoOf]
  omega

/-- The addresses of a header that is written with the length announced fit in it. -/
theorem Followed.addressLen_le {t : Table} {hopLimit : UInt8} (h : Followed t hopLimit)
    (hhops : t.iaddr.length < 255) (hsome : listed t hopLimit ≠ 0) :
    addressLen t (listed t hopLimit) ≤ 2040 := by
  have hcount := hopCount_eq hopLimit hhops
  have hlisted : listed t hopLimit ≤ t.iaddr.length := by
    unfold listed
    omega
  unfold Followed at h
  rw [compute_header_size_eq, if_neg (by omega), hcount] at h
  exact addressLen_le_of_written (by omega) fun hend => (h 40 0 (fun _ => 0) le_rfl hend).1

/-- A route whose addresses do not fit is not followed. -/
theorem not_followed_of_long {t : Table} {hopLimit : UInt8} {n : Nat}
    (hhops : t.iaddr.length < 255) (hlisted : listed t hopLimit = n) (hsome : n ≠ 0)
    (hlong : 2040 < addressLen t n) : ¬Followed t hopLimit := by
  intro h
  subst hlisted
  exact absurd (h.addressLen_le hhops hsome) (by omega)

/-- Where packets are sent on from every hop but the last, no hop is multicast: the
first such hop would stop them. -/
theorem unicast_of_onRoute {t : Table} {n ptr : Nat} (nh : UInt8) {hpos : 0 < n}
    {hn : n ≤ t.iaddr.length} {hlen : addressLen t n ≤ 2040} (hptr : 40 ≤ ptr)
    (hend : ptr + (t.route n hpos hn hlen).len < 2 ^ 16)
    (h : ∀ k p, k < n → Travels t (infoOf t n) ptr nh (fun _ => relay) k p →
      ∃ q, (rpl_data_process_routing_header relay (inHeader p ptr) (bytes p 24 16) ptr).run p =
        .ok (.forward (t.hop (k + 1)), q)) {j : Nat} (hj : j ≤ n) :
    isMulticast (t.hop j) = false := by
  induction j using Nat.strongRecOn with
  | ind j ih =>
      by_contra hmulticast
      rw [Bool.not_eq_false] at hmulticast
      have hbefore : ∀ i, i < j - 1 → isMulticast (t.hop i) = false := fun i hi =>
        ih i (by omega) (by omega)
      have harrives : j - 1 = 0 ∨ isMulticast (t.hop (j - 1)) = false := by
        rcases Nat.lt_or_ge 1 j with hlt | hge
        · exact Or.inr (ih (j - 1) (by omega) (by omega))
        · exact Or.inl (by omega)
      obtain ⟨p, hp, hstage⟩ := exists_travels nh hptr hend (relay_serves t n)
        (by omega : j - 1 ≤ n) hbefore harrives
      obtain ⟨q, hrun⟩ := h (j - 1) p (by omega) hp
      have hdst : bytes p 24 16 = t.hop (j - 1) := hstage.dst
      rw [hdst] at hrun
      have hblocked : Ends (rpl_data_process_routing_header relay (inHeader p ptr) (t.hop (j - 1))
          ptr) p fun o _ => ∀ d, o ≠ .forward d := by
        have hk : j - 1 < n := by omega
        rcases Nat.eq_zero_or_pos j with hzero | hj0
        · refine hstage.process_multicast hk rfl ?_
          rw [hzero] at hmulticast ⊢
          exact hmulticast
        · have hsucc : j - 1 + 1 = j := by omega
          refine (hstage.process hptr hend hk rfl (fun _ => rfl) (fun _ _ _ => rfl)
            (ih (j - 1) (by omega) (by omega))).mono ?_
          rintro o q' (⟨hstay, -⟩ | ⟨-, hunicast, -⟩)
          · exact hstay
          · rw [hsucc] at hunicast
            exact absurd hmulticast (by simp [show isMulticast (t.hop j) = false from hunicast])
      obtain ⟨o, s, hrun', ho⟩ := hblocked
      rw [hrun] at hrun'
      cases hrun'
      exact ho _ rfl

/-- **A source route is followed to its end exactly when it is followable.** -/
theorem followed_iff (t : Table) (hopLimit : UInt8) : Followed t hopLimit ↔ Followable t hopLimit := by
  have hfits : Followed t hopLimit → t.iaddr.length < 255 → listed t hopLimit ≠ 0 →
      addressLen t (listed t hopLimit) ≤ 2040 := Followed.addressLen_le
  unfold Followable
  unfold Followed at hfits ⊢
  rw [compute_header_size_eq] at hfits ⊢
  by_cases hnone : listed t hopLimit = 0
  · have hcount : hopCount t hopLimit ≤ 1 := by
      unfold listed at hnone
      unfold hopCount
      have hmod := Nat.mod_le (1 + t.iaddr.length) (2 ^ 8)
      omega
    rw [if_pos hcount]
    exact iff_of_true hnone (Or.inl hnone)
  by_cases hhops : t.iaddr.length < 255
  · have hcount := hopCount_eq hopLimit hhops
    have hlisted : listed t hopLimit ≤ t.iaddr.length := by
      unfold listed
      omega
    have hpos : 0 < listed t hopLimit := by omega
    rw [if_neg (by omega), hcount] at hfits ⊢
    generalize hn : listed t hopLimit = n at *
    dsimp only
    constructor
    · intro h
      have hlen := hfits h hhops hnone
      refine Or.inr ⟨hhops, hlen, fun j hj => ?_⟩
      obtain ⟨hwritten, hroute⟩ := length_written 40 0 (fun _ => 0) hlen
      have hroom := hroute hpos hlisted
      have hend : 40 + (t.route n hpos hlisted hlen).len < 2 ^ 16 := by
        have hle := (t.route n hpos hlisted hlen).length_le
        change (t.route n hpos hlisted hlen).len ≤ 2048 at hle
        omega
      refine unicast_of_onRoute 0 (le_refl 40) hend (fun k p hk hp => ?_) hj
      exact (h 40 0 (fun _ => 0) le_rfl (by omega)).2 (fun _ => relay) (relay_serves t n) k p hp
        |>.next hk
    · rintro (hzero | ⟨-, hlen, hunicast⟩) ptr nh m hptr hend
      · exact absurd hzero hnone
      · obtain ⟨hwritten, hroute⟩ := length_written ptr nh m hlen
        have hroom := hroute hpos hlisted
        refine ⟨hwritten, fun nodes hnodes k p hp => ?_⟩
        rw [← hroom]
        have hend' : ptr + (t.route n hpos hlisted hlen).len < 2 ^ 16 := by omega
        exact onRoute_of_stage hptr hend' (hnodes k) hunicast
          (hp.stage hptr hend' hnodes hunicast)
  · have hcount : hopCount t hopLimit ≤ 1 := by
      have hlt := t.hops_lt
      have hmax : t.iaddr.length = 255 := by omega
      unfold hopCount
      rw [hmax]
      omega
    rw [if_pos hcount]
    refine iff_of_false hnone ?_
    rintro (hzero | ⟨hlt, -⟩)
    · exact hnone hzero
    · exact hhops hlt

/-! ## A long route -/

/-- An address of which only the first byte is not zero. -/
def plainAddr (b : Nat) : Addr := ⟨UInt8.ofNat b :: List.replicate 15 0, by simp⟩

/-- A route over 130 nodes whose addresses share no prefix. -/
def longTable : Table where
  finalDest := plainAddr 0
  iaddr := (List.range 130).map fun b => plainAddr (b + 1)
  hops_lt := by simp

theorem length_longTable : longTable.iaddr.length = 130 := by
  simp [longTable]

theorem addressLen_longTable : 2040 < addressLen longTable 130 := by
  decide +kernel

/-- The header of this route takes 2088 bytes and announces 40. -/
theorem longTable_not_followed : ¬Followed longTable 255 :=
  not_followed_of_long (by rw [length_longTable]; decide)
    (by rw [listed, length_longTable]; decide) (by decide) addressLen_longTable

end SourceRoute
