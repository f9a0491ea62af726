import Mathlib.Logic.Function.Iterate
import Mathlib.Data.Fintype.Basic
import WisunModem.Runs

/-!
# Leases of a DHCPv6 server entry

The list of allocated addresses of one prefix.  A lease belongs to the link id and type of
its client.  Its address is the prefix with the id of the lease (anonymous addresses), or
with octets of the link id.  What the C code leaves unwritten in a local variable or in the
reply entry is an argument here.
-/

namespace Dhcp

/-- Octets copied or compared with one call. -/
abbrev Octets (n : Nat) := Vector UInt8 n

/-- `DHCPV6_DUID_HARDWARE_EUI48_TYPE` -/
def eui48Type : UInt16 := 0x0001

/-- `DHCPV6_DUID_HARDWARE_IEEE_802_NETWORKS_TYPE` -/
def ieee802Type : UInt16 := 0x0006

/-- `DHCPV6_DUID_HARDWARE_EUI64_TYPE` -/
def eui64Type : UInt16 := 0x001b

/-- `DHCP_ADDRESS_ID_START` -/
def addressIdStart : UInt16 := 2

/-- `MAX_SUPPORTED_ADDRESS_LIST_SIZE` -/
def maxSupportedAddressListSize : UInt32 := 0x0000fffd

/-- The lifetime that means infinity. -/
def infinite : UInt32 := 0xffffffff

structure Address where
  guaPrefix : Octets 8
  suffics : Octets 8
  deriving DecidableEq

/-- `dhcpv6_allocated_address_entry_t` -/
structure Lease where
  linkId : Octets 8
  iaID : UInt32
  T0 : UInt32
  T1 : UInt32
  preferredLifetime : UInt32
  lifetime : UInt32
  linkType : UInt16
  allocatedID : UInt16
  deriving DecidableEq

/-- `dhcpv6_allocated_address_t`, what a reply is written from. -/
structure Allocated where
  nonTemporalAddress : Address
  linkId : Octets 8
  linkType : UInt16
  iaID : UInt32
  T0 : UInt32
  T1 : UInt32
  preferredLifetime : UInt32
  lifetime : UInt32
  deriving DecidableEq

/-- `dhcpv6_gua_server_entry_s`, without the data for DNS, vendor and DUID options. -/
structure Server where
  anonymousAddress : Bool
  disableAddressList : Bool
  guaPrefix : Octets 8
  maxSupportedClients : UInt32
  clientIdDefaultSuffics : Octets 6
  firstUnusedId : UInt16
  validLifetime : UInt32
  allocatedAddressList : List Lease
  tempAddressEntry : Allocated

/-- `libdhcpv6_server_entry_allocate`, and the prefix and suffix that follow it. -/
def libdhcpv6_gua_server_allocate (guaPrefix : Octets 8) (suffics : Octets 6) (temp : Allocated) :
    Server where
  anonymousAddress := false
  disableAddressList := false
  guaPrefix := guaPrefix
  maxSupportedClients := 200
  clientIdDefaultSuffics := suffics
  firstUnusedId := addressIdStart
  validLifetime := 7200
  allocatedAddressList := []
  tempAddressEntry := temp

/-! ## Ids -/

/-- `firstUnusedId++`, again where it became 0. -/
def nextId (id : UInt16) : UInt16 := if id + 1 = 0 then id + 1 + 1 else id + 1

/-- The id is on the list. -/
def Listed (leases : List Lease) (id : UInt16) : Prop := ∃ lease ∈ leases, lease.allocatedID = id

instance (leases : List Lease) (id : UInt16) : Decidable (Listed leases id) :=
  inferInstanceAs (Decidable (∃ lease ∈ leases, lease.allocatedID = id))

/-- One pass of the loop: `firstUnusedId` steps over an id that is on the list. -/
def passId (leases : List Lease) (first : UInt16) : UInt16 :=
  if Listed leases first then nextId first else first

/-- The passes, up to the one behind which `firstUnusedId` is the suggested id. -/
def searchId (leases : List Lease) (suggested : UInt8) : Nat → UInt16 → Option UInt16
  | 0, _ => none
  | passes + 1, first =>
      if suggested.toUInt16 = passId leases first then some (passId leases first)
      else searchId leases suggested passes (passId leases first)

/-- `libdhcpv6_get_unique_id`, where the suggestion has eight bits.  The loop ends within
65536 passes or never (`searchId_enough`). -/
def libdhcpv6_get_unique_id (s : Server) : Option (UInt16 × Server) :=
  let suggested := s.firstUnusedId.toUInt8
  (searchId s.allocatedAddressList suggested 65536 s.firstUnusedId).map fun _ =>
    (suggested.toUInt16, { s with firstUnusedId := suggested.toUInt16 + 1 })

section

variable {leases : List Lease} {suggested : UInt8} {first id : UInt16} {passes more : Nat}

theorem nextId_toNat (id : UInt16) : (nextId id).toNat = id.toNat % 65535 + 1 := by
  have hid := id.toNat_lt
  have hsucc : (id + 1).toNat = (id.toNat + 1) % 65536 := UInt16.toNat_add ..
  unfold nextId
  split
  next hzero =>
    rw [hzero] at hsucc ⊢
    have : (0 : UInt16).toNat = 0 := rfl
    have : ((0 : UInt16) + 1).toNat = 1 := rfl
    omega
  next hpos =>
    have : (id + 1).toNat ≠ 0 := fun h => hpos (UInt16.toNat_inj.mp h)
    omega

/-- The ids stepped to come back after 65535 steps. -/
theorem iterate_nextId_toNat (id : UInt16) (n : Nat) :
    (nextId^[n + 1] id).toNat = (id.toNat + n) % 65535 + 1 := by
  induction n with
  | zero => exact nextId_toNat id
  | succ n ih =>
      rw [Function.iterate_succ_apply', nextId_toNat, ih]
      omega

theorem passId_listed (h : Listed leases first) : passId leases first = nextId first := if_pos h

theorem passId_free (h : ¬ Listed leases first) : passId leases first = first := if_neg h

theorem searchId_some (h : searchId leases suggested passes first = some id) :
    id = suggested.toUInt16 := by
  induction passes generalizing first with
  | zero => cases h
  | succ passes ih =>
      rw [searchId] at h
      split at h
      next heq => exact (Option.some.inj h).symm.trans heq.symm
      next => exact ih h

/-- Where a free id is not the suggested one, every pass finds it free again. -/
theorem searchId_stuck (hfree : ¬ Listed leases first) (hne : suggested.toUInt16 ≠ first) :
    searchId leases suggested passes first = none := by
  induction passes with
  | zero => rfl
  | succ passes ih => rw [searchId, passId_free hfree, if_neg hne, ih]

/-- The loop over listed ids ends where it steps to the suggested id. -/
theorem searchId_of_steps (n : Nat) (hlisted : ∀ j < n + 1, Listed leases (nextId^[j] first))
    (hend : nextId^[n + 1] first = suggested.toUInt16) (hpasses : n < passes) :
    searchId leases suggested passes first = some suggested.toUInt16 := by
  have hfirst : Listed leases first := hlisted 0 (Nat.zero_lt_succ n)
  induction n generalizing first passes with
  | zero =>
      obtain ⟨passes, rfl⟩ := Nat.exists_eq_succ_of_ne_zero (Nat.ne_of_gt hpasses)
      have hend : nextId first = suggested.toUInt16 := hend
      rw [searchId, passId_listed hfirst, if_pos hend.symm, hend]
  | succ n ih =>
      obtain ⟨passes, rfl⟩ := Nat.exists_eq_succ_of_ne_zero (Nat.ne_of_gt (Nat.zero_lt_of_lt hpasses))
      rw [searchId, passId_listed hfirst]
      split
      next heq => rw [heq]
      next =>
        refine ih (fun j hj => ?_) ?_ (by omega) (hlisted 1 (by omega))
        · rw [← Function.iterate_succ_apply]
          exact hlisted (j + 1) (by omega)
        · rw [← Function.iterate_succ_apply]
          exact hend

/-- What a search that ends went through: nothing, or listed ids. -/
theorem steps_of_searchId (h : searchId leases suggested passes first = some id) :
    (¬ Listed leases first ∧ first = suggested.toUInt16) ∨
      ∃ n, (∀ j < n + 1, Listed leases (nextId^[j] first)) ∧
        nextId^[n + 1] first = suggested.toUInt16 := by
  induction passes generalizing first with
  | zero => cases h
  | succ passes ih =>
      by_cases hlisted : Listed leases first
      · right
        rw [searchId, passId_listed hlisted] at h
        split at h
        next heq =>
          refine ⟨0, fun j hj => ?_, heq.symm⟩
          obtain rfl : j = 0 := by omega
          exact hlisted
        next hne =>
          rcases ih h with ⟨-, heq⟩ | ⟨n, hn, hend⟩
          · exact absurd heq.symm hne
          · refine ⟨n + 1, fun j hj => ?_, hend⟩
            cases j with
            | zero => exact hlisted
            | succ j => exact hn j (by omega)
      · left
        refine ⟨hlisted, Eq.symm ?_⟩
        by_contra hne
        rw [searchId_stuck hlisted hne] at h
        cases h

/-- A search that ends at all ends within 65536 passes. -/
theorem searchId_enough (h : searchId leases suggested passes first = some id) :
    searchId leases suggested 65536 first = some id := by
  rw [searchId_some h]
  rcases steps_of_searchId h with ⟨hfree, rfl⟩ | ⟨n, hlisted, hend⟩
  · rw [searchId, passId_free hfree, if_pos rfl]
  · -- the walk of `n` steps passes the suggested id already within one round
    refine searchId_of_steps (n % 65535) (fun j hj => hlisted j ?_) ?_ ?_
    · have := Nat.mod_le n 65535
      omega
    · rw [← hend, ← UInt16.toNat_inj, iterate_nextId_toNat, iterate_nextId_toNat]
      omega
    · have := Nat.mod_lt n (show 65535 > 0 by omega)
      omega

end

/-- The search comes to a free id: the low octet of `firstUnusedId` is one, and every id
from there up to it is on the list. -/
def Server.FreeId (s : Server) : Prop :=
  s.firstUnusedId.toUInt8.toUInt16 ≠ 0 ∧
    ¬ Listed s.allocatedAddressList s.firstUnusedId.toUInt8.toUInt16 ∧
    ∃ n, nextId^[n] s.firstUnusedId = s.firstUnusedId.toUInt8.toUInt16 ∧
      ∀ j < n, Listed s.allocatedAddressList (nextId^[j] s.firstUnusedId)

/-- **Ids.**  The search ends with an id that is not 0 and on no listed lease in exactly
these states. -/
theorem unique_id_iff (s : Server) :
    (∃ id t, libdhcpv6_get_unique_id s = some (id, t) ∧ id ≠ 0 ∧
      ¬ Listed s.allocatedAddressList id) ↔ s.FreeId := by
  constructor
  · rintro ⟨id, t, hfound, hid, hfree⟩
    obtain ⟨last, hsearch, hpair⟩ := Option.map_eq_some_iff.mp hfound
    obtain rfl : s.firstUnusedId.toUInt8.toUInt16 = id := congrArg Prod.fst hpair
    refine ⟨hid, hfree, ?_⟩
    rcases steps_of_searchId hsearch with ⟨-, heq⟩ | ⟨n, hlisted, hend⟩
    · exact ⟨0, heq, fun j hj => absurd hj (Nat.not_lt_zero j)⟩
    · exact ⟨n + 1, hend, hlisted⟩
  · rintro ⟨hid, hfree, n, hend, hlisted⟩
    refine ⟨_, { s with firstUnusedId := s.firstUnusedId.toUInt8.toUInt16 + 1 }, ?_, hid, hfree⟩
    refine Option.map_eq_some_iff.mpr ⟨s.firstUnusedId.toUInt8.toUInt16, ?_, rfl⟩
    cases n with
    | zero =>
        have hend : s.firstUnusedId = s.firstUnusedId.toUInt8.toUInt16 := hend
        rw [searchId, passId_free (hend ▸ hfree), if_pos hend.symm, ← hend]
    | succ n => exact searchId_enough (searchId_of_steps n hlisted hend (Nat.lt_succ_self n))

/-! ## Addresses -/

def libdhcpv6_gen_suffics_from_eui48 (eui48 : Octets 8) : Octets 8 :=
  #v[eui48[0] ^^^ 2, eui48[1], eui48[2], 0xff, 0xfe, eui48[3], eui48[4], eui48[5]]

def libdhcpv6_gen_suffics_from_allocated_id (suffics : Octets 6) (allocatedId : UInt16) :
    Octets 8 :=
  #v[suffics[0], suffics[1], suffics[2], suffics[3], suffics[4], suffics[5],
    (allocatedId >>> 8).toUInt8, allocatedId.toUInt8]

/-- What is written behind the prefix: nothing for a link type of no known form. -/
def Server.suffics (s : Server) (lease : Lease) : Option (Octets 8) :=
  if s.anonymousAddress then
    some (libdhcpv6_gen_suffics_from_allocated_id s.clientIdDefaultSuffics lease.allocatedID)
  else if lease.linkType = eui64Type ∨ lease.linkType = ieee802Type then
    some (lease.linkId.set 0 (lease.linkId[0] ^^^ 2))
  else if lease.linkType = eui48Type then
    some (libdhcpv6_gen_suffics_from_eui48 lease.linkId)
  else none

/-- Into a buffer that may keep its last eight octets. -/
def libdhcpv6_allocated_address_write (ptr : Address) (lease : Lease) (s : Server) : Address where
  guaPrefix := s.guaPrefix
  suffics := (s.suffics lease).getD ptr.suffics

def libdhcpv6_generate_address_entry (address : Allocated) (cur : Lease) (s : Server) :
    Allocated where
  nonTemporalAddress := libdhcpv6_allocated_address_write address.nonTemporalAddress cur s
  linkId := cur.linkId
  linkType := cur.linkType
  iaID := cur.iaID
  T0 := cur.T0
  T1 := cur.T1
  preferredLifetime := cur.preferredLifetime
  lifetime := cur.lifetime

/-! ## The list -/

def libdhcpv6_address_entry_lifetime_set (lease : Lease) (validLifetime : UInt32) : Lease :=
  if validLifetime ≠ infinite then
    { lease with lifetime := validLifetime, preferredLifetime := validLifetime >>> 1 }
  else
    { lease with lifetime := infinite, preferredLifetime := infinite }

/-- Before the first greater id; an id of 0 goes to the end. -/
def libdhcpv6_address_list_entry_add_to_list (allocated : Lease) : List Lease → List Lease
  | [] => [allocated]
  | cur :: rest =>
      if allocated.allocatedID ≠ 0 ∧ cur.allocatedID > allocated.allocatedID then
        allocated :: cur :: rest
      else cur :: libdhcpv6_address_list_entry_add_to_list allocated rest

/-- The octets of a link id that count. -/
def duiLength (linkType : UInt16) : Nat :=
  if linkType = eui64Type ∨ linkType = ieee802Type then 8 else 6

/-- A solicit (`allocateNew`) or a renew, with the eight octets from the link id on. -/
structure Request where
  linkId : Octets 8
  linkType : UInt16
  iaID : UInt32
  T0 : UInt32
  T1 : UInt32
  allocateNew : Bool

/-- The lease that a request is about. -/
def Request.Matches (request : Request) (cur : Lease) : Prop :=
  cur.linkType = request.linkType ∧
    ∀ i : Fin 8, i.val < duiLength request.linkType → cur.linkId[i] = request.linkId[i]

instance (request : Request) (cur : Lease) : Decidable (request.Matches cur) :=
  inferInstanceAs (Decidable (_ ∧ _))

/-- A listed lease with the values of the request. -/
def Request.renew (request : Request) (validLifetime : UInt32) (cur : Lease) : Lease :=
  libdhcpv6_address_entry_lifetime_set
    { cur with iaID := request.iaID, T0 := request.T0, T1 := request.T1 } validLifetime

/-- The search for an old address: the lease found, and the list with it renewed. -/
def Request.refresh (request : Request) (validLifetime : UInt32) :
    List Lease → Option (Lease × List Lease)
  | [] => none
  | cur :: rest =>
      if request.Matches cur then
        let cur := request.renew validLifetime cur
        some (cur, cur :: rest)
      else (request.refresh validLifetime rest).map fun found => (found.1, cur :: found.2)

/-- A new lease; `stack` is what the octets had that are not copied. -/
def Request.newEntry (request : Request) (validLifetime : UInt32) (stack : Octets 8) : Lease :=
  libdhcpv6_address_entry_lifetime_set
    { linkId := .ofFn fun i =>
        if i.val < duiLength request.linkType then request.linkId[i] else stack[i]
      linkType := request.linkType, iaID := request.iaID, T0 := request.T0, T1 := request.T1
      allocatedID := 0, lifetime := 0, preferredLifetime := 0 } validLifetime

/-- `serverInfo->tempAddressEntry`, written from the lease and handed to the caller. -/
def Server.reply (s : Server) (lease : Lease) : Allocated × Server :=
  let temp := libdhcpv6_generate_address_entry s.tempAddressEntry lease s
  (temp, { s with tempAddressEntry := temp })

/-- The id of a new lease, where addresses are anonymous. -/
def Server.identify (s : Server) (lease : Lease) : Option (Lease × Server) :=
  if s.anonymousAddress then
    (libdhcpv6_get_unique_id s).map fun found => ({ lease with allocatedID := found.1 }, found.2)
  else some (lease, s)

/-- The reply is written whether or not there is memory (`memory`) for the entry. -/
def Server.enter (s : Server) (lease : Lease) (memory : Bool) : Server :=
  if s.disableAddressList = false ∧ memory then
    { s with allocatedAddressList :=
        libdhcpv6_address_list_entry_add_to_list lease s.allocatedAddressList }
  else s

/-- `libdhcpv6_address_allocate`; no outcome is a search for an id that never ends. -/
def libdhcpv6_address_allocate (s : Server) (request : Request) (stack : Octets 8)
    (memory : Bool) : Option (Option Allocated × Server) :=
  match request.refresh s.validLifetime s.allocatedAddressList with
  | some (lease, leases) =>
      let (reply, s) := { s with allocatedAddressList := leases }.reply lease
      some (some reply, s)
  | none =>
      if request.allocateNew = false then some (none, s)
      else if s.maxSupportedClients.toNat ≤ s.allocatedAddressList.length then some (none, s)
      else
        (s.identify (request.newEntry s.validLifetime stack)).map fun (lease, s) =>
          let (reply, s) := (s.enter lease memory).reply lease
          (some reply, s)

/-- The search of a delete through the list, with the address it writes for each lease. -/
def Server.erase (s : Server) (address : Address) : Address → List Lease → List Lease
  | _, [] => []
  | device, cur :: rest =>
      let device := libdhcpv6_allocated_address_write device cur s
      if address = device then rest else cur :: s.erase address device rest

/-- `device` is what the local buffer held before. -/
def libdhcpv6_address_delete (s : Server) (address device : Address) : Server :=
  if s.guaPrefix = address.guaPrefix then
    { s with allocatedAddressList := s.erase address device s.allocatedAddressList }
  else s

/-! ## Time -/

/-- One lease through a time update; a freed one is no lease. -/
def Lease.age (seconds : UInt32) (lease : Lease) : Option Lease :=
  let preferred :=
    if lease.preferredLifetime = 0 then 0
    else if lease.preferredLifetime ≤ seconds then 0
    else lease.preferredLifetime - seconds
  if lease.lifetime ≤ seconds then none
  else some { lease with preferredLifetime := preferred, lifetime := lease.lifetime - seconds }

/-- `libdhcpv6_gua_servers_time_update`, for one server and without its `removeCb`. -/
def libdhcpv6_gua_servers_time_update (s : Server) (seconds : UInt32) : Server :=
  { s with allocatedAddressList := s.allocatedAddressList.filterMap (Lease.age seconds) }

/-! ## Configuration -/

def DHCPv6_server_service_set_address_generation_anonymous (s : Server) (mode disable : Bool) :
    Server :=
  { s with anonymousAddress := mode, disableAddressList := mode && disable }

def DHCPv6_server_service_set_max_clients_accepts_count (s : Server) (maxClientCount : UInt32) :
    Server :=
  if maxClientCount = 0 ∨ maxClientCount > maxSupportedAddressListSize then s
  else { s with maxSupportedClients := maxClientCount }

def DHCPv6_server_service_set_address_validlifetime (s : Server) (validLifetime : UInt32) :
    Server :=
  if validLifetime < 120 then s else { s with validLifetime := validLifetime }

end Dhcp
