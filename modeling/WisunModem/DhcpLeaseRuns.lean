import Mathlib.Data.List.Nodup
import WisunModem.DhcpLeases

/-!
# Leases over whole runs

The clients remember what they were told: an address and how long it is theirs.  Where the
id search is good for one, memory is there for the entry, no address comes from two link
ids, no infinite lease is aged, and the address mode and the limit fit the leases there
are, every such address stays on the list and no two clients have the same.
-/

namespace Dhcp

/-- A link type with the octets of the link id that count. -/
structure Client where
  linkType : UInt16
  linkId : Octets 8
  deriving DecidableEq

theorem octet_lt (i : Fin 8) : i.val < 8 := i.isLt

def client (linkType : UInt16) (linkId : Octets 8) : Client :=
  ⟨linkType, .ofFn fun i => if i.val < duiLength linkType then getElem linkId i (octet_lt i) else 0⟩

def Lease.client (lease : Lease) : Client := Dhcp.client lease.linkType lease.linkId

def Request.client (request : Request) : Client := Dhcp.client request.linkType request.linkId

/-- The address of a lease, where all of it is written. -/
def Server.address (s : Server) (lease : Lease) : Option Address :=
  (s.suffics lease).map (Address.mk s.guaPrefix)

section

variable {s : Server} {request : Request} {cur lease new : Lease} {leases leases' : List Lease}
  {address device : Address} {valid : UInt32} {stack : Octets 8}

/-! ## One function at a time -/

theorem Request.matches_iff : request.Matches cur ↔ cur.client = request.client := by
  unfold Request.Matches Lease.client Request.client Dhcp.client
  constructor
  · rintro ⟨htype, hid⟩
    rw [htype]
    refine congrArg (fun f => Client.mk _ (Vector.ofFn f)) (funext fun i => ?_)
    by_cases hi : i.val < duiLength request.linkType
    · rw [if_pos hi, if_pos hi, hid i hi]
    · rw [if_neg hi, if_neg hi]
  · intro heq
    obtain ⟨htype, hid⟩ := Client.mk.inj heq
    refine ⟨htype, fun i hi => ?_⟩
    have hat := congrArg (fun v : Octets 8 => v[i]) hid
    rw [htype] at hat
    simpa [hi] using hat

theorem lifetime_set_linkType :
    (libdhcpv6_address_entry_lifetime_set cur valid).linkType = cur.linkType := by
  unfold libdhcpv6_address_entry_lifetime_set
  split <;> rfl

theorem lifetime_set_linkId :
    (libdhcpv6_address_entry_lifetime_set cur valid).linkId = cur.linkId := by
  unfold libdhcpv6_address_entry_lifetime_set
  split <;> rfl

theorem lifetime_set_allocatedID :
    (libdhcpv6_address_entry_lifetime_set cur valid).allocatedID = cur.allocatedID := by
  unfold libdhcpv6_address_entry_lifetime_set
  split <;> rfl

/-- The address depends on three fields of the lease only. -/
theorem Server.suffics_congr (htype : lease.linkType = cur.linkType)
    (hid : lease.linkId = cur.linkId) (hallocated : lease.allocatedID = cur.allocatedID) :
    s.suffics lease = s.suffics cur := by
  unfold Server.suffics
  rw [htype, hid, hallocated]

theorem Request.renew_client : (request.renew valid cur).client = cur.client := by
  unfold Request.renew Lease.client
  rw [lifetime_set_linkType, lifetime_set_linkId]

theorem Request.renew_suffics : s.suffics (request.renew valid cur) = s.suffics cur :=
  Server.suffics_congr lifetime_set_linkType lifetime_set_linkId lifetime_set_allocatedID

theorem Request.newEntry_client : (request.newEntry valid stack).client = request.client := by
  unfold Request.newEntry Lease.client Request.client Dhcp.client
  rw [lifetime_set_linkType, lifetime_set_linkId]
  refine congrArg (fun f => Client.mk _ (Vector.ofFn f)) (funext fun i => ?_)
  by_cases hi : i.val < duiLength request.linkType
  · simp [hi]
  · simp only [if_neg hi]

theorem Lease.age_some {seconds : UInt32} (h : cur.age seconds = some lease) :
    lease.client = cur.client ∧ lease.linkType = cur.linkType ∧ lease.linkId = cur.linkId ∧
      lease.allocatedID = cur.allocatedID ∧ ¬ cur.lifetime ≤ seconds ∧
        lease.lifetime = cur.lifetime - seconds := by
  unfold Lease.age at h
  dsimp only at h
  split at h
  · cases h
  next hle =>
    obtain rfl := Option.some.inj h
    exact ⟨rfl, rfl, rfl, rfl, hle, rfl⟩

theorem Request.refresh_none (h : request.refresh valid leases = none) :
    ∀ cur ∈ leases, cur.client ≠ request.client := by
  induction leases with
  | nil => simp
  | cons head rest ih =>
      rw [Request.refresh] at h
      split at h
      · cases h
      next hno =>
        intro cur hcur
        rcases List.mem_cons.mp hcur with rfl | hcur
        · exact fun heq => hno (Request.matches_iff.mpr heq)
        · exact ih (Option.map_eq_none_iff.mp h) cur hcur

theorem Request.refresh_some (h : request.refresh valid leases = some (lease, leases')) :
    ∃ before found behind, leases = before ++ found :: behind ∧
      found.client = request.client ∧ lease = request.renew valid found ∧
        leases' = before ++ lease :: behind := by
  induction leases generalizing leases' with
  | nil => cases h
  | cons head rest ih =>
      rw [Request.refresh] at h
      split at h
      next hmatch =>
        obtain ⟨rfl, rfl⟩ := Prod.mk.inj (Option.some.inj h)
        exact ⟨[], head, rest, rfl, Request.matches_iff.mp hmatch, rfl, rfl⟩
      next =>
        obtain ⟨⟨renewed, rest'⟩, hfound, heq⟩ := Option.map_eq_some_iff.mp h
        obtain ⟨hlease, hleases⟩ : renewed = lease ∧ head :: rest' = leases' := Prod.mk.inj heq
        subst hlease hleases
        obtain ⟨before, e, behind, hrest, hclient, hrenew, hrest'⟩ := ih hfound
        refine ⟨head :: before, e, behind, ?_, hclient, hrenew, ?_⟩
        · rw [hrest, List.cons_append]
        · rw [hrest', List.cons_append]

theorem add_to_list_perm :
    (libdhcpv6_address_list_entry_add_to_list new leases).Perm (new :: leases) := by
  induction leases with
  | nil => exact .refl _
  | cons cur rest ih =>
      rw [libdhcpv6_address_list_entry_add_to_list]
      split
      · exact .refl _
      · exact (ih.cons cur).trans (.swap ..)

theorem write_of_address (h : s.address lease = some address) :
    libdhcpv6_allocated_address_write device lease s = address := by
  obtain ⟨suffics, hsuffics, rfl⟩ := Option.map_eq_some_iff.mp h
  unfold libdhcpv6_allocated_address_write
  rw [hsuffics]
  rfl

theorem erase_sublist : (s.erase address device leases).Sublist leases := by
  induction leases generalizing device with
  | nil => exact .refl _
  | cons cur rest ih =>
      rw [Server.erase]
      split
      · exact List.sublist_cons_self ..
      · exact ih.cons_cons cur

/-- A delete leaves the leases of other addresses. -/
theorem mem_erase (hmem : lease ∈ leases) (hother : s.address lease ≠ some address)
    (hwritten : (s.suffics lease).isSome) : lease ∈ s.erase address device leases := by
  induction leases generalizing device with
  | nil => cases hmem
  | cons cur rest ih =>
      rw [Server.erase]
      split
      next heq =>
        rcases List.mem_cons.mp hmem with rfl | hmem
        · obtain ⟨suffics, hsuffics⟩ := Option.isSome_iff_exists.mp hwritten
          have haddress : s.address lease = some ⟨s.guaPrefix, suffics⟩ := by
            unfold Server.address
            rw [hsuffics]
            rfl
          rw [write_of_address haddress] at heq
          exact absurd (haddress.trans (congrArg some heq.symm)) hother
        · exact hmem
      next =>
        rcases List.mem_cons.mp hmem with rfl | hmem
        · exact List.mem_cons_self
        · exact List.mem_cons_of_mem _ (ih hmem)

/-- Anonymous addresses differ where the ids do. -/
theorem allocated_id_injective {suffics : Octets 6} {id id' : UInt16}
    (h : libdhcpv6_gen_suffics_from_allocated_id suffics id =
      libdhcpv6_gen_suffics_from_allocated_id suffics id') : id = id' := by
  have hhigh : (id >>> 8).toUInt8 = (id' >>> 8).toUInt8 :=
    congrArg (fun v : Octets 8 => v[6]) h
  have hlow : id.toUInt8 = id'.toUInt8 := congrArg (fun v : Octets 8 => v[7]) h
  have hhigh := congrArg UInt8.toNat hhigh
  have hlow := congrArg UInt8.toNat hlow
  have := id.toNat_lt
  have := id'.toNat_lt
  simp [Nat.shiftRight_eq_div_pow] at hhigh hlow
  rw [← UInt16.toNat_inj]
  omega

end

/-! ## The state of the server -/

/-- A lease without what a renewal or the time changes. -/
def Lease.bare (lease : Lease) : Lease :=
  { lease with iaID := 0, T0 := 0, T1 := 0, preferredLifetime := 0, lifetime := 0 }

/-- The list has one lease for a client and one for an address, all of them with an address,
and room for it. -/
structure Server.Sound (s : Server) : Prop where
  clients : (s.allocatedAddressList.map Lease.client).Nodup
  written : ∀ lease ∈ s.allocatedAddressList, (s.suffics lease).isSome
  addresses : (s.allocatedAddressList.map s.suffics).Nodup
  ids : s.anonymousAddress = true → ∀ lease ∈ s.allocatedAddressList, lease.allocatedID ≠ 0
  room : s.allocatedAddressList.length ≤ s.maxSupportedClients.toNat
  enabled : s.disableAddressList = false

section

variable {s t : Server} {request : Request} {cur lease new : Lease} {leases : List Lease}
  {address device : Address} {valid seconds : UInt32} {stack : Octets 8} {id : UInt16}

theorem Request.renew_bare : (request.renew valid cur).bare = cur.bare := by
  unfold Request.renew libdhcpv6_address_entry_lifetime_set Lease.bare
  split <;> rfl

theorem map_bare_client : (leases.map Lease.bare).map Lease.client = leases.map Lease.client := by
  simp only [List.map_map]
  rfl

theorem map_bare_suffics : (leases.map Lease.bare).map s.suffics = leases.map s.suffics := by
  simp only [List.map_map]
  rfl

/-- Renewing and removing leases keeps the state. -/
theorem Server.Sound.of_bare (h : s.Sound)
    (hsub : (leases.map Lease.bare).Sublist (s.allocatedAddressList.map Lease.bare)) :
    Sound { s with allocatedAddressList := leases } := by
  have horigin : ∀ lease ∈ leases, ∃ old ∈ s.allocatedAddressList, old.bare = lease.bare :=
    fun lease hlease => List.mem_map.mp (hsub.subset (List.mem_map_of_mem hlease))
  refine ⟨?_, ?_, ?_, ?_, ?_, h.enabled⟩
  · have := hsub.map Lease.client
    rw [map_bare_client, map_bare_client] at this
    exact this.nodup h.clients
  · intro lease hlease
    obtain ⟨old, hold, hbare⟩ := horigin lease hlease
    have hsame : s.suffics lease.bare = s.suffics old.bare := congrArg _ hbare.symm
    have hsame : s.suffics lease = s.suffics old := hsame
    exact hsame ▸ h.written old hold
  · have := hsub.map s.suffics
    rw [map_bare_suffics, map_bare_suffics] at this
    exact this.nodup h.addresses
  · intro hanonymous lease hlease
    obtain ⟨old, hold, hbare⟩ := horigin lease hlease
    have hsame : lease.bare.allocatedID = old.bare.allocatedID := congrArg _ hbare.symm
    have hsame : lease.allocatedID = old.allocatedID := hsame
    exact hsame ▸ h.ids hanonymous old hold
  · have := hsub.length_le
    rw [List.length_map, List.length_map] at this
    exact le_trans this h.room

/-- So does a new lease of a new client, whose address no other has. -/
theorem Server.Sound.add (h : s.Sound)
    (hclient : ∀ lease ∈ s.allocatedAddressList, lease.client ≠ new.client)
    (hwritten : (s.suffics new).isSome)
    (haddress : ∀ lease ∈ s.allocatedAddressList, s.suffics lease ≠ s.suffics new)
    (hid : s.anonymousAddress = true → new.allocatedID ≠ 0)
    (hroom : s.allocatedAddressList.length < s.maxSupportedClients.toNat) :
    Sound { s with allocatedAddressList :=
      libdhcpv6_address_list_entry_add_to_list new s.allocatedAddressList } := by
  have hperm : (libdhcpv6_address_list_entry_add_to_list new s.allocatedAddressList).Perm
    (new :: s.allocatedAddressList) := add_to_list_perm
  refine ⟨?_, ?_, ?_, ?_, ?_, h.enabled⟩
  · refine ((hperm.map Lease.client).nodup_iff).mpr (List.nodup_cons.mpr ⟨fun hmem => ?_, h.clients⟩)
    obtain ⟨lease, hlease, heq⟩ := List.mem_map.mp hmem
    exact hclient lease hlease heq
  · intro lease hlease
    rcases List.mem_cons.mp (hperm.mem_iff.mp hlease) with rfl | hlease
    · exact hwritten
    · exact h.written lease hlease
  · refine ((hperm.map s.suffics).nodup_iff).mpr
      (List.nodup_cons.mpr ⟨fun hmem => ?_, h.addresses⟩)
    obtain ⟨lease, hlease, heq⟩ := List.mem_map.mp hmem
    exact haddress lease hlease heq
  · intro hanonymous lease hlease
    rcases List.mem_cons.mp (hperm.mem_iff.mp hlease) with rfl | hlease
    · exact hid hanonymous
    · exact h.ids hanonymous lease hlease
  · have := hperm.length_eq
    rw [List.length_cons] at this
    show (libdhcpv6_address_list_entry_add_to_list new s.allocatedAddressList).length ≤ _
    rw [this]
    exact hroom

theorem Server.Sound.address_some (h : s.Sound) (hlease : lease ∈ s.allocatedAddressList) :
    ∃ address, s.address lease = some address := by
  obtain ⟨suffics, hsuffics⟩ := Option.isSome_iff_exists.mp (h.written lease hlease)
  refine ⟨⟨s.guaPrefix, suffics⟩, ?_⟩
  unfold Server.address
  rw [hsuffics]
  rfl

/-- Two clients have two addresses. -/
theorem Server.Sound.address_ne (h : s.Sound) (hcur : cur ∈ s.allocatedAddressList)
    (hlease : lease ∈ s.allocatedAddressList) (hne : cur.client ≠ lease.client) :
    s.address cur ≠ s.address lease := by
  intro heq
  have hsuffics : s.suffics cur = s.suffics lease :=
    Option.map_injective (fun x y hxy => congrArg Address.suffics hxy) heq
  have hsame : cur = lease := List.inj_on_of_nodup_map h.addresses hcur hlease hsuffics
  exact hne (congrArg Lease.client hsame)

/-- In anonymous mode the ids are distinct. -/
theorem Server.Sound.ids_nodup (h : s.Sound) (hanonymous : s.anonymousAddress = true) :
    (s.allocatedAddressList.map Lease.allocatedID).Nodup := by
  have hmap : s.allocatedAddressList.map s.suffics =
      (s.allocatedAddressList.map Lease.allocatedID).map fun id =>
        some (libdhcpv6_gen_suffics_from_allocated_id s.clientIdDefaultSuffics id) := by
    rw [List.map_map]
    refine List.map_congr_left fun lease _ => ?_
    unfold Server.suffics
    rw [if_pos hanonymous]
    rfl
  have hnodup := h.addresses
  rw [hmap] at hnodup
  exact hnodup.of_map

/-- The address of a new lease is one that no listed lease has. -/
def Server.Fresh (s : Server) (new : Lease) : Prop :=
  if s.anonymousAddress then s.FreeId
  else (s.suffics new).isSome ∧ ∀ lease ∈ s.allocatedAddressList, s.suffics lease ≠ s.suffics new

theorem Server.Fresh.identify (h : s.Fresh new) :
    ∃ made first, s.identify new = some (made, { s with firstUnusedId := first }) ∧
      made.client = new.client ∧ (s.suffics made).isSome ∧
      (∀ lease ∈ s.allocatedAddressList, s.suffics lease ≠ s.suffics made) ∧
      (s.anonymousAddress = true → made.allocatedID ≠ 0) := by
  unfold Server.Fresh at h
  unfold Server.identify
  split at h
  next hanonymous =>
    obtain ⟨id, t, hfound, hid, hfree⟩ := (unique_id_iff s).mpr h
    obtain ⟨-, -, hpair⟩ := Option.map_eq_some_iff.mp hfound
    obtain ⟨rfl, rfl⟩ := Prod.mk.inj hpair
    have hsuffics : ∀ lease, s.suffics lease = some
        (libdhcpv6_gen_suffics_from_allocated_id s.clientIdDefaultSuffics lease.allocatedID) :=
      fun lease => if_pos hanonymous
    refine ⟨{ new with allocatedID := s.firstUnusedId.toUInt8.toUInt16 },
      s.firstUnusedId.toUInt8.toUInt16 + 1, ?_, rfl, ?_, ?_, fun _ => hid⟩
    · rw [if_pos hanonymous, hfound]
      rfl
    · rw [hsuffics]
      rfl
    · intro lease hlease heq
      rw [hsuffics, hsuffics] at heq
      exact hfree ⟨lease, hlease, allocated_id_injective (Option.some.inj heq)⟩
  next hnamed =>
    refine ⟨new, s.firstUnusedId, if_neg hnamed, rfl, h.1, h.2, fun htrue => absurd htrue hnamed⟩

/-- What an allocation comes to: no reply where the client has no lease, or a reply with the
address of its lease. -/
structure Server.Answers (s : Server) (request : Request) (reply : Allocated) (t : Server)
    (lease : Lease) : Prop where
  mem : lease ∈ t.allocatedAddressList
  client : lease.client = request.client
  address : t.address lease = some reply.nonTemporalAddress
  lifetime : lease.lifetime = reply.lifetime
  others : ∀ other ∈ s.allocatedAddressList, other.client ≠ request.client →
    other ∈ t.allocatedAddressList
  same : ∀ old ∈ s.allocatedAddressList, old.client = request.client →
    s.address old = some reply.nonTemporalAddress

/-- Such allocations find a free address and memory. -/
def Server.Serves (s : Server) (request : Request) (stack : Octets 8) (memory : Bool) : Prop :=
  (∀ lease ∈ s.allocatedAddressList, lease.client ≠ request.client) →
    request.allocateNew = true → s.allocatedAddressList.length < s.maxSupportedClients.toNat →
      memory = true ∧ s.Fresh (request.newEntry s.validLifetime stack)

theorem Server.Sound.allocate {memory : Bool} (h : s.Sound)
    (hserves : s.Serves request stack memory) :
    ∃ reply t, libdhcpv6_address_allocate s request stack memory = some (reply, t) ∧ t.Sound ∧
      t.address = s.address ∧
      ((reply = none ∧ t = s ∧ ∀ lease ∈ s.allocatedAddressList, lease.client ≠ request.client) ∨
        ∃ r lease, reply = some r ∧ s.Answers request r t lease) := by
  unfold libdhcpv6_address_allocate
  split
  next lease leases hfound =>
    obtain ⟨before, found, behind, hleases, hclient, rfl, rfl⟩ := Request.refresh_some hfound
    have hbare : (before ++ request.renew s.validLifetime found :: behind).map Lease.bare =
        s.allocatedAddressList.map Lease.bare := by
      rw [hleases, List.map_append, List.map_append, List.map_cons, List.map_cons,
        Request.renew_bare]
    have hsub : ((before ++ request.renew s.validLifetime found :: behind).map Lease.bare).Sublist
        (s.allocatedAddressList.map Lease.bare) := by
      rw [hbare]
    have hsound := h.of_bare hsub
    have hmem : found ∈ s.allocatedAddressList := by
      rw [hleases]
      simp
    obtain ⟨address, haddress⟩ := h.address_some hmem
    have hrenewed : s.address (request.renew s.validLifetime found) = some address := by
      unfold Server.address at haddress ⊢
      rw [Request.renew_suffics, haddress]
    refine ⟨_, _, rfl, ⟨hsound.clients, hsound.written, hsound.addresses, hsound.ids, hsound.room,
      hsound.enabled⟩, rfl, .inr ⟨_, request.renew s.validLifetime found, rfl, ?_, ?_, ?_, rfl, ?_, ?_⟩⟩
    · exact List.mem_append_right _ List.mem_cons_self
    · rw [Request.renew_client, hclient]
    · exact hrenewed.trans (congrArg some (write_of_address hrenewed).symm)
    · intro other hother hne
      rw [hleases] at hother
      rcases List.mem_append.mp hother with hbefore | hbehind
      · exact List.mem_append_left _ hbefore
      · rcases List.mem_cons.mp hbehind with rfl | hbehind
        · exact absurd hclient hne
        · exact List.mem_append_right _ (List.mem_cons_of_mem _ hbehind)
    · intro old hold hsame
      obtain rfl : old = found :=
        List.inj_on_of_nodup_map h.clients hold hmem (hsame.trans hclient.symm)
      exact haddress.trans (congrArg some (write_of_address hrenewed).symm)
  next hnone =>
    have hno := Request.refresh_none hnone
    split
    · exact ⟨none, s, rfl, h, rfl, .inl ⟨rfl, rfl, hno⟩⟩
    next hnew =>
      split
      · exact ⟨none, s, rfl, h, rfl, .inl ⟨rfl, rfl, hno⟩⟩
      next hroom =>
        have hroom : s.allocatedAddressList.length < s.maxSupportedClients.toNat :=
          Nat.lt_of_not_le hroom
        obtain ⟨rfl, hfresh⟩ := hserves hno (by simpa using hnew) hroom
        obtain ⟨made, first, hmade, hclient, hwritten, haddress, hid⟩ := hfresh.identify
        rw [Request.newEntry_client] at hclient
        have hsound := h.add (fun lease hlease => hclient ▸ hno lease hlease) hwritten haddress hid
          hroom
        have henter : Server.enter { s with firstUnusedId := first } made true =
            { s with
              firstUnusedId := first
              allocatedAddressList :=
                libdhcpv6_address_list_entry_add_to_list made s.allocatedAddressList } :=
          if_pos ⟨h.enabled, rfl⟩
        rw [hmade, Option.map_some]
        dsimp only
        rw [henter]
        obtain ⟨address, hmadeAddress⟩ : ∃ address, s.address made = some address :=
          hsound.address_some (add_to_list_perm.mem_iff.mpr List.mem_cons_self)
        refine ⟨_, _, rfl, ⟨hsound.clients, hsound.written, hsound.addresses, hsound.ids,
          hsound.room, hsound.enabled⟩, rfl, .inr ⟨_, made, rfl, ?_, hclient, ?_, rfl, ?_, ?_⟩⟩
        · exact add_to_list_perm.mem_iff.mpr List.mem_cons_self
        · exact hmadeAddress.trans (congrArg some (write_of_address hmadeAddress).symm)
        · intro other hother _
          exact add_to_list_perm.mem_iff.mpr (List.mem_cons_of_mem _ hother)
        · intro old hold hsame
          exact absurd hsame (hno old hold)

theorem Server.Sound.delete (h : s.Sound) : (libdhcpv6_address_delete s address device).Sound := by
  unfold libdhcpv6_address_delete
  split
  · exact h.of_bare (erase_sublist.map _)
  · exact h

/-- A delete leaves the leases of other addresses. -/
theorem Server.Sound.mem_delete (h : s.Sound) (hlease : lease ∈ s.allocatedAddressList)
    (hother : s.address lease ≠ some address) :
    lease ∈ (libdhcpv6_address_delete s address device).allocatedAddressList := by
  unfold libdhcpv6_address_delete
  split
  · exact mem_erase hlease hother (h.written lease hlease)
  · exact hlease

theorem delete_address : (libdhcpv6_address_delete s address device).address = s.address := by
  unfold libdhcpv6_address_delete
  split <;> rfl

theorem filterMap_age_bare :
    ((leases.filterMap (Lease.age seconds)).map Lease.bare).Sublist (leases.map Lease.bare) := by
  induction leases with
  | nil => exact .refl _
  | cons cur rest ih =>
      cases hage : cur.age seconds with
      | none =>
          rw [List.filterMap_cons_none hage]
          exact ih.cons _
      | some lease =>
          rw [List.filterMap_cons_some hage, List.map_cons, List.map_cons]
          have hbare : lease.bare = cur.bare := by
            obtain ⟨-, htype, hid, hallocated, -⟩ := Lease.age_some hage
            unfold Lease.bare
            rw [htype, hid, hallocated]
          rw [hbare]
          exact ih.cons_cons _

theorem Server.Sound.tick (h : s.Sound) : (libdhcpv6_gua_servers_time_update s seconds).Sound :=
  h.of_bare filterMap_age_bare

end

/-! ## The clients -/

/-- What a client was told last. -/
structure Held where
  address : Address
  lifetime : UInt32
  deriving DecidableEq

/-- What is left of it. -/
def Held.later (seconds : UInt32) (held : Held) : Option Held :=
  if held.lifetime = infinite then some held
  else if held.lifetime ≤ seconds then none
  else some { held with lifetime := held.lifetime - seconds }

/-- The server entry, and the clients whose leases have not run out. -/
structure World where
  server : Server
  held : Client → Option Held

inductive Event
  /-- A solicit or renew; `memory` says whether there is memory for an entry. -/
  | allocate (request : Request) (stack : Octets 8) (memory : Bool)
  | delete (address device : Address)
  | tick (seconds : UInt32)
  | anonymous (mode disable : Bool)
  | maxClients (count : UInt32)
  | validLifetime (seconds : UInt32)

namespace World

/-- A server entry as it is made. -/
def start (guaPrefix : Octets 8) (suffics : Octets 6) (temp : Allocated) : World :=
  ⟨libdhcpv6_gua_server_allocate guaPrefix suffics temp, fun _ => none⟩

/-- A reply tells the client its address and lifetime. -/
def told (w : World) (client : Client) (outcome : Option Allocated × Server) : World where
  server := outcome.2
  held := match outcome.1 with
    | none => w.held
    | some reply =>
        Function.update w.held client (some ⟨reply.nonTemporalAddress, reply.lifetime⟩)

def step (w : World) : Event → Option World
  | .allocate request stack memory =>
      (libdhcpv6_address_allocate w.server request stack memory).map (w.told request.client)
  | .delete address device =>
      some ⟨libdhcpv6_address_delete w.server address device,
        fun client => (w.held client).filter fun held => held.address ≠ address⟩
  | .tick seconds =>
      some ⟨libdhcpv6_gua_servers_time_update w.server seconds,
        fun client => (w.held client).bind (Held.later seconds)⟩
  | .anonymous mode disable =>
      some { w with
        server := DHCPv6_server_service_set_address_generation_anonymous w.server mode disable }
  | .maxClients count =>
      some { w with server := DHCPv6_server_service_set_max_clients_accepts_count w.server count }
  | .validLifetime seconds =>
      some { w with server := DHCPv6_server_service_set_address_validlifetime w.server seconds }

/-- A new lease finds memory and a free address, no infinite lease is aged, and the mode and
the limit fit the leases on the list.  The address list stays enabled. -/
def Orderly (w : World) : Event → Prop
  | .allocate request stack memory => w.server.Serves request stack memory
  | .tick seconds => seconds = 0 ∨ ∀ lease ∈ w.server.allocatedAddressList, lease.lifetime ≠ infinite
  | .anonymous mode disable =>
      (mode && disable) = false ∧
        (mode = w.server.anonymousAddress ∨ w.server.allocatedAddressList = [])
  | .maxClients count =>
      count ≠ 0 → count ≤ maxSupportedAddressListSize →
        w.server.allocatedAddressList.length ≤ count.toNat
  | _ => True

/-- What the clients hold is on the list. -/
structure Leased (w : World) : Prop where
  sound : w.server.Sound
  held : ∀ client held, w.held client = some held →
    ∃ lease ∈ w.server.allocatedAddressList, lease.client = client ∧
      w.server.address lease = some held.address ∧ lease.lifetime = held.lifetime

variable {w t : World} {request : Request} {stack : Octets 8} {memory : Bool}

theorem start_leased (guaPrefix : Octets 8) (suffics : Octets 6) (temp : Allocated) :
    (start guaPrefix suffics temp).Leased where
  sound := ⟨List.nodup_nil, by simp [start, libdhcpv6_gua_server_allocate], List.nodup_nil,
    by simp [start, libdhcpv6_gua_server_allocate], Nat.zero_le _, rfl⟩
  held := fun _ _ h => by cases h

theorem told_self (server : Server) (client : Client) (reply : Allocated) :
    (w.told client (some reply, server)).held client =
      some ⟨reply.nonTemporalAddress, reply.lifetime⟩ :=
  Function.update_self ..

theorem told_of_ne (outcome : Option Allocated × Server) {client other : Client}
    (hne : other ≠ client) : (w.told client outcome).held other = w.held other := by
  unfold told
  cases outcome.1 with
  | none => rfl
  | some reply => exact Function.update_of_ne hne ..

theorem Leased.allocate (h : w.Leased) (hserves : w.server.Serves request stack memory) :
    ∃ t, w.step (.allocate request stack memory) = some t ∧ t.Leased := by
  obtain ⟨reply, server, houtcome, hsound, haddress, hreply⟩ := h.sound.allocate hserves
  refine ⟨w.told request.client (reply, server), ?_, hsound, fun client held hheld => ?_⟩
  · unfold step
    dsimp only
    rw [houtcome]
    rfl
  rcases hreply with ⟨rfl, rfl, -⟩ | ⟨r, lease, rfl, hanswers⟩
  · exact h.held client held hheld
  by_cases hclient : client = request.client
  · subst hclient
    rw [told_self] at hheld
    obtain rfl := Option.some.inj hheld
    exact ⟨lease, hanswers.mem, hanswers.client, hanswers.address, hanswers.lifetime⟩
  · rw [told_of_ne _ hclient] at hheld
    obtain ⟨old, hold, rfl, holdAddress, hlifetime⟩ := h.held client held hheld
    exact ⟨old, hanswers.others old hold hclient, rfl, haddress ▸ holdAddress, hlifetime⟩

theorem Leased.tick {seconds : UInt32} (h : w.Leased)
    (hfinite : seconds = 0 ∨
      ∀ lease ∈ w.server.allocatedAddressList, lease.lifetime ≠ infinite) :
    Leased ⟨libdhcpv6_gua_servers_time_update w.server seconds,
      fun client => (w.held client).bind (Held.later seconds)⟩ := by
  refine ⟨h.sound.tick, fun client held hheld => ?_⟩
  obtain ⟨before, hbefore, hlater⟩ := Option.bind_eq_some_iff.mp hheld
  obtain ⟨lease, hlease, hclient, haddress, hlifetime⟩ := h.held client before hbefore
  have hage : ∃ aged, lease.age seconds = some aged ∧ aged.lifetime = held.lifetime ∧
      held.address = before.address := by
    unfold Held.later at hlater
    split at hlater
    next hinfinite =>
      obtain rfl := Option.some.inj hlater
      rcases hfinite with rfl | hfinite
      · have hpos : ¬ lease.lifetime ≤ 0 := by
          rw [hlifetime, hinfinite]
          decide
        refine ⟨_, if_neg hpos, ?_, rfl⟩
        show lease.lifetime - 0 = _
        rw [UInt32.sub_zero, hlifetime]
      · exact absurd (hlifetime.trans hinfinite) (hfinite lease hlease)
    next =>
      split at hlater
      · cases hlater
      next hle =>
        obtain rfl := Option.some.inj hlater
        rw [← hlifetime] at hle
        refine ⟨_, if_neg hle, ?_, rfl⟩
        show lease.lifetime - seconds = before.lifetime - seconds
        rw [hlifetime]
  obtain ⟨aged, haged, hagedLifetime, hsame⟩ := hage
  obtain ⟨hagedClient, htype, hid, hallocated, -⟩ := Lease.age_some haged
  refine ⟨aged, List.mem_filterMap.mpr ⟨lease, hlease, haged⟩, hagedClient.trans hclient, ?_,
    hagedLifetime⟩
  have : w.server.address aged = w.server.address lease := by
    unfold Server.address
    rw [Server.suffics_congr htype hid hallocated]
  rw [hsame]
  exact this.trans haddress

/-- **One event.**  It comes to an end, and keeps what the clients hold. -/
theorem Leased.step (h : w.Leased) (event : Event) (hc : w.Orderly event) :
    ∃ t, w.step event = some t ∧ t.Leased := by
  cases event with
  | allocate request stack memory => exact h.allocate hc
  | delete address device =>
      refine ⟨_, rfl, h.sound.delete, fun client held hheld => ?_⟩
      obtain ⟨hheld, hother⟩ := Option.filter_eq_some_iff.mp hheld
      obtain ⟨lease, hlease, hclient, haddress, hlifetime⟩ := h.held client held hheld
      refine ⟨lease, h.sound.mem_delete hlease fun heq => ?_, hclient, ?_, hlifetime⟩
      · rw [haddress] at heq
        simp [Option.some.inj heq] at hother
      · rw [delete_address]
        exact haddress
  | tick seconds => exact ⟨_, rfl, h.tick hc⟩
  | anonymous mode disable =>
      obtain ⟨henabled, hmode⟩ := hc
      refine ⟨_, rfl, ?_⟩
      rcases hmode with rfl | hempty
      · exact ⟨⟨h.sound.clients, h.sound.written, h.sound.addresses, h.sound.ids, h.sound.room,
          henabled⟩, h.held⟩
      · refine ⟨⟨h.sound.clients, ?_, ?_, ?_, h.sound.room, henabled⟩, fun client held hheld => ?_⟩
        all_goals
          simp [DHCPv6_server_service_set_address_generation_anonymous, hempty]
        obtain ⟨lease, hlease, -⟩ := h.held client held hheld
        rw [hempty] at hlease
        cases hlease
  | maxClients count =>
      refine ⟨_, rfl, ?_⟩
      unfold DHCPv6_server_service_set_max_clients_accepts_count
      split
      · exact h
      next hcount =>
        obtain ⟨hpos, hle⟩ := not_or.mp hcount
        exact ⟨⟨h.sound.clients, h.sound.written, h.sound.addresses, h.sound.ids,
          hc hpos (UInt32.not_lt.mp hle), h.sound.enabled⟩, h.held⟩
  | validLifetime seconds =>
      refine ⟨_, rfl, ?_⟩
      unfold DHCPv6_server_service_set_address_validlifetime
      split
      · exact h
      · exact ⟨⟨h.sound.clients, h.sound.written, h.sound.addresses, h.sound.ids, h.sound.room,
          h.sound.enabled⟩, h.held⟩

/-! ## All runs -/

/-- Addresses are listed and unique, renewed as they were, and as many as there may be; ids
are unique, and a new one is neither 0 nor listed. -/
structure Unique (w : World) : Prop where
  listed : ∀ client held, w.held client = some held →
    ∃ lease ∈ w.server.allocatedAddressList, lease.client = client ∧
      w.server.address lease = some held.address ∧ lease.lifetime = held.lifetime
  distinct : ∀ client other held held', client ≠ other → w.held client = some held →
    w.held other = some held' → held.address ≠ held'.address
  renewed : ∀ request stack memory held, w.held request.client = some held →
    ∃ reply server, libdhcpv6_address_allocate w.server request stack memory =
      some (some reply, server) ∧ reply.nonTemporalAddress = held.address
  room : w.server.allocatedAddressList.length ≤ w.server.maxSupportedClients.toNat
  ids : w.server.anonymousAddress = true →
    (∀ lease ∈ w.server.allocatedAddressList, lease.allocatedID ≠ 0) ∧
      (w.server.allocatedAddressList.map Lease.allocatedID).Nodup

theorem Leased.unique (h : w.Leased) : w.Unique where
  listed := h.held
  distinct := by
    intro client other held held' hne hheld hheld' heq
    obtain ⟨lease, hlease, rfl, haddress, -⟩ := h.held client held hheld
    obtain ⟨lease', hlease', rfl, haddress', -⟩ := h.held other held' hheld'
    refine h.sound.address_ne hlease hlease' hne ?_
    rw [haddress, haddress', heq]
  renewed := by
    intro request stack memory held hheld
    obtain ⟨lease, hlease, hclient, haddress, -⟩ := h.held request.client held hheld
    have hserves : w.server.Serves request stack memory :=
      fun hno _ _ => absurd hclient (hno lease hlease)
    obtain ⟨reply, server, houtcome, -, -, hreply⟩ := h.sound.allocate hserves
    rcases hreply with ⟨-, -, hno⟩ | ⟨r, answered, rfl, hanswers⟩
    · exact absurd hclient (hno lease hlease)
    · refine ⟨r, server, houtcome, Option.some.inj ?_⟩
      rw [← hanswers.same lease hlease hclient, haddress]
  room := h.sound.room
  ids := fun hanonymous => ⟨h.sound.ids hanonymous, h.sound.ids_nodup hanonymous⟩

/-- **Leases are unique.**  Every orderly run comes to its end: each search for an id ends
with one that is not 0 and not listed, addresses told to clients stay listed as long as they
last, no two clients have one, and a renewal returns it. -/
theorem leases_unique (guaPrefix : Octets 8) (suffics : Octets 6) (temp : Allocated)
    (events : List Event)
    (h : Runs.Meets step Orderly (start guaPrefix suffics temp) events) :
    ∃ w, Runs.run step (start guaPrefix suffics temp) events = some w ∧ w.Unique ∧
      ∀ request stack memory, w.server.anonymousAddress = true → request.allocateNew = true →
        w.server.allocatedAddressList.length < w.server.maxSupportedClients.toNat →
        (∀ lease ∈ w.server.allocatedAddressList, lease.client ≠ request.client) →
        w.Orderly (.allocate request stack memory) →
          ∃ id server, libdhcpv6_get_unique_id w.server = some (id, server) ∧ id ≠ 0 ∧
            ¬ Listed w.server.allocatedAddressList id := by
  have hall : ∀ (events : List Event) (w : World), w.Leased → Runs.Meets step Orderly w events →
      ∃ t, Runs.run step w events = some t ∧ t.Leased := by
    intro events
    induction events with
    | nil => exact fun w hw _ => ⟨w, rfl, hw⟩
    | cons event events ih =>
        rintro w hw ⟨hevent, hrest⟩
        obtain ⟨m, hm, hleased⟩ := hw.step event hevent
        obtain ⟨t, ht, htleased⟩ := ih m hleased (hrest m hm)
        exact ⟨t, Runs.run_cons_iff.mpr ⟨m, hm, ht⟩, htleased⟩
  obtain ⟨w, hw, hleased⟩ := hall events _ (start_leased guaPrefix suffics temp) h
  refine ⟨w, hw, hleased.unique, ?_⟩
  intro request stack memory hanonymous hnew hroom hno hserves
  have hfresh := (hserves hno hnew hroom).2
  unfold Server.Fresh at hfresh
  rw [if_pos hanonymous] at hfresh
  exact (unique_id_iff w.server).mpr hfresh

/-- A reply entry with nothing written yet. -/
def blank : Allocated :=
  ⟨⟨.replicate 8 0, .replicate 8 0⟩, .replicate 8 0, 0, 0, 0, 0, 0, 0⟩

/-- A server entry for the prefix `fd00::`. -/
def fresh : World := start #v[0xfd, 0, 0, 0, 0, 0, 0, 0] (.replicate 6 0) blank

/-- A solicit with this link type; the link id is all zero. -/
def solicit (linkType : UInt16) : Request :=
  ⟨.replicate 8 0, linkType, 1, 0, 0, true⟩

/-- Solicit, age and renew with anonymous addresses. -/
def renews : List Event :=
  [.anonymous true false, .allocate (solicit eui64Type) (.replicate 8 0) true, .tick 7199,
    .allocate (solicit eui64Type) (.replicate 8 0) true]

theorem leases_unique_renews :
    ∃ w, Runs.run step fresh renews = some w ∧ w.Unique ∧
      ∀ request stack memory, w.server.anonymousAddress = true → request.allocateNew = true →
        w.server.allocatedAddressList.length < w.server.maxSupportedClients.toNat →
        (∀ lease ∈ w.server.allocatedAddressList, lease.client ≠ request.client) →
        w.Orderly (.allocate request stack memory) →
          ∃ id server, libdhcpv6_get_unique_id w.server = some (id, server) ∧ id ≠ 0 ∧
            ¬ Listed w.server.allocatedAddressList id := by
  refine leases_unique _ _ blank renews ?_
  refine Runs.meets_cons ⟨rfl, .inr rfl⟩ rfl (Runs.meets_cons ?_ rfl (Runs.meets_cons ?_ rfl
    (Runs.meets_cons ?_ rfl trivial)))
  · exact fun _ _ _ => ⟨rfl, by decide, by decide, 0, rfl, fun j hj => absurd hj (Nat.not_lt_zero j)⟩
  · exact .inr (by decide)
  · have hlisted : (⟨.replicate 8 0, 1, 0, 0, 0, 1, eui64Type, 2⟩ : Lease).client = (solicit eui64Type).client :=
      rfl
    exact fun hno _ _ => absurd hlisted (hno _ (by decide))

/-- There is no memory for the entry of the address told. -/
def forgets : List Event := [.allocate (solicit eui64Type) (.replicate 8 0) false]

/-- An infinite lease runs out. -/
def ages : List Event :=
  [.validLifetime infinite, .allocate (solicit eui64Type) (.replicate 8 0) true, .tick infinite]

/-- Two types of link id give one address. -/
def clashes : List Event :=
  [.allocate (solicit eui64Type) (.replicate 8 0) true,
    .allocate (solicit ieee802Type) (.replicate 8 0) true]

/-- What these clients are told. -/
def sameHeld (lifetime : UInt32) : Held :=
  ⟨⟨#v[0xfd, 0, 0, 0, 0, 0, 0, 0], #v[2, 0, 0, 0, 0, 0, 0, 0]⟩, lifetime⟩

/-- In each of the three runs the addresses are not what they should be. -/
theorem leases_lost :
    (∃ w, Runs.run step fresh forgets = some w ∧
      w.held (solicit eui64Type).client = some (sameHeld 7200) ∧
      w.server.allocatedAddressList = []) ∧
    (∃ w, Runs.run step fresh ages = some w ∧
      w.held (solicit eui64Type).client = some (sameHeld infinite) ∧
      w.server.allocatedAddressList = []) ∧
    (∃ w, Runs.run step fresh clashes = some w ∧
      (solicit eui64Type).client ≠ (solicit ieee802Type).client ∧
      w.held (solicit eui64Type).client = some (sameHeld 7200) ∧
      w.held (solicit ieee802Type).client = some (sameHeld 7200)) := by
  refine ⟨⟨_, rfl, ?_, ?_⟩, ⟨_, rfl, ?_, ?_⟩, ⟨_, rfl, ?_, ?_, ?_⟩⟩
  all_goals decide

end World

end Dhcp
