import WisunModem.DhcpReaders

/-!
# Solicit and Request messages

`libdhcpv6_generic_nontemporal_address_message_write` writes the message of a client, for
which `libdhcpv6_solication_message_length` or `libdhcpv6_address_request_message_len` has
announced the length.  The message is a header and a list of options, in which the readers
find what was written.
-/

namespace DhcpMsg

/-! ## Options in a list -/

/-- Options one after the other. -/
def flat (os : List (Nat × List UInt8)) : List UInt8 :=
  (os.map fun o => option o.1 o.2).flatten

/-- Types and lengths are of 16 bits. -/
def Encodable (os : List (Nat × List UInt8)) : Prop :=
  ∀ o ∈ os, o.1 < 65536 ∧ o.2.length < 65536

@[simp] theorem flat_nil : flat [] = [] := rfl

@[simp] theorem flat_cons (o : Nat × List UInt8) (os : List (Nat × List UInt8)) :
    flat (o :: os) = option o.1 o.2 ++ flat os := rfl

theorem Encodable.tail {o : Nat × List UInt8} {os : List (Nat × List UInt8)}
    (h : Encodable (o :: os)) : Encodable os :=
  fun o' ho' => h o' (List.mem_cons_of_mem o ho')

/-- The first option of a type is found where it is. -/
theorem discover_first (type : Nat) {octets : List UInt8} (e : List UInt8)
    {os : List (Nat × List UInt8)} :
    ∀ (a : List UInt8) (fuel : Nat), Encodable os → (flat os).length ≤ fuel →
      (os.find? fun o => o.1 == type) = some (type, octets) →
      ∃ pre post, a ++ flat os ++ e = pre ++ octets ++ post ∧
        discover (a ++ flat os ++ e) type fuel a.length (flat os).length =
          .ok (some ⟨pre.length, octets.length⟩) := by
  induction os with
  | nil =>
      intro a fuel _ _ hfind
      cases hfind
  | cons o os ih =>
      intro a fuel henc hfuel hfind
      obtain ⟨htype, hlength⟩ := henc o List.mem_cons_self
      simp only [flat_cons, List.length_append, length_option] at hfuel ⊢
      have hassoc : a ++ (option o.1 o.2 ++ flat os) ++ e =
          a ++ option o.1 o.2 ++ (flat os ++ e) := by simp only [List.append_assoc]
      by_cases hsame : o.1 = type
      · rw [List.find?_cons_of_pos (by simpa using hsame)] at hfind
        cases hfind
        dsimp only at htype hlength hfuel hassoc ⊢
        refine ⟨a ++ write16 type ++ write16 octets.length, flat os ++ e, ?_, ?_⟩
        · simp only [option, List.append_assoc]
        · rw [hassoc, discover_here a octets _ fuel _ htype hlength (by omega) (by omega)]
          simp [write16]
      · rw [List.find?_cons_of_neg (by simpa using hsame)] at hfind
        obtain ⟨fuel, rfl⟩ : ∃ f, fuel = f + 1 := ⟨fuel - 1, by omega⟩
        obtain ⟨pre, post, heq, hfound⟩ :=
          ih (a ++ option o.1 o.2) fuel henc.tail (by omega) hfind
        refine ⟨pre, post, ?_, ?_⟩
        · rw [← heq]
          simp only [List.append_assoc]
        · rw [hassoc, discover_past a o.2 _ type fuel _ htype hsame hlength (by omega),
            Nat.add_sub_cancel_left, ← hfound]
          simp only [List.append_assoc]

/-- And none is found where there is none. -/
theorem discover_absent (type : Nat) (e : List UInt8) {os : List (Nat × List UInt8)} :
    ∀ (a : List UInt8) (fuel : Nat), Encodable os → (flat os).length ≤ fuel →
      (∀ o ∈ os, o.1 ≠ type) →
      discover (a ++ flat os ++ e) type fuel a.length (flat os).length = .ok none := by
  induction os with
  | nil =>
      intro a fuel _ _ _
      cases fuel with
      | zero => rfl
      | succ fuel => rfl
  | cons o os ih =>
      intro a fuel henc hfuel habsent
      obtain ⟨htype, hlength⟩ := henc o List.mem_cons_self
      have hother := habsent o List.mem_cons_self
      simp only [flat_cons, List.length_append, length_option] at hfuel ⊢
      have hassoc : a ++ (option o.1 o.2 ++ flat os) ++ e =
          a ++ option o.1 o.2 ++ (flat os ++ e) := by simp only [List.append_assoc]
      obtain ⟨fuel, rfl⟩ : ∃ f, fuel = f + 1 := ⟨fuel - 1, by omega⟩
      have hrest := ih (a ++ option o.1 o.2) fuel henc.tail (by omega)
        fun o' ho' => habsent o' (List.mem_cons_of_mem o ho')
      rw [hassoc, discover_past a o.2 _ type fuel _ htype hother hlength (by omega),
        Nat.add_sub_cancel_left, ← hrest]
      simp only [List.append_assoc]

/-! ## Numbers and octets that were written -/

/-- `common_write_24_bit` -/
def write24 (n : Nat) : List UInt8 := UInt8.ofNat (n / 65536) :: write16 n

/-- `common_write_32_bit` -/
def write32 (n : Nat) : List UInt8 := write16 (n / 65536) ++ write16 n

/-- `common_read_24_bit` -/
def read24 (d : List UInt8) (p : Nat) : Except Fault Nat := do
  let high ← byte d p
  let low ← read16 d (p + 1)
  return 65536 * high.toNat + low

@[simp] theorem length_write16 (n : Nat) : (write16 n).length = 2 := rfl

@[simp] theorem length_write32 (n : Nat) : (write32 n).length = 4 := rfl

theorem read32_write32 (a e : List UInt8) (n : UInt32) :
    read32 (a ++ write32 n.toNat ++ e) a.length = .ok n.toNat := by
  have hlt := n.toNat_lt
  have hhigh : read16 (a ++ write32 n.toNat ++ e) a.length = .ok (n.toNat / 65536) := by
    have h := read16_write16 (a := a) (e := write16 n.toNat ++ e)
      (show n.toNat / 65536 < 65536 by omega)
    simpa [write32] using h
  have hlow : read16 (a ++ write32 n.toNat ++ e) (a.length + 2) = .ok (n.toNat % 65536) := by
    have h := read16_write16 (a := a ++ write16 (n.toNat / 65536)) (e := e)
      (show n.toNat % 65536 < 65536 by omega)
    have hmod : write16 (n.toNat % 65536) = write16 n.toNat := by
      unfold write16
      congr 1
      · apply UInt8.toNat_inj.mp
        rw [UInt8.toNat_ofNat', UInt8.toNat_ofNat']
        omega
      · congr 1
        apply UInt8.toNat_inj.mp
        rw [UInt8.toNat_ofNat', UInt8.toNat_ofNat']
        omega
    rw [hmod] at h
    simpa [write32] using h
  rw [read32, hhigh, hlow]
  show Except.ok (65536 * (n.toNat / 65536) + n.toNat % 65536) = Except.ok n.toNat
  rw [Nat.div_add_mod]

theorem copy_middle (a bs e : List UInt8) :
    copy (a ++ bs ++ e) a.length bs.length = .ok bs := by
  rw [copy_ok (by simp), List.append_assoc, List.drop_left, List.take_left]

theorem length_of_copy {d bs : List UInt8} {p n : Nat} (h : copy d p n = .ok bs) :
    bs.length = n := by
  induction n generalizing p bs with
  | zero =>
      cases h
      rfl
  | succ n ih =>
      rw [copy] at h
      cases hb : byte d p with
      | error e =>
          rw [hb] at h
          cases h
      | ok b =>
          cases hbs : copy d (p + 1) n with
          | error e =>
              rw [hb, hbs] at h
              cases h
          | ok bs' =>
              rw [hb, hbs] at h
              cases h
              rw [List.length_cons, ih hbs]

/-! ## The message of a client -/

/-- `dhcp_duid_options_params_t` of an identifier that is written; its length is of 16 bits. -/
structure Duid where
  type : UInt16
  duid : List UInt8
  short : duid.length < 65536

/-- `dhcpv6_solication_base_packet_s`; the number of options is a byte. -/
structure SolicitPacket where
  messageType : UInt8
  transActionId : UInt32
  clientDUID : Duid
  iaID : UInt32
  timerT0 : UInt32
  timerT1 : UInt32
  requestedOptionList : List UInt16
  few : requestedOptionList.length < 256

/-- `dhcpv6_ia_non_temporal_address_s` -/
structure NonTemporalAddress where
  requestedAddress : Address
  preferredLifeTime : UInt32
  validLifeTime : UInt32

/-- `libdhcpv6_duid_option_size` -/
def libdhcpv6_duid_option_size (duidLength : Nat) : Nat := (duidLength + 6) % 65536

/-- `libdhcvp6_request_option_size` -/
def libdhcvp6_request_option_size (optionCnt : Nat) : Nat := 4 + 2 * optionCnt

/-- `libdhcpv6_non_temporal_address_size` -/
def libdhcpv6_non_temporal_address_size (addressDefined : Bool) : Nat :=
  if addressDefined then 16 + 28 else 16

/-- `libdhcpv6_solication_message_length`, in 16 bits. -/
def libdhcpv6_solication_message_length (clientDUIDLength : Nat) (addressDefined : Bool)
    (requestOptionCount : Nat) : Nat :=
  (4 + 6 + 4 + libdhcpv6_duid_option_size clientDUIDLength +
    libdhcpv6_non_temporal_address_size addressDefined +
    libdhcvp6_request_option_size requestOptionCount) % 65536

/-- `libdhcpv6_address_request_message_len`, in 16 bits. -/
def libdhcpv6_address_request_message_len (clientDUIDLength serverDUIDLength
    requstOptionCnt : Nat) (add_address : Bool) : Nat :=
  (4 + 6 + libdhcpv6_duid_option_size clientDUIDLength +
    libdhcpv6_duid_option_size serverDUIDLength + libdhcvp6_request_option_size requstOptionCnt +
    4 + libdhcpv6_non_temporal_address_size add_address) % 65536

def libdhcpv6_header_write (msgType : UInt8) (transActionId : UInt32) : List UInt8 :=
  msgType :: write24 transActionId.toNat

def libdhcpv6_elapsed_time_option_write (elapsedTime : Nat) : List UInt8 :=
  write16 elapsedTimeOption ++ write16 2 ++ write16 elapsedTime

def libdhcpv6_duid_option_write (duidRole : Nat) (duid : Duid) : List UInt8 :=
  write16 duidRole ++ write16 (duid.duid.length + 2) ++ (write16 duid.type.toNat ++ duid.duid)

def libdhcpv6_rapid_commit_option_write : List UInt8 := write16 0x000e ++ write16 0

def libdhcvp6_request_option_write (options : List UInt16) : List UInt8 :=
  write16 0x0006 ++ write16 (libdhcvp6_request_option_size options.length - 4) ++
    options.flatMap fun o => write16 o.toNat

def libdhcpv6_identity_association_option_write (iaID TimerT1 TimerT2 : UInt32)
    (withAddress : Bool) : List UInt8 :=
  write16 identityAssociationOption ++
    write16 (libdhcpv6_non_temporal_address_size withAddress - 4) ++
    (write32 iaID.toNat ++ write32 TimerT1.toNat ++ write32 TimerT2.toNat)

def libdhcpv6_ia_address_option_write (address : NonTemporalAddress) : List UInt8 :=
  write16 iaAddressOption ++ write16 24 ++
    (address.requestedAddress.toList ++ write32 address.preferredLifeTime.toNat ++
      write32 address.validLifeTime.toNat)

def libdhcpv6_generic_nontemporal_address_message_write (packet : SolicitPacket)
    (nonTemporalAddress : Option NonTemporalAddress) (serverLink : Option Duid) : List UInt8 :=
  libdhcpv6_header_write packet.messageType packet.transActionId ++
    libdhcpv6_elapsed_time_option_write 0 ++
    libdhcpv6_duid_option_write clientIdOption packet.clientDUID ++
    (match serverLink with
      | some serverLink => libdhcpv6_duid_option_write serverIdOption serverLink
      | none => []) ++
    libdhcpv6_rapid_commit_option_write ++
    libdhcvp6_request_option_write packet.requestedOptionList ++
    libdhcpv6_identity_association_option_write packet.iaID packet.timerT0 packet.timerT1
      nonTemporalAddress.isSome ++
    match nonTemporalAddress with
    | some address => libdhcpv6_ia_address_option_write address
    | none => []

/-- The length that is announced for a message. -/
def announcedLength (packet : SolicitPacket) (address : Option NonTemporalAddress)
    (server : Option Duid) : Nat :=
  match server with
  | none =>
      libdhcpv6_solication_message_length packet.clientDUID.duid.length address.isSome
        packet.requestedOptionList.length
  | some server =>
      libdhcpv6_address_request_message_len packet.clientDUID.duid.length server.duid.length
        packet.requestedOptionList.length address.isSome

/-! ## The message as options -/

/-- What an identifier option carries. -/
def Duid.octets (duid : Duid) : List UInt8 := write16 duid.type.toNat ++ duid.duid

/-- The options in an identity association. -/
def addressOptions : Option NonTemporalAddress → List (Nat × List UInt8)
  | none => []
  | some address =>
      [(iaAddressOption, address.requestedAddress.toList ++
        write32 address.preferredLifeTime.toNat ++ write32 address.validLifeTime.toNat)]

/-- What an identity association carries. -/
def associationOctets (packet : SolicitPacket) (address : Option NonTemporalAddress) :
    List UInt8 :=
  write32 packet.iaID.toNat ++ write32 packet.timerT0.toNat ++ write32 packet.timerT1.toNat ++
    flat (addressOptions address)

def serverOptions : Option Duid → List (Nat × List UInt8)
  | none => []
  | some server => [(serverIdOption, server.octets)]

/-- The options of a message. -/
def messageOptions (packet : SolicitPacket) (address : Option NonTemporalAddress)
    (server : Option Duid) : List (Nat × List UInt8) :=
  (elapsedTimeOption, write16 0) :: (clientIdOption, packet.clientDUID.octets) ::
    (serverOptions server ++
      [(0x000e, []), (0x0006, packet.requestedOptionList.flatMap fun o => write16 o.toNat),
        (identityAssociationOption, associationOctets packet address)])

@[simp] theorem length_flatMap_write16 (options : List UInt16) :
    (options.flatMap fun o => write16 o.toNat).length = 2 * options.length := by
  induction options with
  | nil => rfl
  | cons o options ih =>
      rw [List.flatMap_cons, List.length_append, ih, length_write16, List.length_cons]
      omega

@[simp] theorem length_octets (duid : Duid) : duid.octets.length = duid.duid.length + 2 := by
  rw [Duid.octets, List.length_append, length_write16, Nat.add_comm]

theorem length_associationOctets (packet : SolicitPacket)
    (address : Option NonTemporalAddress) :
    (associationOctets packet address).length =
      libdhcpv6_non_temporal_address_size address.isSome - 4 := by
  cases address with
  | none => rfl
  | some address =>
      simp [associationOctets, addressOptions, flat, libdhcpv6_non_temporal_address_size]

theorem duid_option_eq (duidRole : Nat) (duid : Duid) :
    libdhcpv6_duid_option_write duidRole duid = option duidRole duid.octets := by
  rw [option, length_octets]
  rfl

theorem request_option_eq (options : List UInt16) :
    libdhcvp6_request_option_write options =
      option 0x0006 (options.flatMap fun o => write16 o.toNat) := by
  rw [option, length_flatMap_write16, libdhcvp6_request_option_write,
    libdhcvp6_request_option_size, Nat.add_sub_cancel_left]

/-- The association is written with the length of the address that follows it. -/
theorem association_option_eq (packet : SolicitPacket) (address : Option NonTemporalAddress) :
    libdhcpv6_identity_association_option_write packet.iaID packet.timerT0 packet.timerT1
        address.isSome ++
      (match address with
        | some address => libdhcpv6_ia_address_option_write address
        | none => []) =
      option identityAssociationOption (associationOctets packet address) := by
  rw [option, length_associationOctets, libdhcpv6_identity_association_option_write,
    associationOctets]
  cases address with
  | none => simp [addressOptions, flat]
  | some address =>
      have hlength : (address.requestedAddress.toList ++
          (write32 address.preferredLifeTime.toNat ++
            write32 address.validLifeTime.toNat)).length = 24 := by simp
      simp only [addressOptions, flat, option, libdhcpv6_ia_address_option_write, hlength,
        List.append_assoc, List.map_cons, List.map_nil, List.flatten_cons, List.flatten_nil,
        List.append_nil]

/-- **The message** is its header and its options. -/
theorem message_eq (packet : SolicitPacket) (address : Option NonTemporalAddress)
    (server : Option Duid) :
    libdhcpv6_generic_nontemporal_address_message_write packet address server =
      libdhcpv6_header_write packet.messageType packet.transActionId ++
        flat (messageOptions packet address server) := by
  have hassociation := association_option_eq packet address
  have hserver : (match server with
      | some serverLink => libdhcpv6_duid_option_write serverIdOption serverLink
      | none => []) = flat (serverOptions server) := by
    cases server with
    | none => rfl
    | some server => simp [flat, serverOptions, duid_option_eq]
  unfold libdhcpv6_generic_nontemporal_address_message_write
  rw [hserver, List.append_assoc _ _ (match address with
    | some address => libdhcpv6_ia_address_option_write address
    | none => []), hassociation, duid_option_eq, request_option_eq]
  simp only [messageOptions, flat, List.map_cons, List.map_append, List.map_nil,
    List.flatten_cons, List.flatten_append, List.flatten_nil, List.append_nil, List.append_assoc]
  rfl

/-- The identifier is one that the readers take. -/
def Duid.Valid (duid : Duid) : Prop :=
  libdhcpv6_duid_length_validate duid.type.toNat duid.duid.length = true

theorem Duid.Valid.bounds {duid : Duid} (h : duid.Valid) :
    3 ≤ duid.duid.length ∧ duid.duid.length ≤ 125 := by
  unfold Duid.Valid libdhcpv6_duid_length_validate at h
  dsimp only at h
  split at h
  · cases h
  · rename_i min_length hmin
    simp only [Bool.and_eq_true, decide_eq_true_eq] at h
    split at hmin
    · cases hmin
      omega
    · cases hmin
      omega
    · cases hmin
      omega
    · split at hmin
      · cases hmin
        omega
      · cases hmin
    · cases hmin

/-- The identifiers of a message are valid. -/
def ValidDuids (packet : SolicitPacket) (server : Option Duid) : Prop :=
  packet.clientDUID.Valid ∧ ∀ duid, server = some duid → duid.Valid

theorem length_flat_cons (o : Nat × List UInt8) (os : List (Nat × List UInt8)) :
    (flat (o :: os)).length = o.2.length + 4 + (flat os).length := by
  rw [flat_cons, List.length_append, length_option]

/-- The length of a message: the header, and each option with its own. -/
theorem length_message (packet : SolicitPacket) (address : Option NonTemporalAddress)
    (server : Option Duid) :
    (libdhcpv6_generic_nontemporal_address_message_write packet address server).length =
      18 + (packet.clientDUID.duid.length + 6) + (server.elim 0 fun duid => duid.duid.length + 6) +
        2 * packet.requestedOptionList.length +
        libdhcpv6_non_temporal_address_size address.isSome := by
  have hassociation := length_associationOctets packet address
  have hheader : (libdhcpv6_header_write packet.messageType packet.transActionId).length = 4 := rfl
  have hsize : 4 ≤ libdhcpv6_non_temporal_address_size address.isSome := by
    unfold libdhcpv6_non_temporal_address_size
    split <;> omega
  rw [message_eq, List.length_append, hheader, messageOptions]
  cases server with
  | none =>
      simp only [serverOptions, List.nil_append, length_flat_cons, length_octets, hassociation,
        length_flatMap_write16, length_write16, List.length_nil, flat_nil, Option.elim_none]
      omega
  | some server =>
      simp only [serverOptions, List.cons_append, List.nil_append, length_flat_cons,
        length_octets, hassociation, length_flatMap_write16, length_write16, List.length_nil,
        flat_nil, Option.elim_some]
      omega

/-- The length that is announced is the true one, in 16 bits. -/
theorem announcedLength_eq (packet : SolicitPacket) (address : Option NonTemporalAddress)
    (server : Option Duid) :
    announcedLength packet address server =
      (libdhcpv6_generic_nontemporal_address_message_write packet address server).length %
        65536 := by
  rw [length_message]
  unfold announcedLength
  cases server with
  | none =>
      dsimp only [Option.elim_none]
      unfold libdhcpv6_solication_message_length libdhcpv6_duid_option_size
        libdhcvp6_request_option_size
      omega
  | some server =>
      dsimp only [Option.elim_some]
      unfold libdhcpv6_address_request_message_len libdhcpv6_duid_option_size
        libdhcvp6_request_option_size
      omega

/-! ## What the readers find -/

section

variable {packet : SolicitPacket} {address : Option NonTemporalAddress} {server : Option Duid}

theorem encodable_message (address : Option NonTemporalAddress) (h : ValidDuids packet server) :
    Encodable (messageOptions packet address server) := by
  have hassociation := length_associationOctets packet address
  have hclient := h.1.bounds
  have hfew := packet.few
  intro o ho
  simp only [messageOptions, List.mem_cons, List.mem_append, List.not_mem_nil, or_false] at ho
  rcases ho with rfl | rfl | hserver | rfl | rfl | rfl
  · exact ⟨by decide, by decide⟩
  · exact ⟨show clientIdOption < 65536 by decide, by rw [length_octets]; omega⟩
  · cases server with
    | none => cases hserver
    | some server =>
        obtain rfl := List.mem_singleton.mp hserver
        have hbounds := (h.2 server rfl).bounds
        exact ⟨show serverIdOption < 65536 by decide, by rw [length_octets]; omega⟩
  · exact ⟨by decide, by decide⟩
  · exact ⟨show 6 < 65536 by decide, by rw [length_flatMap_write16]; omega⟩
  · refine ⟨show identityAssociationOption < 65536 by decide, ?_⟩
    rw [hassociation]
    unfold libdhcpv6_non_temporal_address_size
    split <;> omega

/-- A reader of the options of a message looks at them after the header. -/
theorem discover_message (address : Option NonTemporalAddress) (h : ValidDuids packet server)
    (type : Nat) (octets : List UInt8)
    (hfind : ((messageOptions packet address server).find? fun o => o.1 == type) =
      some (type, octets)) :
    ∃ pre post,
      libdhcpv6_generic_nontemporal_address_message_write packet address server =
        pre ++ octets ++ post ∧
      libdhcpv6_message_option_discover
        (libdhcpv6_generic_nontemporal_address_message_write packet address server) 4
        ((libdhcpv6_generic_nontemporal_address_message_write packet address server).length - 4)
        type = .ok (some ⟨pre.length, octets.length⟩) := by
  obtain ⟨pre, post, heq, hfound⟩ := discover_first type []
    (libdhcpv6_header_write packet.messageType packet.transActionId) _
    (encodable_message address h) (Nat.le_refl _) hfind
  rw [List.append_nil] at heq hfound
  refine ⟨pre, post, (message_eq packet address server).trans heq, ?_⟩
  have hheader : (libdhcpv6_header_write packet.messageType packet.transActionId).length = 4 := rfl
  rw [libdhcpv6_message_option_discover, message_eq, List.length_append, hheader,
    Nat.add_sub_cancel_left]
  exact hfound

theorem discover_message_absent (address : Option NonTemporalAddress)
    (h : ValidDuids packet server) (type : Nat)
    (habsent : ∀ o ∈ messageOptions packet address server, o.1 ≠ type) :
    libdhcpv6_message_option_discover
      (libdhcpv6_generic_nontemporal_address_message_write packet address server) 4
      ((libdhcpv6_generic_nontemporal_address_message_write packet address server).length - 4)
      type = .ok none := by
  have hfound := discover_absent type []
    (libdhcpv6_header_write packet.messageType packet.transActionId) _
    (encodable_message address h) (Nat.le_refl _) habsent
  rw [List.append_nil] at hfound
  have hheader : (libdhcpv6_header_write packet.messageType packet.transActionId).length = 4 := rfl
  rw [libdhcpv6_message_option_discover, message_eq, List.length_append, hheader,
    Nat.add_sub_cancel_left]
  exact hfound

/-- The reader takes an identifier from a message. -/
def ReadsDuid (m : List UInt8) (type : Nat) (duid : Duid) : Prop :=
  ∃ params, libdhcpv6_get_duid_by_selected_type_id_opt m 4 (m.length - 4) type =
      .ok (some params) ∧ params.type = duid.type.toNat ∧
    copy m params.duid params.duid_length = .ok duid.duid

theorem reads_duid {m : List UInt8} {type : Nat} {duid : Duid} (hvalid : duid.Valid)
    {pre post : List UInt8} (heq : m = pre ++ duid.octets ++ post)
    (hfound : libdhcpv6_message_option_discover m 4 (m.length - 4) type =
      .ok (some ⟨pre.length, duid.octets.length⟩)) : ReadsDuid m type duid := by
  have hbounds := hvalid.bounds
  have htype : read16 m pre.length = .ok duid.type.toNat := by
    have h := read16_write16 (a := pre) (e := duid.duid ++ post) duid.type.toNat_lt
    rw [heq, Duid.octets]
    simpa only [List.append_assoc] using h
  have hcopy : copy m (pre.length + 2) duid.duid.length = .ok duid.duid := by
    have h := copy_middle (pre ++ write16 duid.type.toNat) duid.duid post
    rw [heq, Duid.octets]
    simpa only [List.append_assoc, List.length_append, length_write16] using h
  refine ⟨⟨duid.type.toNat, duid.duid.length, pre.length + 2⟩, ?_, rfl, hcopy⟩
  rw [libdhcpv6_get_duid_by_selected_type_id_opt, hfound]
  show (if duid.octets.length < 5 then _ else _) = _
  rw [length_octets, if_neg (by omega)]
  show (read16 m pre.length >>= _) = _
  rw [htype]
  show (if libdhcpv6_duid_length_validate duid.type.toNat (duid.duid.length + 2 - 2) then _
    else _) = _
  rw [Duid.Valid] at hvalid
  rw [Nat.add_sub_cancel, if_pos hvalid]
  rfl

/-- What is read as an identifier has been validated. -/
theorem ReadsDuid.valid {m : List UInt8} {type : Nat} {duid : Duid} (hlong : 4 ≤ m.length)
    (h : ReadsDuid m type duid) : duid.Valid := by
  obtain ⟨params, hread, htype, hcopy⟩ := h
  obtain ⟨hvalid, -⟩ := (duid_inside type (show 4 + (m.length - 4) ≤ m.length by omega)).of_eq
    hread params rfl
  rw [Duid.Valid, ← htype, length_of_copy hcopy]
  exact hvalid

/-- The reader takes the identity association from a message. -/
def ReadsAssociation (m : List UInt8) (packet : SolicitPacket)
    (address : Option NonTemporalAddress) : Prop :=
  ∃ params, libdhcpv6_get_IA_address m 4 (m.length - 4) = .ok (some params) ∧
    params.iaId = packet.iaID.toNat ∧ params.T0 = packet.timerT0.toNat ∧
    params.T1 = packet.timerT1.toNat ∧
    match address with
    | none => params.nonTemporalAddress = none
    | some address =>
        params.preferredValidLifeTime = address.preferredLifeTime.toNat ∧
        params.validLifeTime = address.validLifeTime.toNat ∧
        ∃ place, params.nonTemporalAddress = some place ∧
          copy m place 16 = .ok address.requestedAddress.toList

/-- An address is found among the options of its association. -/
theorem iaOptions_reads {m : List UInt8} (a post : List UInt8) (address : NonTemporalAddress)
    (iaId T0 T1 : Nat) (heq : m = a ++ flat (addressOptions (some address)) ++ post) :
    ∃ place, iaOptions m a.length 28 iaId T0 T1 =
        .ok (some ⟨iaId, T0, T1, some place, address.preferredLifeTime.toNat,
          address.validLifeTime.toNat⟩) ∧
      copy m place 16 = .ok address.requestedAddress.toList := by
  have hsize : (address.requestedAddress.toList ++ write32 address.preferredLifeTime.toNat ++
      write32 address.validLifeTime.toNat).length = 24 := by simp
  have hlength : (flat (addressOptions (some address))).length = 28 := by
    rw [addressOptions, length_flat_cons, hsize]
    rfl
  have henc : Encodable (addressOptions (some address)) := by
    intro o ho
    obtain rfl := List.mem_singleton.mp ho
    exact ⟨show iaAddressOption < 65536 by decide, by rw [hsize]; decide⟩
  have hstatus := discover_absent statusCodeOption post a _ henc
    (Nat.le_refl _) (by
      intro o ho
      obtain rfl := List.mem_singleton.mp ho
      exact show iaAddressOption ≠ statusCodeOption by decide)
  obtain ⟨pre, rest, hplace, hfound⟩ := discover_first iaAddressOption post a _ henc
    (Nat.le_refl _) (List.find?_cons_of_pos (by rfl))
  rw [hlength, ← heq] at hstatus hfound
  rw [← heq] at hplace
  have hpreferred : read32 m (pre.length + 16) = .ok address.preferredLifeTime.toNat := by
    have h := read32_write32 (pre ++ address.requestedAddress.toList)
      (write32 address.validLifeTime.toNat ++ rest) address.preferredLifeTime
    rw [hplace]
    simpa only [List.append_assoc, List.length_append, Vector.length_toList] using h
  have hvalid : read32 m (pre.length + 20) = .ok address.validLifeTime.toNat := by
    have h := read32_write32 (pre ++ address.requestedAddress.toList ++
      write32 address.preferredLifeTime.toNat) rest address.validLifeTime
    rw [hplace]
    simpa only [List.append_assoc, List.length_append, Vector.length_toList, length_write32,
      Nat.add_assoc] using h
  have hcopy : copy m pre.length 16 = .ok address.requestedAddress.toList := by
    have h := copy_middle pre address.requestedAddress.toList
      (write32 address.preferredLifeTime.toNat ++ write32 address.validLifeTime.toNat ++ rest)
    rw [hplace]
    simpa only [List.append_assoc, Vector.length_toList] using h
  refine ⟨pre.length, ?_, hcopy⟩
  rw [iaOptions, statusCode, libdhcpv6_message_option_discover, hstatus,
    libdhcpv6_message_option_discover, hfound, hsize]
  show (read32 m (pre.length + 16) >>= fun preferred => read32 m (pre.length + 20) >>= fun valid =>
    pure (some (IaParams.mk iaId T0 T1 (some pre.length) preferred valid))) = _
  rw [hpreferred, hvalid]
  rfl

/-- **The association** is read as it was written. -/
theorem reads_association (h : ValidDuids packet server) :
    ReadsAssociation
      (libdhcpv6_generic_nontemporal_address_message_write packet address server) packet
      address := by
  have hstatus := discover_message_absent address h statusCodeOption (by
    intro o ho
    simp only [messageOptions, List.mem_cons, List.mem_append, List.not_mem_nil, or_false] at ho
    rcases ho with rfl | rfl | hserver | rfl | rfl | rfl
    · exact show elapsedTimeOption ≠ statusCodeOption by decide
    · exact show clientIdOption ≠ statusCodeOption by decide
    · cases server with
      | none => cases hserver
      | some server =>
          obtain rfl := List.mem_singleton.mp hserver
          exact show serverIdOption ≠ statusCodeOption by decide
    · exact show 14 ≠ statusCodeOption by decide
    · exact show 6 ≠ statusCodeOption by decide
    · exact show identityAssociationOption ≠ statusCodeOption by decide)
  obtain ⟨pre, post, heq, hfound⟩ := discover_message address h
    identityAssociationOption (associationOctets packet address) (by
      cases server with
      | none => rfl
      | some server => rfl)
  generalize libdhcpv6_generic_nontemporal_address_message_write packet address server = m at *
  have hid : read32 m pre.length = .ok packet.iaID.toNat := by
    have hread := read32_write32 pre (write32 packet.timerT0.toNat ++
      write32 packet.timerT1.toNat ++ flat (addressOptions address) ++ post) packet.iaID
    rw [heq, associationOctets]
    simpa only [List.append_assoc] using hread
  have hT0 : read32 m (pre.length + 4) = .ok packet.timerT0.toNat := by
    have hread := read32_write32 (pre ++ write32 packet.iaID.toNat)
      (write32 packet.timerT1.toNat ++ flat (addressOptions address) ++ post) packet.timerT0
    rw [heq, associationOctets]
    simpa only [List.append_assoc, List.length_append, length_write32] using hread
  have hT1 : read32 m (pre.length + 8) = .ok packet.timerT1.toNat := by
    have hread := read32_write32 (pre ++ write32 packet.iaID.toNat ++
      write32 packet.timerT0.toNat) (flat (addressOptions address) ++ post) packet.timerT1
    rw [heq, associationOctets]
    simpa only [List.append_assoc, List.length_append, length_write32, Nat.add_assoc] using hread
  have hsize := length_associationOctets packet address
  have hlong : 12 ≤ (associationOctets packet address).length := by
    rw [hsize]
    unfold libdhcpv6_non_temporal_address_size
    split <;> omega
  have hread : libdhcpv6_get_IA_address m 4 (m.length - 4) =
      if (associationOctets packet address).length - 12 > 4 then
        iaOptions m (pre.length + 12) ((associationOctets packet address).length - 12)
          packet.iaID.toNat packet.timerT0.toNat packet.timerT1.toNat
      else if (associationOctets packet address).length - 12 = 0 then
        .ok (some ⟨packet.iaID.toNat, packet.timerT0.toNat, packet.timerT1.toNat, none, 0, 0⟩)
      else .ok none := by
    rw [libdhcpv6_get_IA_address, statusCode, hstatus]
    show (libdhcpv6_message_option_discover m 4 (m.length - 4) identityAssociationOption >>= _) = _
    rw [hfound]
    show (if (associationOctets packet address).length < 12 then
      (Except.ok none : Except Fault (Option IaParams)) else read32 m pre.length >>= _) = _
    rw [if_neg (Nat.not_lt.mpr hlong)]
    rw [hid]
    show (read32 m (pre.length + 4) >>= _) = _
    rw [hT0]
    show (read32 m (pre.length + 8) >>= _) = _
    rw [hT1]
    rfl
  rw [ReadsAssociation, hread, hsize]
  cases address with
  | none => exact ⟨_, rfl, rfl, rfl, rfl, rfl⟩
  | some address =>
      obtain ⟨place, hread', hcopy⟩ := iaOptions_reads (m := m)
        (pre ++ write32 packet.iaID.toNat ++ write32 packet.timerT0.toNat ++
          write32 packet.timerT1.toNat) post address packet.iaID.toNat packet.timerT0.toNat
        packet.timerT1.toNat (by rw [heq, associationOctets]; simp only [List.append_assoc])
      simp only [List.length_append, length_write32] at hread'
      exact ⟨_, hread', rfl, rfl, rfl, rfl, rfl, place, rfl, hcopy⟩

end

/-- A message gives back what it was made of. -/
structure Recovered (packet : SolicitPacket) (address : Option NonTemporalAddress)
    (server : Option Duid) (m : List UInt8) : Prop where
  length : m.length = announcedLength packet address server
  messageType : byte m 0 = .ok packet.messageType
  transActionId : read24 m 1 = .ok (packet.transActionId.toNat % 2 ^ 24)
  elapsed : ∃ found, libdhcpv6_message_option_discover m 4 (m.length - 4) elapsedTimeOption =
    .ok (some found) ∧ read16 m found.place = .ok 0
  client : ReadsDuid m clientIdOption packet.clientDUID
  server : ∀ duid, server = some duid → ReadsDuid m serverIdOption duid
  association : ReadsAssociation m packet address

theorem read24_header (packet : SolicitPacket) (e : List UInt8) :
    read24 (libdhcpv6_header_write packet.messageType packet.transActionId ++ e) 1 =
      .ok (packet.transActionId.toNat % 2 ^ 24) := by
  show Except.ok (65536 * (UInt8.ofNat (packet.transActionId.toNat / 65536)).toNat +
    (256 * (UInt8.ofNat (packet.transActionId.toNat / 256)).toNat +
      (UInt8.ofNat packet.transActionId.toNat).toNat)) = _
  rw [UInt8.toNat_ofNat', UInt8.toNat_ofNat', UInt8.toNat_ofNat']
  congr 1
  omega

/-- **A message** gives back all that was written exactly where its identifiers are valid. -/
theorem recovered_iff (packet : SolicitPacket) (address : Option NonTemporalAddress)
    (server : Option Duid) :
    Recovered packet address server
        (libdhcpv6_generic_nontemporal_address_message_write packet address server) ↔
      ValidDuids packet server := by
  constructor
  · intro h
    have hlong : 4 ≤
        (libdhcpv6_generic_nontemporal_address_message_write packet address server).length := by
      rw [message_eq, List.length_append]
      exact Nat.le_add_right _ _
    exact ⟨h.client.valid hlong, fun duid hduid => (h.server duid hduid).valid hlong⟩
  · intro h
    have hclient := h.1.bounds
    have hfew := packet.few
    constructor
    case length =>
      have hserver : (server.elim 0 fun duid => duid.duid.length + 6) ≤ 131 := by
        cases server with
        | none => exact Nat.zero_le _
        | some duid =>
            have hbounds := (h.2 duid rfl).bounds
            dsimp only [Option.elim_some]
            omega
      have hsize : libdhcpv6_non_temporal_address_size address.isSome ≤ 44 := by
        unfold libdhcpv6_non_temporal_address_size
        split <;> omega
      rw [announcedLength_eq, Nat.mod_eq_of_lt]
      rw [length_message]
      omega
    case messageType =>
      rw [message_eq]
      rfl
    case transActionId =>
      rw [message_eq]
      exact read24_header packet _
    case elapsed =>
      obtain ⟨pre, post, heq, hfound⟩ := discover_message address h
        elapsedTimeOption (write16 0) rfl
      refine ⟨_, hfound, ?_⟩
      rw [heq]
      exact read16_write16 (by decide)
    case client =>
      obtain ⟨pre, post, heq, hfound⟩ := discover_message address h
        clientIdOption (packet.clientDUID.octets) rfl
      exact reads_duid h.1 heq hfound
    case server =>
      rintro duid rfl
      obtain ⟨pre, post, heq, hfound⟩ := discover_message address h
        serverIdOption (duid.octets) rfl
      exact reads_duid (h.2 duid rfl) heq hfound
    case association => exact reads_association h

/-! ## The property -/

/-- The check and the readers look only at the octets they are given, and what they report lies
in the option it is taken from. -/
structure ReadInside (d : List UInt8) : Prop where
  check : ∃ well, libdhcpv6_message_malformed_check d 0 d.length = .ok well
  option : ∀ type, Safe (libdhcpv6_message_option_discover d 0 d.length type) fun found =>
    ∀ o, found = some o → o.place + o.len ≤ d.length
  duid : ∀ type, Safe (libdhcpv6_get_duid_by_selected_type_id_opt d 0 d.length type)
    fun read => ∀ params, read = some params →
      ∃ o, libdhcpv6_message_option_discover d 0 d.length type = .ok (some o) ∧
        params.duid = o.place + 2 ∧ params.duid + params.duid_length = o.place + o.len
  link : ∀ type, Safe (libdhcpv6_get_link_address_from_duid d 0 d.length type) fun read =>
    ∀ params, read = some params →
      params.link_id + libdhcpv6_duid_linktype_size params.link_type ≤ d.length
  association : Safe (libdhcpv6_get_IA_address d 0 d.length) fun read =>
    ∀ params, read = some params → ∀ place, params.nonTemporalAddress = some place →
      ∃ o, libdhcpv6_message_option_discover d 0 d.length identityAssociationOption =
          .ok (some o) ∧
        o.place + 16 ≤ place ∧ place + 24 ≤ o.place + o.len
  relay : Safe (libdhcpv6_relay_msg_read d d.length) fun read =>
    ∀ relayMsg, read = some relayMsg →
      relayMsg.peerAddress + 16 ≤ d.length ∧
      relayMsg.options.place + relayMsg.options.len ≤ d.length ∧
      ∀ found, relayMsg.interfaceId = some found → found.place + found.len ≤ d.length

theorem readInside (d : List UInt8) : ReadInside d := by
  have hall : 0 + d.length ≤ d.length := by omega
  constructor
  case check => exact malformed_ok hall
  case option =>
    intro type
    refine (discover_safe type hall).mono fun found hfound o ho => ?_
    have hinside := (hfound o ho).2
    omega
  case duid =>
    intro type
    exact (duid_inside type hall).mono fun read hread params hparams => (hread params hparams).2
  case link =>
    intro type
    refine (link_address_inside type hall).mono fun read hread params hparams => ?_
    have hinside := (hread params hparams).2
    omega
  case association => exact ia_address_inside hall
  case relay => exact relay_msg_inside d

/-- **DHCPv6 messages.**  Readers read inside, the check accepts exactly the messages of
complete options, and a message gives back what was written: exactly where what is checked does
not overrun and the identifiers written are valid. -/
theorem messages_iff (d : List UInt8) (packet : SolicitPacket)
    (address : Option NonTemporalAddress) (server : Option Duid) :
    (ReadInside d ∧
      (libdhcpv6_message_malformed_check d 0 d.length = .ok true ↔ Options (d.drop 4)) ∧
      Recovered packet address server
        (libdhcpv6_generic_nontemporal_address_message_write packet address server)) ↔
      ¬Overrun (d.drop 4) ∧ ValidDuids packet server := by
  rw [recovered_iff, malformed_check_eq, Except.ok.injEq, scan_right_iff]
  exact and_iff_right (readInside d)

/-- A message that ends after the header of an option of five octets is accepted. -/
theorem accepted_without_octets :
    libdhcpv6_message_malformed_check [1, 0, 0, 1, 0, 1, 0, 5] 0 8 = .ok true ∧
      ¬Options (List.drop 4 [1, 0, 0, 1, 0, 1, 0, 5]) := by
  refine ⟨rfl, fun hoptions => hoptions.not_overrun ?_⟩
  exact @Overrun.here 1 5 [] (by decide) (by decide) (by decide)
    (by rw [scan])

end DhcpMsg
