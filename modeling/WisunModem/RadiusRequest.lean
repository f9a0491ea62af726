import WisunModem.RadiusReceive
import Mathlib.Algebra.GroupWithZero.Nat

/-!
# Access-Requests

`radius_client_sec_prot_allocate_and_create_radius_message`: the length is added up in 16 bits,
a buffer of that length is allocated, and the attributes are written one after another.  The
EAP message is cut into fragments of 253 octets.

* `request_iff` — which Access-Requests are as long as they announce, and carry the EAP message
  and the state.
-/

namespace Radius

def EAP_IDENTITY : Nat := 1
def STATION_ID_LEN : Nat := 16 + 7
def NAS_PORT : Nat := 1
def FRAMED_MTU : Nat := 600
def NAS_PORT_TYPE_WIRELESS_IEEE802_11 : Nat := 19

/-- What an Access-Request is made from: the EAP message in its buffer, the identity and the
state that are kept, and what other parts of the stack give. -/
structure Access where
  type : Nat
  length : Nat
  length_lt : length < 65536
  packet_body : Octets
  whole : length ≤ packet_body.length
  identity : Octets
  identity_short : identity.length ≤ AVP_VALUE_MAX_LEN
  state : Option Octets
  radius_identifier : Nat
  request_authenticator : Octets
  authenticator_length : request_authenticator.length = 16
  calling_station_id : Octets
  calling_length : calling_station_id.length = STATION_ID_LEN
  called_station_id : Octets
  called_length : called_station_id.length = STATION_ID_LEN
  address : Octets
  address_length : address.length = 16

/-- The EAP message. -/
def Access.eap (a : Access) : Octets := a.packet_body.take a.length

/-- The length of the identity in an EAP message. -/
def identityLength (length : Nat) : Nat :=
  let id_len := if length > 5 then length - 5 else length
  if id_len > AVP_VALUE_MAX_LEN then AVP_VALUE_MAX_LEN else id_len

/-- The EAP message in fragments. -/
def fragments (eap : Octets) : List Octets :=
  if AVP_VALUE_MAX_LEN < eap.length then
    eap.take AVP_VALUE_MAX_LEN :: fragments (eap.drop AVP_VALUE_MAX_LEN)
  else [eap]
termination_by eap.length
decreasing_by
  rw [List.length_drop]
  simp only [AVP_VALUE_MAX_LEN] at *
  omega

/-- `common_write_32_bit` -/
def write32 (n : Nat) : Octets :=
  [UInt8.ofNat (n / 2 ^ 24), UInt8.ofNat (n / 2 ^ 16), UInt8.ofNat (n / 2 ^ 8), UInt8.ofNat n]

/-- The attributes before the EAP message, in the order they are written. -/
def Access.front (a : Access) (identity : Octets) : List Avp :=
  [⟨AVP_TYPE_USER_NAME, identity⟩, ⟨AVP_TYPE_CALLING_STATION_ID, a.calling_station_id⟩,
    ⟨AVP_TYPE_CALLED_STATION_ID, a.called_station_id⟩,
    ⟨AVP_TYPE_NAS_IDENTIFIER, a.called_station_id⟩, ⟨AVP_TYPE_NAS_PORT, write32 NAS_PORT⟩,
    ⟨AVP_TYPE_FRAMED_MTU, write32 FRAMED_MTU⟩] ++
  (a.state.map (Avp.mk AVP_TYPE_STATE)).toList ++
  [⟨AVP_TYPE_NAS_PORT_TYPE, write32 NAS_PORT_TYPE_WIRELESS_IEEE802_11⟩,
    ⟨AVP_TYPE_NAS_IPV6_ADDRESS, a.address⟩]

/-- All attributes. -/
def Access.avps (a : Access) (identity mac : Octets) : List Avp :=
  a.front identity ++ (fragments a.eap).map (Avp.mk AVP_TYPE_EAP_MESSAGE) ++
    [⟨AVP_TYPE_MESSAGE_AUTHENTICATOR, mac⟩]

/-- The octets of an Access-Request, as they are added up for its length. -/
def Access.total (a : Access) (identity_len : Nat) : Nat :=
  RADIUS_MSG_FIXED_LENGTH + ((fragments a.eap).map fun eap => AVP_FIXED_LEN + eap.length).sum +
    (AVP_FIXED_LEN + identity_len) + (AVP_FIXED_LEN + 4) + (AVP_FIXED_LEN + 4) +
    (a.state.map fun state => AVP_FIXED_LEN + state.length).getD 0 +
    (AVP_FIXED_LEN + STATION_ID_LEN) + (AVP_FIXED_LEN + STATION_ID_LEN) +
    (AVP_FIXED_LEN + STATION_ID_LEN) + (AVP_FIXED_LEN + 4) + (AVP_FIXED_LEN + 16) +
    (AVP_FIXED_LEN + 16)

/-- An attribute is written to a buffer with room. -/
def avpWrite (room : Nat) (out : Octets) (a : Avp) : Except Trouble Octets :=
  if out.length + a.octets.length ≤ room then .ok (out ++ a.octets) else .error .outside

/-- The header: code, identifier, length and request authenticator. -/
def Access.header (a : Access) (length : Nat) : Octets :=
  [UInt8.ofNat RADIUS_ACCESS_REQUEST, UInt8.ofNat a.radius_identifier, UInt8.ofNat (length / 256),
    UInt8.ofNat length] ++ a.request_authenticator

/-- The identity: from an EAP identity response, or as it is kept. -/
def Access.identityRead (a : Access) : Except Trouble Octets :=
  if a.type = EAP_IDENTITY then copy a.packet_body 5 (identityLength a.length) else .ok a.identity

/-- `radius_client_sec_prot_allocate_and_create_radius_message`: the message, if there is a shared
secret.  The message authenticator is calculated over zeros in its place. -/
def allocate_and_create_radius_message (env : Env) (a : Access) :
    Except Trouble (Option Octets) := do
  let identity ← a.identityRead
  let radius_msg_length := a.total identity.length % 65536
  if radius_msg_length < RADIUS_MSG_FIXED_LENGTH then .error .outside
  else do
    let header := a.header radius_msg_length
    let blank ← (a.avps identity (List.replicate 16 0)).foldlM (avpWrite radius_msg_length) header
    let calculated ← message_authenticator_calc env radius_msg_length blank
    match calculated with
    | none => return none
    | some mac => return some (header ++ flat (a.avps identity mac))

/-! ## What is written -/

variable {env : Env} {a : Access} {identity mac out : Octets} {room : Nat}

/-- Attributes are written exactly if there is room for all of them. -/
theorem foldlM_avpWrite (avps : List Avp) (hroom : out.length ≤ room) :
    avps.foldlM (avpWrite room) out =
      if out.length + (flat avps).length ≤ room then .ok (out ++ flat avps)
      else .error .outside := by
  induction avps generalizing out with
  | nil => simpa [pure, Except.pure] using hroom
  | cons b avps ih =>
      rw [List.foldlM_cons, avpWrite, flat_cons, List.length_append]
      by_cases hfits : out.length + b.octets.length ≤ room
      · rw [if_pos hfits]
        simp only [bind, Except.bind]
        rw [ih (by rw [List.length_append]; exact hfits), List.length_append, Nat.add_assoc,
          List.append_assoc]
      · rw [if_neg hfits, if_neg (by omega)]
        rfl

theorem fragments_flatten (eap : Octets) : (fragments eap).flatten = eap := by
  induction eap using fragments.induct with
  | case1 eap hlong ih => rw [fragments, if_pos hlong, List.flatten_cons, ih, List.take_append_drop]
  | case2 eap hshort => rw [fragments, if_neg hshort]; simp

theorem fragments_short (eap : Octets) :
    ∀ fragment ∈ fragments eap, fragment.length ≤ AVP_VALUE_MAX_LEN := by
  induction eap using fragments.induct with
  | case1 eap hlong ih =>
      rw [fragments, if_pos hlong]
      intro fragment hmem
      rcases List.mem_cons.mp hmem with rfl | hmem
      · rw [List.length_take]
        omega
      · exact ih fragment hmem
  | case2 eap hshort =>
      rw [fragments, if_neg hshort]
      intro fragment hmem
      rw [List.mem_singleton.mp hmem]
      omega

theorem flat_fragments (parts : List Octets) :
    (flat (parts.map (Avp.mk AVP_TYPE_EAP_MESSAGE))).length =
      (parts.map fun eap => AVP_FIXED_LEN + eap.length).sum := by
  induction parts with
  | nil => rfl
  | cons part parts ih => simp [ih, AVP_FIXED_LEN, Nat.add_comm]

theorem eapMessage_fragments (parts : List Octets) :
    eapMessage (parts.map (Avp.mk AVP_TYPE_EAP_MESSAGE)) = parts.flatten := by
  induction parts with
  | nil => rfl
  | cons part parts ih => simpa [eapMessage] using ih

@[simp] theorem length_write32 (n : Nat) : (write32 n).length = 4 := rfl

/-- **The length is added up right**, before it is cut to 16 bits. -/
theorem length_avps (hmac : mac.length = 16) :
    20 + (flat (a.avps identity mac)).length = a.total identity.length := by
  cases hstate : a.state <;>
    simp [Access.avps, Access.front, Access.total, hstate, flat_fragments, hmac,
      a.calling_length, a.called_length, a.address_length, RADIUS_MSG_FIXED_LENGTH,
      AVP_FIXED_LEN] <;> omega

theorem eapMessage_append (xs ys : List Avp) :
    eapMessage (xs ++ ys) = eapMessage xs ++ eapMessage ys := by
  simp [eapMessage]

/-- The types of the attributes before the EAP message. -/
theorem front_types : ∀ b ∈ a.front identity, b.type ∈ [1, 31, 30, 32, 5, 12, 24, 61, 95] := by
  cases hstate : a.state <;> simp [Access.front, hstate]

/-- **The EAP message** is in the attributes. -/
theorem eapMessage_avps : eapMessage (a.avps identity mac) = a.eap := by
  have hfront : eapMessage (a.front identity) = [] := by
    rw [eapMessage, List.filter_eq_nil_iff.mpr, List.flatMap_nil]
    intro b hb htype
    have hother := front_types b hb
    rw [of_decide_eq_true htype] at hother
    exact absurd hother (by decide)
  rw [Access.avps, eapMessage_append, eapMessage_append, eapMessage_fragments, fragments_flatten,
    hfront]
  exact List.append_nil _

/-- **The state** is the first State attribute. -/
theorem firstValue_avps : firstValue AVP_TYPE_STATE (a.avps identity mac) = a.state := by
  have hbehind : ((fragments a.eap).map (Avp.mk AVP_TYPE_EAP_MESSAGE) ++
      [Avp.mk AVP_TYPE_MESSAGE_AUTHENTICATOR mac]).find?
        (fun b : Avp => decide (b.type = AVP_TYPE_STATE)) = none := by
    rw [List.find?_eq_none]
    intro b hb htype
    rcases List.mem_append.mp hb with hb | hb
    · obtain ⟨part, _, rfl⟩ := List.mem_map.mp hb
      have hsame : AVP_TYPE_EAP_MESSAGE = AVP_TYPE_STATE := of_decide_eq_true htype
      exact absurd hsame (by decide)
    · rw [List.mem_singleton.mp hb] at htype
      have hsame : AVP_TYPE_MESSAGE_AUTHENTICATOR = AVP_TYPE_STATE := of_decide_eq_true htype
      exact absurd hsame (by decide)
  rw [firstValue, Access.avps, List.append_assoc, List.find?_append, hbehind]
  cases hstate : a.state <;> rw [Access.front, hstate] <;> rfl

/-- Every attribute is valid if the identity and the state are not too long. -/
theorem valid_avps (hidentity : identity.length ≤ AVP_VALUE_MAX_LEN)
    (hstate : ∀ state, a.state = some state → state.length ≤ AVP_VALUE_MAX_LEN)
    (hmac : mac.length = 16) : ∀ b ∈ a.avps identity mac, b.Valid := by
  intro b hb
  rcases List.mem_append.mp hb with hb | hb
  · rcases List.mem_append.mp hb with hb | hb
    · have htype : b.type < 256 := by
        have hknown := front_types b hb
        simp at hknown
        omega
      refine ⟨htype, ?_⟩
      rcases List.mem_append.mp hb with hb | hb
      · rcases List.mem_append.mp hb with hb | hb
        · simp only [List.mem_cons, List.not_mem_nil, or_false] at hb
          rcases hb with rfl | rfl | rfl | rfl | rfl | rfl
          · exact hidentity
          · rw [a.calling_length]
            decide
          · rw [a.called_length]
            decide
          · rw [a.called_length]
            decide
          · exact (by decide : 4 ≤ AVP_VALUE_MAX_LEN)
          · exact (by decide : 4 ≤ AVP_VALUE_MAX_LEN)
        · obtain ⟨state, hsome, rfl⟩ := Option.map_eq_some_iff.mp (Option.mem_toList.mp hb)
          exact hstate state hsome
      · simp only [List.mem_cons, List.not_mem_nil, or_false] at hb
        rcases hb with rfl | rfl
        · exact (by decide : 4 ≤ AVP_VALUE_MAX_LEN)
        · rw [a.address_length]
          decide
    · obtain ⟨part, hpart, rfl⟩ := List.mem_map.mp hb
      exact ⟨(by decide : AVP_TYPE_EAP_MESSAGE < 256), fragments_short _ part hpart⟩
  · rw [List.mem_singleton.mp hb]
    refine ⟨(by decide : AVP_TYPE_MESSAGE_AUTHENTICATOR < 256), ?_⟩
    rw [hmac]
    decide

/-! ## What is read back -/

theorem length_eapMessage (avps : List Avp) : (eapMessage avps).length ≤ (flat avps).length := by
  induction avps with
  | nil => simp [eapMessage]
  | cons b avps ih =>
      by_cases htype : b.type = AVP_TYPE_EAP_MESSAGE
      · have hcons : eapMessage (b :: avps) = b.value ++ eapMessage avps := by
          simp [eapMessage, htype]
        simp only [hcons, flat_cons, List.length_append, Avp.length_octets]
        omega
      · have hcons : eapMessage (b :: avps) = eapMessage avps := by simp [eapMessage, htype]
        simp only [hcons, flat_cons, List.length_append, Avp.length_octets]
        omega

/-- The readers of a message: the EAP message they copy, and the state they store. -/
def ReadBack (msg eap : Octets) (state : Option Octets) : Prop :=
  ∃ fuel, eap_avps_handle msg (some eap.length) fuel RADIUS_MSG_FIXED_LENGTH
      (announced msg - RADIUS_MSG_FIXED_LENGTH) = .ok (eap.length, eap) ∧
    ∃ found, avp_state_read msg fuel RADIUS_MSG_FIXED_LENGTH
        (announced msg - RADIUS_MSG_FIXED_LENGTH) = .ok found ∧
      found.map (fun x => (msg.drop x.1).take ((x.2 + 256 - AVP_FIXED_LEN) % 256)) = state

/-- A message is as long as it announces, its attributes carry the EAP message and the state,
and the readers give them back. -/
def Carries (msg eap : Octets) (state : Option Octets) : Prop :=
  msg.length = announced msg ∧
    (∃ avps : List Avp, (∀ b ∈ avps, b.Valid) ∧ msg.drop RADIUS_MSG_FIXED_LENGTH = flat avps ∧
      eapMessage avps = eap ∧ firstValue AVP_TYPE_STATE avps = state) ∧
    ReadBack msg eap state

/-- The readers give back what valid attributes carry. -/
theorem readBack_flat {header : Octets} {avps : List Avp} (hheader : header.length = 20)
    (hvalid : ∀ b ∈ avps, b.Valid) (hlength : 20 + (flat avps).length < 65536)
    (hann : announced (header ++ flat avps) = 20 + (flat avps).length) :
    ReadBack (header ++ flat avps) (eapMessage avps) (firstValue AVP_TYPE_STATE avps) := by
  have hd : header ++ flat avps = header ++ (flat avps ++ []) := by simp
  have hleft : 20 + (flat avps).length - RADIUS_MSG_FIXED_LENGTH = (flat avps).length :=
    Nat.add_sub_cancel_left _ _
  have hmany := length_le_flat avps
  have hsize : (header ++ flat avps).length = 20 + (flat avps).length := by simp [hheader]
  obtain ⟨_, hcopied⟩ := gathers_flat hd hvalid (by omega) (Nat.le_refl _)
  refine ⟨(header ++ flat avps).length + 2, ?_, ?_⟩
  · have hcopy := hcopied (eapMessage avps).length ((header ++ flat avps).length + 2) 0 []
      (by omega) (by omega) (by omega) (by simp)
    have hshort : (0 + (eapMessage avps).length) % 65536 = (eapMessage avps).length := by
      have := length_eapMessage avps
      omega
    rw [hann, hleft, eap_avps_handle]
    rw [hheader, hshort, List.nil_append] at hcopy
    exact hcopy
  · have hfuel : avps.length < (header ++ flat avps).length + 2 := by omega
    have hstate := avp_search_flat AVP_TYPE_STATE hd hvalid hfuel
    rw [hann, hleft, avp_state_read]
    cases hfirst : firstValue AVP_TYPE_STATE avps with
    | none =>
        rw [hfirst, hheader] at hstate
        exact ⟨_, hstate, rfl⟩
    | some value =>
        rw [hfirst, hheader] at hstate
        obtain ⟨place, _, hshort, hvalue, hfound⟩ := hstate
        refine ⟨_, hfound, ?_⟩
        have hlen : (value.length + 2 + 256 - AVP_FIXED_LEN) % 256 = value.length := by
          simp only [AVP_VALUE_MAX_LEN, AVP_FIXED_LEN] at *
          omega
        simp only [Option.map_some]
        rw [hlen, hvalue]

/-! ## The Access-Request -/

/-- The length of the identity that is sent. -/
def Access.identityLen (a : Access) : Nat :=
  if a.type = EAP_IDENTITY then identityLength a.length else a.identity.length

/-- The identity lies in the buffer of the EAP message, the message is shorter than 65536 octets,
and the state fits in an attribute. -/
structure RequestFits (env : Env) (a : Access) : Prop where
  identity : a.type = EAP_IDENTITY → 5 + identityLength a.length ≤ a.packet_body.length
  total : a.total a.identityLen < 65536
  state : env.radius_shared_secret ≠ [] → ∀ state, a.state = some state →
    state.length ≤ AVP_VALUE_MAX_LEN

/-- The Access-Request is made, and carries the EAP message and the state. -/
def RequestWorks (env : Env) (a : Access) : Prop :=
  ∃ r, allocate_and_create_radius_message env a = .ok r ∧
    ∀ msg, r = some msg → Carries msg a.eap a.state

theorem identityLength_le (length : Nat) : identityLength length ≤ AVP_VALUE_MAX_LEN := by
  rw [identityLength]
  split <;> split <;> omega

theorem announced_header (length : Nat) (hlength : length < 65536) (rest : Octets) :
    announced (a.header length ++ rest) = length := by
  have hhigh : (length / 256) % 2 ^ 8 = length / 256 := Nat.mod_eq_of_lt (by omega)
  simp only [announced, val, Access.header, List.cons_append, List.getD_cons_succ,
    List.getD_cons_zero, UInt8.toNat_ofNat', hhigh]
  omega

@[simp] theorem length_header (length : Nat) : (a.header length).length = 20 := by
  simp [Access.header, a.authenticator_length]

/-- What is done once the identity is read. -/
theorem create_eq {identity : Octets}
    (hidentity : a.identityRead = .ok identity) :
    allocate_and_create_radius_message env a =
      if a.total identity.length < 65536 then
        .ok (if env.radius_shared_secret = [] then none
          else some (a.header (a.total identity.length) ++ flat (a.avps identity
            (env.hmac_md5 env.radius_shared_secret (a.header (a.total identity.length) ++
              flat (a.avps identity (List.replicate 16 0)))))))
      else .error .outside := by
  have hblank := @length_avps a identity (List.replicate 16 0) (by simp)
  rw [allocate_and_create_radius_message, hidentity]
  simp only [bind, Except.bind]
  by_cases htotal : a.total identity.length < 65536
  · rw [if_pos htotal, Nat.mod_eq_of_lt htotal,
      if_neg (by simp only [RADIUS_MSG_FIXED_LENGTH]; omega),
      foldlM_avpWrite _ (by rw [length_header]; omega), if_pos (by rw [length_header]; omega)]
    dsimp only
    rw [message_authenticator_calc]
    by_cases hsecret : env.radius_shared_secret = []
    · rw [if_pos hsecret, if_pos hsecret]
      rfl
    · rw [if_neg hsecret, if_neg hsecret,
        copy_ok (by rw [List.length_append, length_header]; omega)]
      simp only [bind, Except.bind, pure, Except.pure, List.drop_zero]
      rw [List.take_of_length_le (by rw [List.length_append, length_header]; omega)]
  · rw [if_neg htotal]
    split
    · rfl
    next hfixed =>
    simp only [RADIUS_MSG_FIXED_LENGTH] at hfixed
    rw [foldlM_avpWrite _ (by rw [length_header]; omega),
      if_neg (by rw [length_header]; omega)]

/-- **The Access-Request** carries the EAP message and the state on exactly these inputs. -/
theorem request_iff (env : Env) (a : Access) : RequestWorks env a ↔ RequestFits env a := by
  have hlen : ∀ identity, a.identityRead = .ok identity →
      identity.length = a.identityLen ∧ identity.length ≤ AVP_VALUE_MAX_LEN := by
    intro identity hidentity
    rw [Access.identityRead] at hidentity
    rw [Access.identityLen]
    by_cases htype : a.type = EAP_IDENTITY
    · rw [if_pos htype] at hidentity ⊢
      have hin := copy_inside hidentity
      rw [copy_ok hin] at hidentity
      cases hidentity
      rw [List.length_take, List.length_drop, Nat.min_eq_left (by omega)]
      exact ⟨rfl, identityLength_le _⟩
    · rw [if_neg htype] at hidentity ⊢
      cases hidentity
      exact ⟨rfl, a.identity_short⟩
  constructor
  · rintro ⟨r, hr, hcarries⟩
    obtain ⟨identity, hidentity, _⟩ := bind_ok.mp hr
    obtain ⟨hlength, _⟩ := hlen identity hidentity
    rw [create_eq hidentity] at hr
    split at hr
    next htotal =>
      cases hr
      refine ⟨?_, hlength ▸ htotal, ?_⟩
      · intro htype
        rw [Access.identityRead, if_pos htype] at hidentity
        exact copy_inside hidentity
      · intro hsecret state hstate
        rw [if_neg hsecret] at hcarries
        obtain ⟨_, ⟨avps, hvalid, _, _, hfirst⟩, _⟩ := hcarries _ rfl
        rw [hstate, firstValue] at hfirst
        obtain ⟨b, hb, rfl⟩ := Option.map_eq_some_iff.mp hfirst
        exact (hvalid b (List.mem_of_find?_eq_some hb)).2
    · cases hr
  · intro h
    obtain ⟨identity, hidentity⟩ : ∃ identity, a.identityRead = .ok identity := by
      rw [Access.identityRead]
      by_cases htype : a.type = EAP_IDENTITY
      · rw [if_pos htype, copy_ok (h.identity htype)]
        exact ⟨_, rfl⟩
      · rw [if_neg htype]
        exact ⟨_, rfl⟩
    obtain ⟨hlength, hshort⟩ := hlen identity hidentity
    have htotal : a.total identity.length < 65536 := hlength ▸ h.total
    refine ⟨_, (create_eq hidentity).trans (if_pos htotal), ?_⟩
    intro msg hmsg
    by_cases hsecret : env.radius_shared_secret = []
    · rw [if_pos hsecret] at hmsg
      cases hmsg
    rw [if_neg hsecret] at hmsg
    cases hmsg
    have hmac := env.hmac_length env.radius_shared_secret (a.header (a.total identity.length) ++
      flat (a.avps identity (List.replicate 16 0)))
    have hvalid := valid_avps hshort (h.state hsecret) hmac
    have hsize := @length_avps a identity _ hmac
    have hann := @announced_header a (a.total identity.length) htotal (flat (a.avps identity
      (env.hmac_md5 env.radius_shared_secret (a.header (a.total identity.length) ++
        flat (a.avps identity (List.replicate 16 0))))))
    refine ⟨?_, ⟨_, hvalid, ?_, eapMessage_avps, firstValue_avps⟩, ?_⟩
    · rw [hann, List.length_append, length_header, hsize]
    · rw [List.drop_left' (length_header _)]
    · have hread := readBack_flat (length_header _) hvalid (by omega) (hann.trans hsize.symm)
      rwa [eapMessage_avps, firstValue_avps] at hread

end Radius
