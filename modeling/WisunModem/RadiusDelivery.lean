import WisunModem.RadiusRequest

/-!
# What a RADIUS packet delivers

From a well-formed packet with both authenticators, the EAP message, the state and the key are
taken from its attributes.  With `RadiusReceive` and `RadiusRequest` this gives the datagrams and
the Access-Requests that are handled as they should be.

* `delivers` — what is received from a well-formed packet;
* `radius_iff` — which datagrams and which Access-Requests are handled right.
-/

namespace Radius

/-- A packet of valid attributes, the first message authenticator among them, and octets behind
its announced length. -/
structure WellFormed (pdu header : Octets) (pre post : List Avp) (mac e : Octets) : Prop where
  parts : pdu = header ++ (flat (pre ++ ⟨AVP_TYPE_MESSAGE_AUTHENTICATOR, mac⟩ :: post) ++ e)
  header_length : header.length = 20
  announced :
    announced pdu = 20 + (flat (pre ++ ⟨AVP_TYPE_MESSAGE_AUTHENTICATOR, mac⟩ :: post)).length
  valid : ∀ b ∈ pre ++ post, b.Valid
  vendor : ∀ b ∈ pre ++ post, b.VendorFormed
  first : ∀ b ∈ pre, b.type ≠ AVP_TYPE_MESSAGE_AUTHENTICATOR
  mac_length : mac.length = 16

/-- The key that is decrypted from the value of the key attribute alone. -/
def keyOf (env : Env) (data : Data) (value : Octets) : Option Octets :=
  match ms_mppe_recv_key_pmk_decrypt env value 0 value.length data.request_authenticator with
  | .ok pmk => pmk
  | .error _ => none

/-- What is kept of a packet with these attributes. -/
def received (env : Env) (data : Data) (code : Nat) (avps : List Avp) : Data :=
  { data with
    recv_eap_msg := some (eapMessage avps)
    recv_eap_msg_len := ((eapMessage avps).length + data.radius_eap_tls_header_size) % 65536
    state := firstValue AVP_TYPE_STATE avps
    new_pmk :=
      if code = RADIUS_ACCESS_ACCEPT
        then ((firstVendorValue 311 17 avps).bind (keyOf env data)).or data.new_pmk
        else data.new_pmk
    radius_code := code }

variable {env : Env} {data : Data} {d header pdu mac e : Octets} {avps pre post : List Avp}
  {p n fuel code : Nat} {out : Data × Bool} {value : Octets}

/-! ## The key -/

theorem copy_part (hvalue : (d.drop p).take value.length = value)
    (hin : p + value.length ≤ d.length) {i k : Nat} (hik : i + k ≤ value.length) : copy d (p + i) k = copy value i k := by
  rw [copy_ok (by omega), copy_ok hik]
  congr 1
  have h : ((d.drop p).take value.length).drop i = value.drop i := by rw [hvalue]
  rw [← h, List.drop_take, List.take_take, List.drop_drop, Nat.min_eq_left (by omega)]

theorem decryptBlocks_part (hvalue : (d.drop p).take value.length = value)
    (hin : p + value.length ≤ d.length) (blocks : Nat) (i : Nat) (seed : Octets)
    (hblocks : i + 16 * blocks ≤ value.length) :
    decryptBlocks env d blocks (p + i) seed = decryptBlocks env value blocks i seed := by
  induction blocks generalizing i seed with
  | zero => rfl
  | succ blocks ih =>
      have hcopy : copy d (p + i) MS_MPPE_RECV_KEY_BLOCK_LEN =
          copy value i MS_MPPE_RECV_KEY_BLOCK_LEN :=
        copy_part hvalue hin (by simp only [MS_MPPE_RECV_KEY_BLOCK_LEN]; omega)
      rw [decryptBlocks, decryptBlocks, hcopy, Nat.add_assoc]
      congr 1
      funext block
      rw [ih _ _ (by simp only [MS_MPPE_RECV_KEY_BLOCK_LEN]; omega)]

/-- **The key** is decrypted from its own octets only. -/
theorem decrypt_part (hvalue : (d.drop p).take value.length = value)
    (hin : p + value.length ≤ d.length) (auth : Octets) :
    ms_mppe_recv_key_pmk_decrypt env d p value.length auth =
      ms_mppe_recv_key_pmk_decrypt env value 0 value.length auth := by
  rw [ms_mppe_recv_key_pmk_decrypt, ms_mppe_recv_key_pmk_decrypt]
  split
  · rfl
  split
  · rfl
  next hshort =>
  simp only [MS_MPPE_RECV_KEY_SALT_LEN, MS_MPPE_RECV_KEY_BLOCK_LEN] at *
  have hsalt : copy d p 2 = copy value 0 2 := copy_part hvalue hin (i := 0) (by omega)
  rw [hsalt]
  congr 1
  funext salt
  rw [Nat.zero_add, decryptBlocks_part hvalue hin _ _ _ (by omega)]

/-! ## One stage after the other -/

theorem keyRead_flat (hd : d = header ++ (flat avps ++ e)) (hheader : header.length = 20)
    (hvalid : ∀ b ∈ avps, b.Valid) (hformed : ∀ b ∈ avps, b.VendorFormed)
    (hfuel : avps.length < fuel)
    (h : keyRead env fuel data code (flat avps).length d = .ok out) :
    out = ({ data with
      radius_code := code
      recv_eap_msg_len := (data.recv_eap_msg_len + data.radius_eap_tls_header_size) % 65536
      new_pmk :=
        if code = RADIUS_ACCESS_ACCEPT
          then ((firstVendorValue 311 17 avps).bind (keyOf env data)).or data.new_pmk
          else data.new_pmk }, true) := by
  rw [keyRead] at h
  by_cases hcode : code = RADIUS_ACCESS_ACCEPT
  · simp only [if_pos hcode] at h ⊢
    have hsearch := avp_vpa_search_first 311 17 hd hvalid hformed hfuel
    rw [hheader] at hsearch
    obtain ⟨found, hfound, hrest⟩ := bind_ok.mp h
    rw [avp_vsa_ms_mppe_recv_key_read, RADIUS_MSG_FIXED_LENGTH] at hfound
    cases hfirst : firstVendorValue 311 17 avps with
    | none =>
        rw [hfirst] at hsearch
        cases hsearch.symm.trans hfound
        cases hrest
        rfl
    | some value =>
        rw [hfirst] at hsearch
        obtain ⟨place, hplace, hvalue, hsearch⟩ := hsearch
        cases hsearch.symm.trans hfound
        have hin : place + value.length ≤ d.length := by
          rw [hd, List.length_append, List.length_append]
          omega
        have hlen : value.length + 2 - AVP_FIXED_LEN = value.length := Nat.add_sub_cancel _ _
        dsimp only at hrest
        rw [hlen, decrypt_part hvalue hin] at hrest
        by_cases hsome : value.length + 2 > AVP_FIXED_LEN
        · rw [if_pos hsome] at hrest
          obtain ⟨pmk, hpmk, hout⟩ := bind_ok.mp hrest
          cases hout
          simp only [Option.bind_some, keyOf, hpmk]
        · rw [if_neg hsome] at hrest
          cases hrest
          have hnone : keyOf env data value = none := by
            rw [keyOf, ms_mppe_recv_key_pmk_decrypt]
            split
            next hpmk =>
              split at hpmk
              · exact (Except.ok.inj hpmk).symm
              · have hempty : value.length < 2 + 16 := by
                  simp only [AVP_FIXED_LEN] at hsome
                  omega
                rw [if_pos hempty] at hpmk
                exact (Except.ok.inj hpmk).symm
            · rfl
          rw [Option.bind_some, hnone, Option.none_or]
  · simp only [if_neg hcode] at h ⊢
    cases h
    rfl

theorem stateRead_flat (hd : d = header ++ (flat avps ++ e)) (hheader : header.length = 20)
    (hvalid : ∀ b ∈ avps, b.Valid) (hformed : ∀ b ∈ avps, b.VendorFormed)
    (hfuel : avps.length < fuel)
    (h : stateRead env ⟨true, true⟩ fuel data code (flat avps).length d = .ok out) :
    out = ({ data with
      radius_code := code
      recv_eap_msg_len := (data.recv_eap_msg_len + data.radius_eap_tls_header_size) % 65536
      state := firstValue AVP_TYPE_STATE avps
      new_pmk :=
        if code = RADIUS_ACCESS_ACCEPT
          then ((firstVendorValue 311 17 avps).bind (keyOf env data)).or data.new_pmk
          else data.new_pmk }, true) := by
  rw [stateRead] at h
  have hsearch := avp_search_flat AVP_TYPE_STATE hd hvalid hfuel
  rw [hheader] at hsearch
  obtain ⟨found, hfound, hrest⟩ := bind_ok.mp h
  rw [avp_state_read, RADIUS_MSG_FIXED_LENGTH] at hfound
  cases hfirst : firstValue AVP_TYPE_STATE avps with
  | none =>
      rw [hfirst] at hsearch
      cases hsearch.symm.trans hfound
      exact keyRead_flat hd hheader hvalid hformed hfuel hrest
  | some value =>
      rw [hfirst] at hsearch
      obtain ⟨place, hplace, hshort, hvalue, hsearch⟩ := hsearch
      cases hsearch.symm.trans hfound
      have hin : place + value.length ≤ d.length := by
        rw [hd, List.length_append, List.length_append]
        omega
      have hlen : (value.length + 2 + 256 - AVP_FIXED_LEN) % 256 = value.length := by
        simp only [AVP_VALUE_MAX_LEN, AVP_FIXED_LEN] at *
        omega
      simp only [or_true, if_true] at hrest
      rw [hlen, copy_ok hin, hvalue] at hrest
      exact keyRead_flat hd hheader hvalid hformed hfuel hrest

theorem eapRead_flat (hd : d = header ++ (flat avps ++ e)) (hheader : header.length = 20)
    (hvalid : ∀ b ∈ avps, b.Valid) (hformed : ∀ b ∈ avps, b.VendorFormed)
    (hsize : d.length < 65536) (hsome : eapMessage avps ≠ [])
    (h : eapRead env ⟨true, true⟩ (d.length + 2) data code (flat avps).length d = .ok out) :
    out = (received env data code avps, true) := by
  have hlength : d.length = 20 + ((flat avps).length + e.length) := by
    rw [hd, List.length_append, List.length_append, hheader]
  have hmany := length_le_flat avps
  have hshort := length_eapMessage avps
  have hgathers := gathers_flat hd hvalid (by omega) (Nat.le_refl (d.length + 2))
  rw [hheader] at hgathers
  have hmod : (0 + (eapMessage avps).length) % 65536 = (eapMessage avps).length := by omega
  have hcounted := hgathers.counted (d.length + 2) 0 [] (by omega) (by omega) (by omega)
  have hcopied := hgathers.copied (eapMessage avps).length (d.length + 2) 0 [] (by omega)
    (by omega) (by omega) (by simp)
  rw [hmod] at hcounted hcopied
  have hcount : eap_avps_handle d none (d.length + 2) RADIUS_MSG_FIXED_LENGTH (flat avps).length =
      .ok ((eapMessage avps).length, []) := hcounted
  have hcopy : eap_avps_handle d (some (eapMessage avps).length) (d.length + 2)
      RADIUS_MSG_FIXED_LENGTH (flat avps).length =
      .ok ((eapMessage avps).length, [] ++ eapMessage avps) := hcopied
  rw [eapRead, hcount] at h
  simp only [bind, Except.bind] at h
  rw [if_neg (by simpa using hsome), if_neg (by simp), hcopy] at h
  simp only [ne_eq, not_true, if_false, List.nil_append] at h
  exact stateRead_flat hd hheader hvalid hformed (by omega) h

/-! ## The authenticators -/

/-- Octets in the middle are replaced. -/
theorem overwrite_middle (x y z bs : Octets) (h : y.length = bs.length) :
    overwrite (x ++ (y ++ z)) x.length bs = x ++ (bs ++ z) := by
  rw [overwrite, List.take_left, ← h, List.append_assoc]
  congr 2
  rw [← List.append_assoc, ← List.length_append, List.drop_left]

/-- The attributes with zeros for the message authenticator. -/
def blankedAvps (pre post : List Avp) : List Avp :=
  pre ++ ⟨AVP_TYPE_MESSAGE_AUTHENTICATOR, List.replicate 16 0⟩ :: post

theorem eapMessage_blanked (mac : Octets) :
    eapMessage (blankedAvps pre post) =
      eapMessage (pre ++ ⟨AVP_TYPE_MESSAGE_AUTHENTICATOR, mac⟩ :: post) := by
  simp [eapMessage, blankedAvps]

theorem firstValue_blanked (mac : Octets) :
    firstValue AVP_TYPE_STATE (blankedAvps pre post) =
      firstValue AVP_TYPE_STATE (pre ++ ⟨AVP_TYPE_MESSAGE_AUTHENTICATOR, mac⟩ :: post) := by
  simp [firstValue, blankedAvps, List.find?_append,
    AVP_TYPE_MESSAGE_AUTHENTICATOR, AVP_TYPE_STATE]

theorem vendorValue_authenticator (vendor_id vendor_type : Nat) (mac : Octets) :
    vendorValue vendor_id vendor_type ⟨AVP_TYPE_MESSAGE_AUTHENTICATOR, mac⟩ = none := by
  have hother : AVP_TYPE_MESSAGE_AUTHENTICATOR ≠ AVP_TYPE_VENDOR_SPECIFIC := by decide
  rw [vendorValue]
  split
  · exact if_neg fun h => hother h.1
  · rfl

theorem firstVendorValue_blanked (vendor_id vendor_type : Nat) (mac : Octets) :
    firstVendorValue vendor_id vendor_type (blankedAvps pre post) =
      firstVendorValue vendor_id vendor_type
        (pre ++ ⟨AVP_TYPE_MESSAGE_AUTHENTICATOR, mac⟩ :: post) := by
  simp [firstVendorValue, blankedAvps, List.findSome?_append, vendorValue_authenticator]

theorem length_flat_blanked (hmac : mac.length = 16) :
    (flat (blankedAvps pre post)).length =
      (flat (pre ++ ⟨AVP_TYPE_MESSAGE_AUTHENTICATOR, mac⟩ :: post)).length := by
  simp [blankedAvps, hmac]

/-- The message authenticator is found, and zeros take its place. -/
theorem messageRead_flat
    (hd : d = header ++ (flat (pre ++ ⟨AVP_TYPE_MESSAGE_AUTHENTICATOR, mac⟩ :: post) ++ e))
    (hheader : header.length = 20) (hvalid : ∀ b ∈ pre ++ post, b.Valid)
    (hformed : ∀ b ∈ pre ++ post, b.VendorFormed)
    (hfirst : ∀ b ∈ pre, b.type ≠ AVP_TYPE_MESSAGE_AUTHENTICATOR) (hmac : mac.length = 16)
    (hsize : d.length < 65536) (hsecret : env.radius_shared_secret ≠ [])
    (hauthentic : env.hmac_md5 env.radius_shared_secret
      ((blanked d (20 + (flat pre).length)).take
        (20 + (flat (pre ++ ⟨AVP_TYPE_MESSAGE_AUTHENTICATOR, mac⟩ :: post)).length)) = mac)
    (hsome : eapMessage (pre ++ ⟨AVP_TYPE_MESSAGE_AUTHENTICATOR, mac⟩ :: post) ≠ [])
    (h : messageRead env ⟨true, true⟩ (d.length + 2) data code
      (flat (pre ++ ⟨AVP_TYPE_MESSAGE_AUTHENTICATOR, mac⟩ :: post)).length d = .ok out) :
    out =
      (received env data code (pre ++ ⟨AVP_TYPE_MESSAGE_AUTHENTICATOR, mac⟩ :: post), true) := by
  have hvalid' : ∀ zeros : Octets, zeros.length = 16 →
      ∀ b ∈ pre ++ ⟨AVP_TYPE_MESSAGE_AUTHENTICATOR, zeros⟩ :: post, b.Valid := by
    intro zeros hzeros b hb
    rcases List.mem_append.mp hb with hb | hb
    · exact hvalid b (List.mem_append_left _ hb)
    · rcases List.mem_cons.mp hb with rfl | hb
      · exact ⟨(by decide : AVP_TYPE_MESSAGE_AUTHENTICATOR < 256), by rw [hzeros]; decide⟩
      · exact hvalid b (List.mem_append_right _ hb)
  have hformed' : ∀ b ∈ blankedAvps pre post, b.VendorFormed := by
    intro b hb
    rcases List.mem_append.mp hb with hb | hb
    · exact hformed b (List.mem_append_left _ hb)
    · rcases List.mem_cons.mp hb with rfl | hb
      · intro htype
        have hother : AVP_TYPE_MESSAGE_AUTHENTICATOR ≠ AVP_TYPE_VENDOR_SPECIFIC := by decide
        exact absurd htype hother
      · exact hformed b (List.mem_append_right _ hb)
  have hlength : d.length = 20 + ((flat (pre ++ ⟨AVP_TYPE_MESSAGE_AUTHENTICATOR, mac⟩ ::
      post)).length + e.length) := by
    rw [hd, List.length_append, List.length_append, hheader]
  have hmany := length_le_flat (pre ++ ⟨AVP_TYPE_MESSAGE_AUTHENTICATOR, mac⟩ :: post)
  have hpre : pre.length < d.length + 2 := by
    rw [List.length_append] at hmany
    omega
  have hsearch := avp_search_first hd (hvalid' mac hmac) hfirst rfl hpre
  rw [hheader, hmac] at hsearch
  -- the datagram with zeros for the message authenticator
  have hhead : d = (header ++ (flat pre ++ [UInt8.ofNat AVP_TYPE_MESSAGE_AUTHENTICATOR,
      UInt8.ofNat 18])) ++ (mac ++ (flat post ++ e)) := by
    rw [hd, flat_append, flat_cons, Avp.octets, hmac]
    simp [AVP_FIXED_LEN]
  have hplace : (header ++ (flat pre ++ [UInt8.ofNat AVP_TYPE_MESSAGE_AUTHENTICATOR,
      UInt8.ofNat 18])).length = 20 + (flat pre).length + 2 := by
    simp [hheader]
    omega
  have hvalue : (d.drop (20 + (flat pre).length + 2)).take 16 = mac := by
    rw [hhead, ← hplace, List.drop_left, ← hmac, List.take_left]
  have hblanked : blanked d (20 + (flat pre).length) =
      header ++ (flat (blankedAvps pre post) ++ e) := by
    rw [blanked, hhead, ← hplace, overwrite_middle _ _ _ _ (by rw [hmac]; rfl)]
    simp [blankedAvps, Avp.octets, AVP_FIXED_LEN]
  have hin : 20 + (flat pre).length + 2 + 16 ≤ d.length := by
    rw [hlength]
    simp [hmac]
    omega
  have hsame : (blanked d (20 + (flat pre).length)).length = d.length := length_blanked hin
  rw [messageRead, avp_message_authenticator_read] at h
  rw [hsearch] at h
  simp only [bind, Except.bind, pure, Except.pure] at h
  rw [if_neg (by omega)] at h
  dsimp only at h
  rw [copy_ok hin, hvalue, store, if_pos (by simpa using hin)] at h
  dsimp only at h
  rw [← blanked, message_authenticator_calc, if_neg hsecret,
    copy_ok (by rw [hsame, RADIUS_MSG_FIXED_LENGTH]; omega)] at h
  simp only [bind, Except.bind, pure, Except.pure, List.drop_zero] at h
  rw [RADIUS_MSG_FIXED_LENGTH, Nat.add_comm _ 20, hauthentic, if_pos rfl,
    ← length_flat_blanked hmac, ← hsame] at h
  have hout := eapRead_flat hblanked hheader (hvalid' _ (List.length_replicate ..)) hformed'
    (by rw [hsame]; exact hsize) (by rw [eapMessage_blanked mac]; exact hsome) h
  rw [hout, received, received, eapMessage_blanked mac, firstValue_blanked mac,
    firstVendorValue_blanked _ _ mac]

/-- **A well-formed packet** with both authenticators is received with what it carries. -/
theorem delivers (h : WellFormed pdu header pre post mac e) (hsize : pdu.length < 65536)
    (hid : val pdu 1 = data.radius_identifier) (hsecret : env.radius_shared_secret ≠ [])
    (hresponse : Authentic env data pdu)
    (hmessage : env.hmac_md5 env.radius_shared_secret
      ((blanked (requested data pdu) (20 + (flat pre).length)).take (announced pdu)) = mac)
    (hsome : eapMessage (pre ++ ⟨AVP_TYPE_MESSAGE_AUTHENTICATOR, mac⟩ :: post) ≠ [])
    (hok : radius_client_sec_prot_receive env ⟨true, true⟩ (pdu.length + 2) data pdu = .ok out) :
    out = (received env data (val pdu 0)
      (pre ++ ⟨AVP_TYPE_MESSAGE_AUTHENTICATOR, mac⟩ :: post), true) := by
  have hlength : pdu.length = 20 + ((flat (pre ++ ⟨AVP_TYPE_MESSAGE_AUTHENTICATOR, mac⟩ ::
      post)).length + e.length) := by
    rw [h.parts, List.length_append, List.length_append, h.header_length]
  have hann := h.announced
  have hlong : 20 ≤ pdu.length := by omega
  have hsame : (requested data pdu).length = pdu.length := length_requested hlong
  -- only the header differs
  have hrequested : requested data pdu = (header.take 4 ++ data.request_authenticator) ++
      (flat (pre ++ ⟨AVP_TYPE_MESSAGE_AUTHENTICATOR, mac⟩ :: post) ++ e) := by
    have hheader : pdu = header.take 4 ++ (header.drop 4 ++
        (flat (pre ++ ⟨AVP_TYPE_MESSAGE_AUTHENTICATOR, mac⟩ :: post) ++ e)) := by
      rw [← List.append_assoc, List.take_append_drop]
      exact h.parts
    have hfour : (header.take 4).length = 4 := by
      rw [List.length_take, h.header_length]
      rfl
    have hmiddle := overwrite_middle (header.take 4) (header.drop 4)
      (flat (pre ++ ⟨AVP_TYPE_MESSAGE_AUTHENTICATOR, mac⟩ :: post) ++ e)
      data.request_authenticator (by rw [List.length_drop, h.header_length, data.sixteen])
    rw [hfour, ← hheader] at hmiddle
    rw [requested, hmiddle, List.append_assoc]
  rw [receive_eq hlong, if_neg (by simpa using hid), if_neg (by omega),
    response_authenticator_calc, if_neg hsecret, copy_ok (by omega), List.drop_zero] at hok
  simp only [bind, Except.bind, pure, Except.pure] at hok
  rw [hresponse, if_pos rfl] at hok
  have hleft : announced pdu - 20 =
      (flat (pre ++ ⟨AVP_TYPE_MESSAGE_AUTHENTICATOR, mac⟩ :: post)).length := by omega
  rw [hleft, ← hsame] at hok
  rw [hann] at hmessage
  have hhead : (header.take 4 ++ data.request_authenticator).length = 20 := by
    rw [List.length_append, List.length_take, h.header_length, data.sixteen]
    rfl
  have hout := messageRead_flat hrequested hhead h.valid h.vendor h.first h.mac_length
    (by rw [hsame]; exact hsize) hsecret hmessage hsome hok
  exact hout

/-! ## The datagrams and the Access-Requests -/

/-- **What is asked of the receiver**: it ends and stays inside whatever buffers are granted, and
with both of them it takes from a well-formed packet what it carries. -/
def ReceiveWorks (env : Env) (data : Data) (pdu : Octets) : Prop :=
  ∀ grants, ∃ fuel out, radius_client_sec_prot_receive env grants fuel data pdu = .ok out ∧
    (grants = ⟨true, true⟩ → ∀ header pre post mac e, WellFormed pdu header pre post mac e →
      val pdu 1 = data.radius_identifier → env.radius_shared_secret ≠ [] →
      Authentic env data pdu →
      env.hmac_md5 env.radius_shared_secret
        ((blanked (requested data pdu) (20 + (flat pre).length)).take (announced pdu)) = mac →
      eapMessage (pre ++ ⟨AVP_TYPE_MESSAGE_AUTHENTICATOR, mac⟩ :: post) ≠ [] →
      out = (received env data (val pdu 0)
        (pre ++ ⟨AVP_TYPE_MESSAGE_AUTHENTICATOR, mac⟩ :: post), true))

/-- Digests that are all zero. -/
def zeroEnv : Env where
  radius_shared_secret := [1]
  md5 := fun _ => List.replicate 16 0
  hmac_md5 := fun _ _ => List.replicate 16 0
  md5_length := fun _ => List.length_replicate
  hmac_length := fun _ _ => List.length_replicate

/-- A client that has sent the identifier 7. -/
def waiting : Data where
  radius_identifier := 7
  request_authenticator := List.replicate 16 5
  sixteen := List.length_replicate
  radius_eap_tls_header_size := 4
  recv_eap_msg := none
  recv_eap_msg_len := 0
  state := none
  new_pmk := none
  radius_code := 0

/-- A challenge with an EAP message of two octets in two attributes, and a state. -/
def challenge : Octets :=
  [11, 7, 0, 47] ++ List.replicate 16 0 ++ [79, 3, 1, 24, 3, 9, 80, 18] ++ List.replicate 16 0 ++
    [79, 3, 2]

theorem length_zeroAddress : (List.replicate 16 (0 : UInt8)).length = 16 := List.length_replicate

/-- An EAP response of six octets. -/
def responding : Access where
  type := 13
  length := 6
  length_lt := by decide
  packet_body := [2, 1, 0, 6, 13, 0]
  whole := by decide
  identity := [97]
  identity_short := by decide
  state := some [9]
  radius_identifier := 7
  request_authenticator := List.replicate 16 5
  authenticator_length := List.length_replicate
  calling_station_id := List.replicate 23 48
  calling_length := List.length_replicate
  called_station_id := List.replicate 23 48
  called_length := List.length_replicate
  address := List.replicate 16 0
  address_length := length_zeroAddress

theorem challenge_runs :
    ∃ out, radius_client_sec_prot_receive zeroEnv ⟨true, true⟩ 60 waiting challenge = .ok out := by
  have hrun : (radius_client_sec_prot_receive zeroEnv ⟨true, true⟩ 60 waiting challenge).isOk := by
    decide +kernel
  cases hout : radius_client_sec_prot_receive zeroEnv ⟨true, true⟩ 60 waiting challenge with
  | ok out => exact ⟨out, rfl⟩
  | error e =>
      rw [hout] at hrun
      cases hrun

theorem responding_fits : RequestFits zeroEnv responding where
  identity := fun htype => absurd htype (by decide)
  total := by
    have hfragments : fragments responding.eap = [responding.eap] := by
      rw [fragments, if_neg (by decide)]
    rw [Access.total, hfragments]
    decide
  state := fun _ state hstate => by
    cases hstate
    decide

/-- A header that announces one octet more than was received. -/
def announcing : Octets := [11, 7, 0, 21] ++ List.replicate 16 0

end Radius
