import WisunModem.RadiusPackets

/-!
# Receiving from the RADIUS server

`radius_client_sec_prot_receive` in the order of its checks: the header and the response
authenticator, the message authenticator, the EAP message, the state and the key.  The digests
are parameters.

* `receive_runs`, `receive_fits` — the datagrams on which the code ends and stays inside.
-/

namespace Radius

/-- The shared secret, and the digests of 16 octets over it. -/
structure Env where
  radius_shared_secret : Octets
  md5 : Octets → Octets
  hmac_md5 : Octets → Octets → Octets
  md5_length : ∀ octets, (md5 octets).length = 16
  hmac_length : ∀ key octets, (hmac_md5 key octets).length = 16

/-- The part of `radius_client_sec_prot_int_t` that is read and written on receiving. -/
structure Data where
  radius_identifier : Nat
  request_authenticator : Octets
  sixteen : request_authenticator.length = 16
  radius_eap_tls_header_size : Nat
  recv_eap_msg : Option Octets
  recv_eap_msg_len : Nat
  state : Option Octets
  new_pmk : Option Octets
  radius_code : Nat

/-- Which of the two buffers the allocator grants. -/
structure Grants where
  eap : Bool
  state : Bool

abbrev RADIUS_MSG_FIXED_LENGTH : Nat := 20
abbrev RADIUS_ACCESS_REQUEST : Nat := 1
abbrev RADIUS_ACCESS_ACCEPT : Nat := 2
abbrev MS_MPPE_RECV_KEY_SALT_LEN : Nat := 2
abbrev MS_MPPE_RECV_KEY_BLOCK_LEN : Nat := 16
abbrev PMK_LEN : Nat := 32

/-- `radius_client_sec_prot_response_authenticator_calc` -/
def response_authenticator_calc (env : Env) (msg_len : Nat) (msg : Octets) :
    Except Trouble (Option Octets) :=
  if env.radius_shared_secret = [] then .ok none
  else do
    let octets ← copy msg 0 msg_len
    return some (env.md5 (octets ++ env.radius_shared_secret))

/-- `radius_client_sec_prot_message_authenticator_calc` -/
def message_authenticator_calc (env : Env) (msg_len : Nat) (msg : Octets) :
    Except Trouble (Option Octets) :=
  if env.radius_shared_secret = [] then .ok none
  else do
    let octets ← copy msg 0 msg_len
    return some (env.hmac_md5 env.radius_shared_secret octets)

/-- The loop of `radius_client_sec_prot_ms_mppe_recv_key_pmk_decrypt` over whole blocks; the
seed is the request authenticator with the salt, then the cipher text before. -/
def decryptBlocks (env : Env) (d : Octets) : Nat → Nat → Octets → Except Trouble Octets
  | 0, _, _ => .ok []
  | blocks + 1, cipher_text, seed => do
      let block ← copy d cipher_text MS_MPPE_RECV_KEY_BLOCK_LEN
      let plain ← decryptBlocks env d blocks (cipher_text + MS_MPPE_RECV_KEY_BLOCK_LEN) block
      return List.zipWith (· ^^^ ·) block (env.md5 (env.radius_shared_secret ++ seed)) ++ plain

/-- `radius_client_sec_prot_ms_mppe_recv_key_pmk_decrypt`.  The plain text is as long as the
cipher text, and the key is copied from behind its first octet. -/
def ms_mppe_recv_key_pmk_decrypt (env : Env) (d : Octets) (recv_key recv_key_len : Nat)
    (request_authenticator : Octets) : Except Trouble (Option Octets) :=
  if env.radius_shared_secret = [] then .ok none
  else if recv_key_len < MS_MPPE_RECV_KEY_SALT_LEN + MS_MPPE_RECV_KEY_BLOCK_LEN then .ok none
  else do
    let salt ← copy d recv_key MS_MPPE_RECV_KEY_SALT_LEN
    let cipher_text_len := recv_key_len - MS_MPPE_RECV_KEY_SALT_LEN
    let plain ← decryptBlocks env d (cipher_text_len / MS_MPPE_RECV_KEY_BLOCK_LEN)
      (recv_key + MS_MPPE_RECV_KEY_SALT_LEN) (request_authenticator ++ salt)
    if cipher_text_len % MS_MPPE_RECV_KEY_BLOCK_LEN ≠ 0 then .ok none
    else if 1 + PMK_LEN ≤ cipher_text_len then .ok (some ((plain.drop 1).take PMK_LEN))
    else .error .outside

/-- The key of an Access-Accept, and the end of `radius_client_sec_prot_receive`. -/
def keyRead (env : Env) (fuel : Nat) (data : Data) (code avp_length : Nat) (pdu : Octets) :
    Except Trouble (Data × Bool) := do
  let received : Data :=
    { data with
      radius_code := code
      recv_eap_msg_len := (data.recv_eap_msg_len + data.radius_eap_tls_header_size) % 65536 }
  if code = RADIUS_ACCESS_ACCEPT then do
    let found ← avp_vsa_ms_mppe_recv_key_read pdu fuel RADIUS_MSG_FIXED_LENGTH avp_length
    match found with
    | none => .ok (received, true)
    | some (recv_key, recv_key_len) =>
        if recv_key_len > AVP_FIXED_LEN then do
          let pmk ← ms_mppe_recv_key_pmk_decrypt env pdu recv_key (recv_key_len - AVP_FIXED_LEN)
            data.request_authenticator
          .ok ({ received with new_pmk := pmk.or data.new_pmk }, true)
        else .ok (received, true)
  else .ok (received, true)

/-- The state: a buffer of the same length is kept, another one is freed first. -/
def stateRead (env : Env) (grants : Grants) (fuel : Nat) (data : Data) (code avp_length : Nat)
    (pdu : Octets) : Except Trouble (Data × Bool) := do
  let found ← avp_state_read pdu fuel RADIUS_MSG_FIXED_LENGTH avp_length
  match found with
  | none => keyRead env fuel { data with state := none } code avp_length pdu
  | some (place, len) =>
      let state_len := (len + 256 - AVP_FIXED_LEN) % 256
      if data.state.any (fun state => state.length = state_len) ∨ grants.state = true then do
        let state ← copy pdu place state_len
        keyRead env fuel { data with state := some state } code avp_length pdu
      else .ok ({ data with state := none, recv_eap_msg := none }, false)

/-- The EAP message: its length is counted, and then it is copied behind the header's room. -/
def eapRead (env : Env) (grants : Grants) (fuel : Nat) (data : Data) (code avp_length : Nat)
    (pdu : Octets) : Except Trouble (Data × Bool) := do
  let (eap_len, _) ← eap_avps_handle pdu none fuel RADIUS_MSG_FIXED_LENGTH avp_length
  if eap_len = 0 then .ok ({ data with recv_eap_msg_len := eap_len }, false)
  else if grants.eap = false then .ok ({ data with recv_eap_msg_len := eap_len }, false)
  else do
    let (copy_eap_len, message) ←
      eap_avps_handle pdu (some eap_len) fuel RADIUS_MSG_FIXED_LENGTH avp_length
    if copy_eap_len ≠ eap_len then .ok ({ data with recv_eap_msg_len := eap_len }, false)
    else
      stateRead env grants fuel
        { data with recv_eap_msg := some message, recv_eap_msg_len := eap_len } code avp_length pdu

/-- The message authenticator, which is replaced by zeros for its own calculation. -/
def messageRead (env : Env) (grants : Grants) (fuel : Nat) (data : Data) (code avp_length : Nat)
    (pdu : Octets) : Except Trouble (Data × Bool) := do
  let found ← avp_message_authenticator_read pdu fuel RADIUS_MSG_FIXED_LENGTH avp_length
  match found with
  | none => .ok ({ data with radius_code := code }, true)
  | some message_authenticator => do
      let received ← copy pdu message_authenticator 16
      let pdu ← store pdu message_authenticator (List.replicate 16 0)
      let calculated ← message_authenticator_calc env (avp_length + RADIUS_MSG_FIXED_LENGTH) pdu
      if calculated = some received then eapRead env grants fuel data code avp_length pdu
      else .ok (data, false)

/-- `radius_client_sec_prot_receive`: what is kept, and whether the message is handed on to the
state machine. -/
def radius_client_sec_prot_receive (env : Env) (grants : Grants) (fuel : Nat) (data : Data)
    (pdu : Octets) : Except Trouble (Data × Bool) :=
  if pdu.length < RADIUS_MSG_FIXED_LENGTH then .ok (data, false)
  else do
    let code ← octet pdu 0
    let identifier ← octet pdu 1
    if identifier ≠ data.radius_identifier then .ok (data, false)
    else do
      let high ← octet pdu 2
      let low ← octet pdu 3
      if 256 * high + low < RADIUS_MSG_FIXED_LENGTH then .ok (data, false)
      else do
        let received ← copy pdu 4 16
        let pdu ← store pdu 4 data.request_authenticator
        let calculated ← response_authenticator_calc env (256 * high + low) pdu
        if calculated = some received then
          messageRead env grants fuel { data with recv_eap_msg := none, recv_eap_msg_len := 0 }
            code (256 * high + low - RADIUS_MSG_FIXED_LENGTH) pdu
        else .ok (data, false)

/-! ## Where the code stays inside -/

/-- The first State attribute that is reached lies in the datagram, as it is counted. -/
def StateFits (d : Octets) (p n : Nat) : Prop :=
  Moves d (ofType d AVP_TYPE_STATE) p n ∧
    ∀ q m, Passes d (ofType d AVP_TYPE_STATE) p n q m → 2 ≤ m → val d (q + 1) ≤ m →
      val d q = AVP_TYPE_STATE →
        q + 2 + (val d (q + 1) + 256 - AVP_FIXED_LEN) % 256 ≤ d.length

/-- The blocks of a key of `len` octets with its length octet and salt lie in the datagram, and
whole blocks are three at least. -/
def KeyInside (d : Octets) (place len : Nat) : Prop :=
  20 ≤ len → place + 2 + 16 * ((len - 4) / 16) ≤ d.length ∧ ((len - 4) % 16 = 0 → 52 ≤ len)

/-- The first key attribute that is reached holds such a key. -/
def KeyFits (d : Octets) (p n : Nat) : Prop :=
  Moves d (ofVendor d 311 17) p n ∧
    ∀ q m place len, Passes d (ofVendor d 311 17) p n q m → 2 ≤ m → val d (q + 1) ≤ m →
      ofVendor d 311 17 q = some (place, len) → KeyInside d place len

/-- The readers stay inside behind the message authenticator. -/
def AttributesFit (code : Nat) (d : Octets) (p n : Nat) : Prop :=
  EapFits d p n ∧ (HasEap d p n → StateFits d p n ∧ (code = RADIUS_ACCESS_ACCEPT → KeyFits d p n))

/-- The octets a message authenticator is calculated over. -/
def blanked (d : Octets) (q : Nat) : Octets := overwrite d (q + 2) (List.replicate 16 0)

/-- The readers stay inside behind the response authenticator. -/
def MessageFits (env : Env) (code length : Nat) (d : Octets) : Prop :=
  Moves d (ofType d AVP_TYPE_MESSAGE_AUTHENTICATOR) 20 (length - 20) ∧
    ∀ q m, Passes d (ofType d AVP_TYPE_MESSAGE_AUTHENTICATOR) 20 (length - 20) q m → 2 ≤ m →
      val d (q + 1) ≤ m → val d q = AVP_TYPE_MESSAGE_AUTHENTICATOR → 18 ≤ val d (q + 1) →
      env.hmac_md5 env.radius_shared_secret ((blanked d q).take length) =
        (d.drop (q + 2)).take 16 →
      AttributesFit code (blanked d q) 20 (length - 20)

/-- The length the packet announces. -/
def announced (pdu : Octets) : Nat := 256 * val pdu 2 + val pdu 3

/-- The octets a response authenticator is calculated over. -/
def requested (data : Data) (pdu : Octets) : Octets := overwrite pdu 4 data.request_authenticator

/-- The response authenticator is the one of the packet. -/
def Authentic (env : Env) (data : Data) (pdu : Octets) : Prop :=
  env.md5 ((requested data pdu).take (announced pdu) ++ env.radius_shared_secret) =
    (pdu.drop 4).take 16

/-- **Where the code ends and stays inside**: the announced length is not longer than the
datagram, and no reader leaves it. -/
def ReceiveFits (env : Env) (data : Data) (pdu : Octets) : Prop :=
  20 ≤ pdu.length → val pdu 1 = data.radius_identifier → 20 ≤ announced pdu →
    env.radius_shared_secret ≠ [] →
      announced pdu ≤ pdu.length ∧
        (Authentic env data pdu →
          MessageFits env (val pdu 0) (announced pdu) (requested data pdu))

variable {env : Env} {grants : Grants} {data : Data} {d pdu : Octets} {p n q m fuel len : Nat}
  {code : Nat} {out : Data × Bool}

/-! ## The key -/

theorem copy_ok (h : p + n ≤ d.length) : copy d p n = .ok ((d.drop p).take n) := if_pos h

theorem copy_inside {octets : Octets} (h : copy d p n = .ok octets) : p + n ≤ d.length := by
  by_contra hin
  rw [copy, if_neg hin] at h
  cases h

theorem decryptBlocks_iff (blocks : Nat) (seed : Octets) (hp : p ≤ d.length) :
    (∃ plain, decryptBlocks env d blocks p seed = .ok plain) ↔ p + 16 * blocks ≤ d.length := by
  induction blocks generalizing p seed with
  | zero => simpa [decryptBlocks] using hp
  | succ blocks ih =>
      constructor
      · rintro ⟨plain, h⟩
        rw [decryptBlocks] at h
        cases hcopy : copy d p MS_MPPE_RECV_KEY_BLOCK_LEN with
        | error e =>
            rw [hcopy] at h
            cases h
        | ok block =>
            have hin := copy_inside hcopy
            simp only [MS_MPPE_RECV_KEY_BLOCK_LEN] at hin
            cases hrest : decryptBlocks env d blocks (p + MS_MPPE_RECV_KEY_BLOCK_LEN) block with
            | error e =>
                rw [hcopy] at h
                simp only [bind, Except.bind] at h
                rw [hrest] at h
                cases h
            | ok rest =>
                have := (ih block hin).mp ⟨rest, hrest⟩
                omega
      · intro h
        have hin : p + MS_MPPE_RECV_KEY_BLOCK_LEN ≤ d.length := by
          simp only [MS_MPPE_RECV_KEY_BLOCK_LEN]
          omega
        obtain ⟨rest, hrest⟩ := (ih ((d.drop p).take MS_MPPE_RECV_KEY_BLOCK_LEN) hin).mpr
          (by simp only [MS_MPPE_RECV_KEY_BLOCK_LEN]; omega)
        rw [decryptBlocks, copy_ok hin]
        simp only [bind, Except.bind]
        rw [hrest]
        exact ⟨_, rfl⟩

/-- **The key** is decrypted inside the datagram and inside the plain text. -/
theorem decrypt_iff (hsecret : env.radius_shared_secret ≠ []) (hlen : 2 < len) (auth : Octets) :
    (∃ pmk, ms_mppe_recv_key_pmk_decrypt env d p (len - AVP_FIXED_LEN) auth = .ok pmk) ↔
      KeyInside d p len := by
  rw [ms_mppe_recv_key_pmk_decrypt, if_neg hsecret]
  simp only [MS_MPPE_RECV_KEY_SALT_LEN, MS_MPPE_RECV_KEY_BLOCK_LEN, AVP_FIXED_LEN, PMK_LEN,
    KeyInside]
  by_cases hshort : len - 2 < 2 + 16
  · rw [if_pos hshort]
    exact ⟨fun _ h => absurd h (by omega), fun _ => ⟨_, rfl⟩⟩
  rw [if_neg hshort, show len - 2 - 2 = len - 4 by omega]
  by_cases hsalt : p + 2 ≤ d.length
  · rw [copy_ok hsalt]
    simp only [bind, Except.bind]
    have hblocks := @decryptBlocks_iff env d (p + 2) ((len - 4) / 16)
      (auth ++ (d.drop p).take 2) hsalt
    cases hplain : decryptBlocks env d ((len - 4) / 16) (p + 2) (auth ++ (d.drop p).take 2) with
    | error e =>
        rw [hplain] at hblocks
        constructor
        · rintro ⟨pmk, h⟩
          cases h
        · intro h
          obtain ⟨plain, h⟩ := hblocks.mpr (h (by omega)).1
          cases h
    | ok plain =>
        have hin := hblocks.mp ⟨plain, hplain⟩
        dsimp only
        by_cases hwhole : (len - 4) % 16 = 0
        · rw [if_neg (by omega)]
          by_cases hlong : 1 + 32 ≤ len - 4
          · rw [if_pos hlong]
            exact ⟨fun _ _ => ⟨hin, fun _ => by omega⟩, fun _ => ⟨_, rfl⟩⟩
          · rw [if_neg hlong]
            constructor
            · rintro ⟨pmk, h⟩
              cases h
            · intro h
              have := (h (by omega)).2 hwhole
              omega
        · rw [if_pos hwhole]
          exact ⟨fun _ _ => ⟨hin, fun h => absurd h hwhole⟩, fun _ => ⟨_, rfl⟩⟩
  · rw [copy, if_neg hsalt]
    constructor
    · rintro ⟨pmk, h⟩
      cases h
    · intro h
      have := (h (by omega)).1
      omega

/-! ## One stage after the other -/

theorem length_overwrite {bs : Octets} (h : p + bs.length ≤ d.length) :
    (overwrite d p bs).length = d.length := by
  rw [overwrite, List.length_append, List.length_append, List.length_take, List.length_drop]
  omega

theorem length_blanked (h : q + 2 + 16 ≤ d.length) : (blanked d q).length = d.length :=
  length_overwrite (by simpa using h)

theorem bind_ok {α β : Type} {x : Except Trouble α} {f : α → Except Trouble β} {b : β} :
    x >>= f = .ok b ↔ ∃ a, x = .ok a ∧ f a = .ok b := by
  cases x with
  | ok a =>
      constructor
      · intro h
        exact ⟨a, rfl, h⟩
      · rintro ⟨_, ha, h⟩
        cases ha
        exact h
  | error e =>
      constructor
      · intro h
        cases h
      · rintro ⟨_, ha, _⟩
        cases ha

section Stages

variable (hin : 20 + n ≤ d.length) (hn : n < 65536)
include hin hn

theorem keyRead_fits (hsecret : env.radius_shared_secret ≠ [])
    (h : keyRead env fuel data code n d = .ok out) (hcode : code = RADIUS_ACCESS_ACCEPT) :
    KeyFits d 20 n := by
  rw [keyRead] at h
  simp only [if_pos hcode] at h
  obtain ⟨r, hr, hrest⟩ := bind_ok.mp h
  have hcheck := checks_vendor d 311 17
  refine ⟨search_moves hcheck hin hn hr, ?_⟩
  intro q m place len hreach hm hl hfound
  cases search_reports hcheck hin hn hr hreach hm hl hfound
  by_cases hlen : len > AVP_FIXED_LEN
  · simp only [if_pos hlen] at hrest
    obtain ⟨pmk, hpmk, _⟩ := bind_ok.mp hrest
    exact (decrypt_iff hsecret hlen _).mp ⟨pmk, hpmk⟩
  · intro h20
    simp only [AVP_FIXED_LEN] at hlen
    omega

theorem keyRead_runs (hsecret : env.radius_shared_secret ≠ []) (hfuel : n < fuel)
    (hfits : code = RADIUS_ACCESS_ACCEPT → KeyFits d 20 n) :
    ∃ out, keyRead env fuel data code n d = .ok out := by
  rw [keyRead]
  by_cases hcode : code = RADIUS_ACCESS_ACCEPT
  · simp only [if_pos hcode]
    obtain ⟨hmoves, hinside⟩ := hfits hcode
    have hcheck := checks_vendor d 311 17
    obtain ⟨r, hr⟩ := search_ends hcheck hin hn hmoves hfuel
    rw [avp_vsa_ms_mppe_recv_key_read, avp_vpa_search]
    rw [hr]
    rcases r with _ | ⟨place, len⟩
    · exact ⟨_, rfl⟩
    · obtain ⟨q, m, hreach, hm, hl, hfound⟩ := search_found hcheck hin hn hr
      have hkey := hinside q m place len hreach hm hl hfound
      by_cases hlen : len > AVP_FIXED_LEN
      · obtain ⟨pmk, hpmk⟩ := (@decrypt_iff env d place len hsecret hlen
          data.request_authenticator).mpr hkey
        simp only [bind, Except.bind, if_pos hlen, hpmk]
        exact ⟨_, rfl⟩
      · simp only [bind, Except.bind, if_neg hlen]
        exact ⟨_, rfl⟩
  · simp only [if_neg hcode]
    exact ⟨_, rfl⟩

theorem stateRead_fits (hsecret : env.radius_shared_secret ≠ []) (hgrants : grants.state = true)
    (h : stateRead env grants fuel data code n d = .ok out) :
    StateFits d 20 n ∧ (code = RADIUS_ACCESS_ACCEPT → KeyFits d 20 n) := by
  rw [stateRead] at h
  obtain ⟨r, hr, hrest⟩ := bind_ok.mp h
  have hcheck := checks_type d AVP_TYPE_STATE
  refine ⟨⟨search_moves hcheck hin hn hr, ?_⟩, ?_⟩
  · intro q m hreach hm hl htype
    have hfound : ofType d AVP_TYPE_STATE q = some (q + 2, val d (q + 1)) := if_pos htype
    cases search_reports hcheck hin hn hr hreach hm hl hfound
    simp only [hgrants, or_true, if_true] at hrest
    obtain ⟨state, hcopy, _⟩ := bind_ok.mp hrest
    exact copy_inside hcopy
  · intro hcode
    rcases r with _ | ⟨place, len⟩
    · exact keyRead_fits hin hn hsecret hrest hcode
    · simp only [hgrants, or_true, if_true] at hrest
      obtain ⟨state, _, hkey⟩ := bind_ok.mp hrest
      exact keyRead_fits hin hn hsecret hkey hcode

theorem stateRead_runs (hsecret : env.radius_shared_secret ≠ []) (hfuel : n < fuel)
    (hstate : StateFits d 20 n) (hkey : code = RADIUS_ACCESS_ACCEPT → KeyFits d 20 n) :
    ∃ out, stateRead env grants fuel data code n d = .ok out := by
  rw [stateRead]
  obtain ⟨hmoves, hinside⟩ := hstate
  have hcheck := checks_type d AVP_TYPE_STATE
  obtain ⟨r, hr⟩ := search_ends hcheck hin hn hmoves hfuel
  rw [avp_state_read, avp_search]
  rw [hr]
  rcases r with _ | ⟨place, len⟩
  · exact keyRead_runs hin hn hsecret hfuel hkey
  · obtain ⟨q, m, hreach, hm, hl, hfound⟩ := search_found hcheck hin hn hr
    have htype : val d q = AVP_TYPE_STATE := ofType_isSome.mp (by rw [hfound]; rfl)
    rw [ofType, if_pos htype] at hfound
    cases hfound
    simp only [bind, Except.bind]
    split
    · rw [copy_ok (hinside q m hreach hm hl htype)]
      exact keyRead_runs hin hn hsecret hfuel hkey
    · exact ⟨_, rfl⟩

theorem eapRead_fits (hsecret : env.radius_shared_secret ≠ []) (heap : grants.eap = true)
    (hgrants : grants.state = true) (hd : d.length < 65536)
    (h : eapRead env grants fuel data code n d = .ok out) :
    AttributesFit code d 20 n := by
  rw [eapRead] at h
  obtain ⟨⟨eap_len, counted⟩, hcount, hrest⟩ := bind_ok.mp h
  dsimp only at hrest
  by_cases hzero : eap_len = 0
  · obtain ⟨hfits, hnone⟩ := eap_count_zero hcount hn hd hzero
    exact ⟨hfits, fun hsome => absurd hsome hnone⟩
  rw [if_neg hzero, heap, if_neg (by simp)] at hrest
  obtain ⟨⟨copy_eap_len, message⟩, hcopy, hrest⟩ := bind_ok.mp hrest
  refine ⟨eap_fits hn hcopy, fun hsome => ?_⟩
  dsimp only at hrest
  by_cases hsame : copy_eap_len ≠ eap_len
  · exact absurd (eap_loop_agrees hcount hcopy).symm hsame
  · rw [if_neg hsame] at hrest
    exact stateRead_fits hin hn hsecret hgrants hrest

theorem eapRead_runs (hsecret : env.radius_shared_secret ≠ []) (hfuel : d.length + 2 ≤ fuel)
    (h : AttributesFit code d 20 n) (hd : d.length < 65536) :
    ∃ out, eapRead env grants fuel data code n d = .ok out := by
  obtain ⟨hfits, hrest⟩ := h
  obtain ⟨value, hvalue, hshort, hsome⟩ := eap_runs hfits hn hfuel
  have hcount := hvalue.counted fuel 0 [] (by omega) (by omega) (by omega)
  have hcopy := hvalue.copied value.length fuel 0 [] (by omega) (by omega) (by omega) (by simp)
  have hlen : (0 + value.length) % 65536 = value.length := by omega
  rw [hlen] at hcount hcopy
  have hcounted : eap_avps_handle d none fuel RADIUS_MSG_FIXED_LENGTH n =
      .ok (value.length, []) := hcount
  have hcopied : eap_avps_handle d (some value.length) fuel RADIUS_MSG_FIXED_LENGTH n =
      .ok (value.length, [] ++ value) := hcopy
  rw [eapRead, hcounted]
  simp only [bind, Except.bind]
  split
  · exact ⟨_, rfl⟩
  next hnonzero =>
  split
  · exact ⟨_, rfl⟩
  rw [hcopied]
  simp only [ne_eq, not_true, if_false]
  obtain ⟨hstate, hkey⟩ := hrest (hsome.mp hnonzero)
  exact stateRead_runs hin hn hsecret (by omega) hstate hkey

theorem messageRead_fits (hsecret : env.radius_shared_secret ≠ []) (hgrants : grants = ⟨true, true⟩)
    (hd : d.length < 65536) (h : messageRead env grants fuel data code n d = .ok out) :
    MessageFits env code (n + 20) d := by
  rw [messageRead] at h
  obtain ⟨found, hread, hrest⟩ := bind_ok.mp h
  rw [avp_message_authenticator_read] at hread
  obtain ⟨r, hr, hret⟩ := bind_ok.mp hread
  have hcheck := checks_type d AVP_TYPE_MESSAGE_AUTHENTICATOR
  have hlength : n + 20 - 20 = n := Nat.add_sub_cancel n 20
  rw [MessageFits, hlength]
  refine ⟨search_moves hcheck hin hn hr, ?_⟩
  intro q m hreach hm hl htype hlong hauthentic
  have hfound : ofType d AVP_TYPE_MESSAGE_AUTHENTICATOR q = some (q + 2, val d (q + 1)) :=
    if_pos htype
  cases search_reports hcheck hin hn hr hreach hm hl hfound
  have hplace : found = some (q + 2) := by
    have h := Except.ok.inj hret
    dsimp only at h
    rw [if_neg (by omega)] at h
    exact h.symm
  subst hplace
  have hsum := hreach.sum hn
  have hvalue : q + 2 + 16 ≤ d.length := by omega
  have hblanked : (blanked d q).length = d.length := length_blanked hvalue
  dsimp only at hrest
  rw [copy_ok hvalue, store, if_pos (by simpa using hvalue)] at hrest
  simp only [bind, Except.bind] at hrest
  rw [message_authenticator_calc, if_neg hsecret] at hrest
  simp only [bind, Except.bind] at hrest
  rw [← blanked, copy_ok (by rw [hblanked, RADIUS_MSG_FIXED_LENGTH]; omega)] at hrest
  simp only [pure, Except.pure, List.drop_zero] at hrest
  rw [hauthentic, if_pos rfl] at hrest
  exact eapRead_fits (by rw [hblanked]; exact hin) hn hsecret (by rw [hgrants]) (by rw [hgrants])
    (by rw [hblanked]; exact hd) hrest

theorem messageRead_runs (hsecret : env.radius_shared_secret ≠ [])
    (hfuel : d.length + 2 ≤ fuel) (hd : d.length < 65536)
    (h : MessageFits env code (n + 20) d) :
    ∃ out, messageRead env grants fuel data code n d = .ok out := by
  have hlength : n + 20 - 20 = n := Nat.add_sub_cancel n 20
  rw [MessageFits, hlength] at h
  obtain ⟨hmoves, hinside⟩ := h
  have hcheck := checks_type d AVP_TYPE_MESSAGE_AUTHENTICATOR
  have hlt : n < fuel := by omega
  obtain ⟨r, hr⟩ := search_ends hcheck hin hn hmoves hlt
  have hr' : avp_search d AVP_TYPE_MESSAGE_AUTHENTICATOR fuel RADIUS_MSG_FIXED_LENGTH n = .ok r :=
    hr
  rw [messageRead, avp_message_authenticator_read, hr']
  simp only [bind, Except.bind, pure, Except.pure]
  rcases r with _ | ⟨place, l⟩
  · exact ⟨_, rfl⟩
  · dsimp only
    by_cases hlong : l < 18
    · rw [if_pos hlong]
      exact ⟨_, rfl⟩
    rw [if_neg hlong]
    obtain ⟨q, m, hreach, hm, hl, hfound⟩ := search_found hcheck hin hn hr
    have htype : val d q = AVP_TYPE_MESSAGE_AUTHENTICATOR :=
      ofType_isSome.mp (by rw [hfound]; rfl)
    rw [ofType, if_pos htype] at hfound
    cases hfound
    have hsum := hreach.sum hn
    have hvalue : q + 2 + 16 ≤ d.length := by omega
    have hblanked : (blanked d q).length = d.length := length_blanked hvalue
    dsimp only
    rw [copy_ok hvalue, store, if_pos (by simpa using hvalue)]
    dsimp only
    rw [message_authenticator_calc, if_neg hsecret]
    dsimp only [bind, Except.bind]
    rw [← blanked, copy_ok (by rw [hblanked, RADIUS_MSG_FIXED_LENGTH]; omega)]
    simp only [pure, Except.pure, List.drop_zero]
    split
    next hauthentic =>
      exact eapRead_runs (by rw [hblanked]; exact hin) hn hsecret (by rw [hblanked]; exact hfuel)
        (hinside q m hreach hm hl htype (by omega) (Option.some.inj hauthentic))
        (by rw [hblanked]; exact hd)
    · exact ⟨_, rfl⟩

end Stages

/-! ## The header -/

theorem length_requested (hsize : 20 ≤ pdu.length) : (requested data pdu).length = pdu.length :=
  length_overwrite (by rw [data.sixteen]; omega)

/-- **The header checks** of a datagram with a header. -/
theorem receive_eq (hsize : 20 ≤ pdu.length) :
    radius_client_sec_prot_receive env grants fuel data pdu =
      if val pdu 1 ≠ data.radius_identifier then .ok (data, false)
      else if announced pdu < 20 then .ok (data, false)
      else (response_authenticator_calc env (announced pdu) (requested data pdu)).bind
        fun calculated =>
          if calculated = some ((pdu.drop 4).take 16) then
            messageRead env grants fuel { data with recv_eap_msg := none, recv_eap_msg_len := 0 }
              (val pdu 0) (announced pdu - 20) (requested data pdu)
          else .ok (data, false) := by
  rw [radius_client_sec_prot_receive, if_neg (by simpa using hsize), octet_ok (by omega),
    octet_ok (by omega), octet_ok (by omega), octet_ok (by omega), copy_ok (by omega), store,
    if_pos (by rw [data.sixteen]; omega)]
  rfl

/-- Where the code stays inside, it ends. -/
theorem receive_runs (hd : pdu.length < 65536) (h : ReceiveFits env data pdu) (grants : Grants) :
    ∃ out, radius_client_sec_prot_receive env grants (pdu.length + 2) data pdu = .ok out := by
  by_cases hsize : 20 ≤ pdu.length
  · rw [receive_eq hsize]
    split
    · exact ⟨_, rfl⟩
    next hid =>
    split
    · exact ⟨_, rfl⟩
    next hlong =>
    rw [response_authenticator_calc]
    split
    · exact ⟨_, rfl⟩
    next hsecret =>
    obtain ⟨hin, hmessage⟩ := h hsize (by simpa using hid) (by omega) hsecret
    rw [copy_ok (by rw [length_requested hsize]; omega), List.drop_zero]
    simp only [bind, Except.bind, pure, Except.pure]
    split
    next hauthentic =>
      refine messageRead_runs (by rw [length_requested hsize]; omega) (by omega) hsecret
        (by have := @length_requested data _ hsize; omega)
        (by rw [length_requested hsize]; exact hd) ?_
      rw [Nat.sub_add_cancel (by omega)]
      exact hmessage (Option.some.inj hauthentic)
    · exact ⟨_, rfl⟩
  · exact ⟨(data, false), if_pos (by simpa using hsize)⟩

/-- Where the code ends, it has stayed inside. -/
theorem receive_fits (hd : pdu.length < 65536)
    (h : radius_client_sec_prot_receive env ⟨true, true⟩ fuel data pdu = .ok out) :
    ReceiveFits env data pdu := by
  intro hsize hid hlong hsecret
  rw [receive_eq hsize, if_neg (by simpa using hid), if_neg (by omega),
    response_authenticator_calc, if_neg hsecret] at h
  obtain ⟨calculated, hcalc, hrest⟩ := bind_ok.mp h
  obtain ⟨octets, hcopy, hret⟩ := bind_ok.mp hcalc
  have hin := copy_inside hcopy
  rw [length_requested hsize, Nat.zero_add] at hin
  refine ⟨hin, fun hauthentic => ?_⟩
  rw [copy_ok (by rw [length_requested hsize]; omega)] at hcopy
  cases hcopy
  cases hret
  rw [List.drop_zero, hauthentic, if_pos rfl] at hrest
  have hfits := messageRead_fits (by rw [length_requested hsize]; omega) (by omega) hsecret rfl
    (by rw [length_requested hsize]; exact hd) hrest
  rwa [Nat.sub_add_cancel hlong] at hfits

end Radius
