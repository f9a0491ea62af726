import Mathlib.Algebra.GroupWithZero.Nat
import WisunModem.EapolKey

/-!
# What the MIC of an EAPOL-Key frame covers

`sec_prot_lib_message_build` and `sec_prot_lib_mic_validate` (`sec_prot_lib.c`).  The builder
takes the size of the PDU in 16 bits and the checker in 8, so the MIC of a longer PDU is checked
over its first bytes only.  HMAC and the key wrap are parameters.
-/

namespace EapolCodec

open ByteStore (beBytes length_beBytes)

/-- The first 16 bytes of the HMAC of some data under a key. -/
abbrev Hmac := List UInt8 → List UInt8 → Vector UInt8 16

/-- `nist_aes_key_wrap` of some data under a key, where it succeeds. -/
abbrev Wrap := List UInt8 → List UInt8 → Option (List UInt8)

/-- The KCK is the first part of the PTK. -/
def kck (ptk : Vector UInt8 48) : List UInt8 := ptk.toList.take 16

def kek (ptk : Vector UInt8 48) : List UInt8 := (ptk.toList.drop 16).take 16

/-- The PDU with its MIC field zeroed. -/
def zeroed (pdu : List UInt8) : List UInt8 := eapol_write_key_packet_mic pdu (List.replicate 16 0)

/-- `sec_prot_lib_mic_validate`, which takes the size in 8 bits. -/
def sec_prot_lib_mic_validate (hmac : Hmac) (ptk : Vector UInt8 48) (mic pdu : List UInt8)
    (pduSize : UInt8) : Bool :=
  mic == (hmac (kck ptk) ((zeroed pdu).take pduSize.toNat)).toList

/-- The MIC field. -/
def micField (pdu : List UInt8) : List UInt8 := (pdu.drop 81).take 16

/-- How the protocols validate a received PDU: the MIC is the one in it, and the size is that of
what was received. -/
def Validates (hmac : Hmac) (ptk : Vector UInt8 48) (pdu : List UInt8) : Prop :=
  sec_prot_lib_mic_validate hmac ptk (micField pdu) pdu (.ofNat pdu.length) = true

/-- A key frame as the protocols hand it to `sec_prot_lib_message_build`: made by
`eapol_pdu_key_frame_init` for the key data elements, without pointers to key data or MIC. -/
structure Message where
  frame : KeyFrame
  kde : List UInt8
  noMic : frame.keyMic = none
  noData : frame.keyData = none
  length : frame.keyDataLength.toNat = kde.length

/-- The key data as they are sent: encrypted ones are wrapped into as many bytes, the last eight
of which were left for it. -/
def Message.keyData (m : Message) (wrap : Wrap) (ptk : Vector UInt8 48) : Option (List UInt8) :=
  if m.frame.keyInformation.encryptedKeyData then
    (wrap (kek ptk) (m.kde.take (m.kde.length - 8))).filter fun out => out.length = m.kde.length
  else some m.kde

/-- `sec_prot_lib_message_build` -/
def sec_prot_lib_message_build (hmac : Hmac) (wrap : Wrap) (ptk : Vector UInt8 48) (m : Message) :
    Option (List UInt8) := do
  let keyData ← m.keyData wrap ptk
  let pdu := eapol_write_pdu_frame (95 + m.frame.keyDataLength) m.frame ++ keyData
  if m.frame.keyInformation.keyMic then
    pure (eapol_write_key_packet_mic pdu (hmac (kck ptk) pdu).toList)
  else pure pdu

/-! ## The MIC field -/

section

variable {pdu mic : List UInt8}

variable (pdu mic) in
theorem length_write_mic (h : 97 ≤ pdu.length) (hmic : mic.length = 16) :
    (eapol_write_key_packet_mic pdu mic).length = pdu.length := by
  unfold eapol_write_key_packet_mic
  rw [List.length_append, List.length_append, List.length_take, List.length_drop]
  omega

variable (pdu mic) in
theorem micField_write_mic (h : 97 ≤ pdu.length) (hmic : mic.length = 16) :
    micField (eapol_write_key_packet_mic pdu mic) = mic := by
  have hfront : (pdu.take 81).length = 81 := by
    rw [List.length_take]
    omega
  unfold micField eapol_write_key_packet_mic
  rw [List.append_assoc, List.drop_left' hfront, List.take_left' hmic]

variable (pdu mic) in
/-- Writing the MIC does not change the rest. -/
theorem zeroed_write_mic (h : 97 ≤ pdu.length) (hmic : mic.length = 16) :
    zeroed (eapol_write_key_packet_mic pdu mic) = zeroed pdu := by
  have hfront : (pdu.take 81).length = 81 := by
    rw [List.length_take]
    omega
  have hboth : (pdu.take 81 ++ mic).length = 97 := by
    rw [List.length_append]
    omega
  have htake : (pdu.take 81 ++ mic ++ pdu.drop 97).take 81 = pdu.take 81 := by
    rw [List.append_assoc, List.take_left' hfront]
  unfold zeroed eapol_write_key_packet_mic
  rw [htake, List.drop_left' hboth]

variable (pdu) in
/-- The field and the rest are all of the PDU. -/
theorem write_micField (h : 97 ≤ pdu.length) :
    eapol_write_key_packet_mic (zeroed pdu) (micField pdu) = pdu := by
  have hzeros : (List.replicate 16 (0 : UInt8)).length = 16 := rfl
  have hfront : (pdu.take 81).length = 81 := by
    rw [List.length_take]
    omega
  have hboth : (pdu.take 81 ++ List.replicate 16 0).length = 97 := by
    rw [List.length_append]
    omega
  have htake : (pdu.take 81 ++ List.replicate 16 0 ++ pdu.drop 97).take 81 = pdu.take 81 := by
    rw [List.append_assoc, List.take_left' hfront]
  unfold zeroed micField eapol_write_key_packet_mic
  rw [htake, List.drop_left' hboth]
  have hdrop : pdu.drop 97 = (pdu.drop 81).drop 16 := by rw [List.drop_drop]
  rw [hdrop, List.append_assoc, List.take_append_drop, List.take_append_drop]

theorem length_zeroed (h : 97 ≤ pdu.length) : (zeroed pdu).length = pdu.length :=
  length_write_mic pdu _ h rfl

theorem length_micField (h : 97 ≤ pdu.length) : (micField pdu).length = 16 := by
  unfold micField
  rw [List.length_take, List.length_drop]
  omega

/-- Up to 255 bytes the size passes through 8 bits. -/
theorem validates_iff (h : 97 ≤ pdu.length) (hsize : pdu.length < 256) (hmac : Hmac)
    (ptk : Vector UInt8 48) :
    Validates hmac ptk pdu ↔ micField pdu = (hmac (kck ptk) (zeroed pdu)).toList := by
  have htake : (zeroed pdu).take (UInt8.ofNat pdu.length).toNat = zeroed pdu := by
    refine List.take_of_length_le ?_
    rw [length_zeroed h, UInt8.toNat_ofNat']
    omega
  unfold Validates sec_prot_lib_mic_validate
  rw [htake, beq_iff_eq]

/-- An HMAC that tells data of `n` bytes from others. -/
def hmacOf (n : Nat) (mic mic' : Vector UInt8 16) : Hmac := fun _ data =>
  if data.length = n then mic else mic'

variable (pdu) in
/-- Beyond that another part of the PDU is checked. -/
theorem not_validates (h : 97 ≤ pdu.length) (hsize : 256 ≤ pdu.length) (mic : Vector UInt8 16)
    (mic' : Vector UInt8 16) (hmic' : micField pdu ≠ mic'.toList) (ptk : Vector UInt8 48) :
    ¬ Validates (hmacOf pdu.length mic mic') ptk pdu := by
  have hlen : ((zeroed pdu).take (UInt8.ofNat pdu.length).toNat).length ≠ pdu.length := by
    rw [List.length_take, length_zeroed h, UInt8.toNat_ofNat']
    omega
  unfold Validates sec_prot_lib_mic_validate hmacOf
  rw [if_neg hlen, beq_iff_eq]
  exact hmic'

/-- There is another MIC than a given one. -/
theorem exists_other_mic (field : List UInt8) : ∃ mic : Vector UInt8 16, field ≠ mic.toList := by
  by_cases h : field = (Vector.replicate 16 (0 : UInt8)).toList
  · refine ⟨Vector.replicate 16 1, ?_⟩
    rw [h]
    decide
  · exact ⟨_, h⟩

/-! ## Accepted PDUs -/

theorem key_packet_mic {p : List UInt8} {i n : Nat} {f : KeyFrame}
    (h : eapol_parse_key_packet p i n = some (some f)) :
    95 ≤ n ∧ ∃ mic, slice p (i + 77) 16 = some mic ∧ f.keyMic = pointer 16 mic := by
  unfold eapol_parse_key_packet at h
  by_cases hshort : n < 95
  · rw [if_pos hshort] at h
    cases h
  rw [if_neg hshort] at h
  obtain ⟨keyDescription, -, h⟩ := Option.bind_eq_some_iff.mp h
  split at h
  · cases h
  obtain ⟨word, -, h⟩ := Option.bind_eq_some_iff.mp h
  split at h
  · cases h
  obtain ⟨keyLength, -, h⟩ := Option.bind_eq_some_iff.mp h
  obtain ⟨replayCounter, -, h⟩ := Option.bind_eq_some_iff.mp h
  obtain ⟨nonce, -, h⟩ := Option.bind_eq_some_iff.mp h
  obtain ⟨iv, -, h⟩ := Option.bind_eq_some_iff.mp h
  obtain ⟨rsc, -, h⟩ := Option.bind_eq_some_iff.mp h
  obtain ⟨mic, hmic, h⟩ := Option.bind_eq_some_iff.mp h
  obtain ⟨keyDataLength, -, h⟩ := Option.bind_eq_some_iff.mp h
  split at h
  · cases h
  obtain ⟨keyData, -, h⟩ := Option.bind_eq_some_iff.mp h
  cases h
  exact ⟨Nat.le_of_not_lt hshort, mic, hmic, rfl⟩

/-- A PDU accepted as a key frame has the bytes of its MIC. -/
theorem accepted {f : KeyFrame} (h : eapol_parse_pdu_header pdu = some (some (.key f))) :
    99 ≤ pdu.length ∧ f.keyMic.map (·.toList) = some (micField pdu) := by
  unfold eapol_parse_pdu_header at h
  by_cases hshort : pdu.length < 4
  · rw [if_pos hshort] at h
    cases h
  rw [if_neg hshort] at h
  obtain ⟨protocol, -, h⟩ := Option.bind_eq_some_iff.mp h
  split at h
  · cases h
  obtain ⟨packetType, -, h⟩ := Option.bind_eq_some_iff.mp h
  obtain ⟨packetLength, -, h⟩ := Option.bind_eq_some_iff.mp h
  split at h
  · cases h
  next hlength =>
  split at h
  · obtain ⟨header, -, hheader⟩ := Option.map_eq_some_iff.mp h
    obtain ⟨header', -, hne⟩ := Option.map_eq_some_iff.mp hheader
    cases hne
  · split at h
    · obtain ⟨frame, hframe, hkey⟩ := Option.map_eq_some_iff.mp h
      obtain ⟨f', rfl, hsame⟩ := Option.map_eq_some_iff.mp hkey
      cases hsame
      obtain ⟨hle, mic, hmic, hfield⟩ := key_packet_mic hframe
      have hlong : 99 ≤ pdu.length := by omega
      refine ⟨hlong, ?_⟩
      have hslice : slice pdu (4 + 77) 16 = some (micField pdu) := if_pos (by omega)
      rw [hslice] at hmic
      cases hmic
      have hpointer : pointer 16 (micField pdu)
          = some ⟨(micField pdu).toArray, by simpa using length_micField (by omega)⟩ :=
        dif_pos (length_micField (by omega))
      rw [hfield, hpointer]
      rfl
    · cases h

/-! ## Built PDUs -/

theorem length_pdu (m : Message) :
    (eapol_write_pdu_frame (95 + m.frame.keyDataLength) m.frame).length = 99 := by
  unfold eapol_write_pdu_frame KeyFrame.write KeyFrame.front
  rw [m.noData]
  simp

/-- Before the MIC is written its field is zero. -/
theorem zeroed_pdu (m : Message) (body : List UInt8) :
    zeroed (eapol_write_pdu_frame (95 + m.frame.keyDataLength) m.frame ++ body)
      = eapol_write_pdu_frame (95 + m.frame.keyDataLength) m.frame ++ body := by
  have hlen := length_pdu m
  have hfield : micField (eapol_write_pdu_frame (95 + m.frame.keyDataLength) m.frame ++ body)
      = List.replicate 16 0 := by
    have hslice : slice (eapol_write_pdu_frame (95 + m.frame.keyDataLength) m.frame ++ body) 81 16
        = some (List.replicate 16 0) := by
      have hmic : orZero (if m.frame.keyInformation.keyMic then m.frame.keyMic else none)
          = List.replicate 16 0 := by
        rw [m.noMic, ite_self]
        simp [orZero]
      refine slice_of_append (a := [3, 3] ++ beBytes 2 (95 + m.frame.keyDataLength).toNat ++
        m.frame.front) (c := beBytes 2 m.frame.keyDataLength.toNat ++ body) ?_ ?_ rfl
      · unfold eapol_write_pdu_frame KeyFrame.write
        rw [hmic, m.noData]
        simp [List.append_assoc]
      · simp [KeyFrame.front]
    rw [slice, if_pos (by rw [List.length_append, hlen]; omega)] at hslice
    exact Option.some.inj hslice
  have hwhole := write_micField
    (eapol_write_pdu_frame (95 + m.frame.keyDataLength) m.frame ++ body)
    (by rw [List.length_append, hlen]; omega)
  rw [hfield] at hwhole
  have hagain := zeroed_write_mic
    (eapol_write_pdu_frame (95 + m.frame.keyDataLength) m.frame ++ body) (List.replicate 16 0)
    (by rw [List.length_append, hlen]; omega) rfl
  exact hagain.symm.trans hwhole

theorem built_eq {hmac : Hmac} {wrap : Wrap} {ptk : Vector UInt8 48} {m : Message}
    {body : List UInt8} (hbody : m.keyData wrap ptk = some body)
    (hflag : m.frame.keyInformation.keyMic = true) :
    sec_prot_lib_message_build hmac wrap ptk m = some (eapol_write_key_packet_mic
      (eapol_write_pdu_frame (95 + m.frame.keyDataLength) m.frame ++ body)
      (hmac (kck ptk)
        (eapol_write_pdu_frame (95 + m.frame.keyDataLength) m.frame ++ body)).toList) := by
  unfold sec_prot_lib_message_build
  rw [hbody]
  simp only [Option.bind_eq_bind, Option.bind_some]
  rw [if_pos hflag]
  rfl

theorem length_keyData {wrap : Wrap} {ptk : Vector UInt8 48} {m : Message} {body : List UInt8}
    (hbody : m.keyData wrap ptk = some body) : body.length = m.kde.length := by
  unfold Message.keyData at hbody
  split at hbody
  · have hfilter := Option.filter_eq_some_iff.mp hbody
    exact of_decide_eq_true hfilter.2
  · cases hbody
    rfl

/-- **A built PDU** validates with the same PTK, whatever the HMAC is, up to 255 bytes. -/
theorem built_validates_iff {wrap : Wrap} {ptk : Vector UInt8 48} {m : Message}
    (hsent : (m.keyData wrap ptk).isSome) (hflag : m.frame.keyInformation.keyMic = true) :
    (∀ (hmac : Hmac) (pdu : List UInt8),
      sec_prot_lib_message_build hmac wrap ptk m = some pdu → Validates hmac ptk pdu) ↔
      99 + m.kde.length < 256 := by
  obtain ⟨body, hbody⟩ := Option.isSome_iff_exists.mp hsent
  have hzeroed := zeroed_pdu m body
  have hlen : (eapol_write_pdu_frame (95 + m.frame.keyDataLength) m.frame ++ body).length
      = 99 + m.kde.length := by
    rw [List.length_append, length_pdu, length_keyData hbody]
  generalize hpdu : eapol_write_pdu_frame (95 + m.frame.keyDataLength) m.frame ++ body = pdu
    at hzeroed hlen
  have hbuilt : ∀ hmac : Hmac, sec_prot_lib_message_build hmac wrap ptk m
      = some (eapol_write_key_packet_mic pdu (hmac (kck ptk) pdu).toList) := by
    intro hmac
    rw [built_eq hbody hflag, hpdu]
  have hmic : ∀ hmac : Hmac, (hmac (kck ptk) pdu).toList.length = 16 := fun hmac => by simp
  constructor
  · intro hall
    refine Nat.lt_of_not_le fun hlong => ?_
    obtain ⟨other, hother⟩ := exists_other_mic (Vector.replicate 16 (0 : UInt8)).toList
    have hvalid := hall (hmacOf pdu.length (Vector.replicate 16 0) other) _ (hbuilt _)
    have hcovered : hmacOf pdu.length (Vector.replicate 16 0) other (kck ptk) pdu
        = Vector.replicate 16 0 := if_pos rfl
    rw [hcovered] at hvalid
    have hsame := length_write_mic pdu (Vector.replicate 16 (0 : UInt8)).toList
      (by omega) (by simp)
    refine not_validates
      (eapol_write_key_packet_mic pdu (Vector.replicate 16 (0 : UInt8)).toList)
      (by omega) (by omega)
      (Vector.replicate 16 0) other ?_ ptk (by rwa [hsame])
    rw [micField_write_mic pdu _ (by omega) (by simp)]
    exact hother
  · intro hshort hmac built heq
    rw [hbuilt hmac] at heq
    cases heq
    have hsame := length_write_mic pdu _ (by omega) (hmic hmac)
    rw [validates_iff (by omega) (by omega), micField_write_mic pdu _ (by omega) (hmic hmac),
      zeroed_write_mic pdu _ (by omega) (hmic hmac), hzeroed]

/-! ## Altered PDUs -/

/-- One byte changed, or bytes appended. -/
def Altered (p p' : List UInt8) : Prop :=
  (∃ i b, p' = p.set i b ∧ p' ≠ p) ∨ ∃ extra, extra ≠ [] ∧ p' = p ++ extra

/-- Either the MIC field is another one, or the rest is. -/
theorem Altered.field_or_rest {p p' : List UInt8} (h : Altered p p') (hlen : 97 ≤ p.length) :
    97 ≤ p'.length ∧ (micField p' ≠ micField p ∧ zeroed p' = zeroed p ∨
      micField p' = micField p ∧ zeroed p' ≠ zeroed p) := by
  have hwhole : ∀ q : List UInt8, 97 ≤ q.length → q ≠ p → micField q = micField p →
      zeroed q ≠ zeroed p := by
    intro q hq hne hfield hrest
    apply hne
    rw [← write_micField q hq, ← write_micField p hlen, hfield, hrest]
  have hne : p' ≠ p := by
    rcases h with ⟨i, b, -, hne⟩ | ⟨extra, hextra, rfl⟩
    · exact hne
    · intro heq
      have hlength := congrArg List.length heq
      rw [List.length_append] at hlength
      exact hextra (List.length_eq_zero_iff.mp (by omega))
  have hlen' : 97 ≤ p'.length := by
    rcases h with ⟨i, b, rfl, -⟩ | ⟨extra, -, rfl⟩
    · rwa [List.length_set]
    · rw [List.length_append]
      omega
  refine ⟨hlen', ?_⟩
  by_cases hfield : micField p' = micField p
  · exact .inr ⟨hfield, hwhole p' hlen' hne hfield⟩
  · left
    refine ⟨hfield, ?_⟩
    rcases h with ⟨i, b, rfl, -⟩ | ⟨extra, -, rfl⟩
    · -- the byte is one of the field
      have hin : 81 ≤ i ∧ i < 97 := by
        refine Decidable.byContradiction fun hout => hfield ?_
        unfold micField
        by_cases hi : i < 81
        · rw [List.drop_set_of_lt hi]
        · rw [List.drop_set, if_neg (by omega), List.take_set_of_le (by omega)]
      unfold zeroed eapol_write_key_packet_mic
      rw [List.take_set_of_le hin.1, List.drop_set_of_lt hin.2]
    · refine absurd ?_ hfield
      unfold micField
      rw [List.drop_append_of_le_length (by omega), List.take_append_of_le_length]
      rw [List.length_drop]
      omega

/-- An altered PDU validates only where HMACs collide. -/
theorem Altered.collide {p p' : List UInt8} {hmac : Hmac} {ptk : Vector UInt8 48}
    (h : Altered p p') (hlen : 97 ≤ p.length) (hsize : p.length < 256) (hsize' : p'.length < 256)
    (hvalid : Validates hmac ptk p) (hvalid' : Validates hmac ptk p') :
    zeroed p' ≠ zeroed p ∧ hmac (kck ptk) (zeroed p') = hmac (kck ptk) (zeroed p) := by
  obtain ⟨hlen', hparts⟩ := h.field_or_rest hlen
  rw [validates_iff hlen hsize] at hvalid
  rw [validates_iff hlen' hsize'] at hvalid'
  rcases hparts with ⟨hfield, hrest⟩ | ⟨hfield, hrest⟩
  · rw [hrest, ← hvalid] at hvalid'
    exact absurd hvalid' hfield
  · refine ⟨hrest, Vector.toList_inj.mp ?_⟩
    rw [← hvalid, ← hvalid', hfield]

end

/-! ## What the MIC covers -/

/-- **The MIC check covers the whole PDU** exactly for PDUs of at most 255 bytes. -/
theorem mic_covers_iff (pdu pdu' : List UInt8) (f : KeyFrame) (wrap : Wrap)
    (ptk : Vector UInt8 48) (m : Message) :
    (eapol_parse_pdu_header pdu = some (some (.key f)) →
      ((∀ (hmac : Hmac) (ptk : Vector UInt8 48), Validates hmac ptk pdu ↔
        f.keyMic = some (hmac (kck ptk) (zeroed pdu))) ↔ pdu.length < 256)) ∧
    ((m.keyData wrap ptk).isSome → m.frame.keyInformation.keyMic = true →
      ((∀ (hmac : Hmac) (pdu : List UInt8),
        sec_prot_lib_message_build hmac wrap ptk m = some pdu → Validates hmac ptk pdu) ↔
        99 + m.kde.length < 256)) ∧
    (eapol_parse_pdu_header pdu = some (some (.key f)) → Altered pdu pdu' →
      pdu.length < 256 → pdu'.length < 256 →
      ∀ (hmac : Hmac), Validates hmac ptk pdu → Validates hmac ptk pdu' →
        zeroed pdu' ≠ zeroed pdu ∧ hmac (kck ptk) (zeroed pdu') = hmac (kck ptk) (zeroed pdu)) := by
  refine ⟨fun hf => ?_, built_validates_iff, fun hf haltered hsize hsize' hmac => ?_⟩
  · obtain ⟨hlen, hfield⟩ := accepted hf
    have hmic : ∀ mic : Vector UInt8 16, f.keyMic = some mic ↔ micField pdu = mic.toList := by
      intro mic
      obtain ⟨mic', hmic', htoList⟩ := Option.map_eq_some_iff.mp hfield
      rw [hmic', ← htoList, Option.some.injEq, Vector.toList_inj]
    constructor
    · intro hall
      refine Nat.lt_of_not_le fun hlong => ?_
      obtain ⟨mic, hmic', -⟩ := Option.map_eq_some_iff.mp hfield
      obtain ⟨other, hother⟩ := exists_other_mic (micField pdu)
      have hcovered : hmacOf pdu.length mic other (kck (Vector.replicate 48 0)) (zeroed pdu)
          = mic := if_pos (length_zeroed (by omega))
      refine not_validates pdu (by omega) hlong mic other hother (Vector.replicate 48 0)
        ((hall _ _).mpr ?_)
      rw [hcovered]
      exact hmic'
    · intro hshort hmac ptk
      rw [validates_iff (by omega) hshort, hmic]
  · obtain ⟨hlen, -⟩ := accepted hf
    exact haltered.collide (by omega) hsize hsize'

local instance zeroVersions : NeZero 8 := ⟨by decide⟩

/-- A key frame with `n` bytes of key data, all zero. -/
def zeroFrame (n : Nat) : KeyFrame where
  keyDescription := 2
  keyInformation := ⟨2, true, false, false, true, false, false, false, false, false⟩
  keyLength := 0
  replayCounter := 1
  keyNonce := none
  keyIv := none
  keyRsc := none
  keyMic := none
  keyDataLength := .ofNat n
  keyData := some (List.replicate n 0)

theorem zeroFrame_whole {n : Nat} (h : 99 + n < 2 ^ 16) : (zeroFrame n).Whole := by
  have hlength : (UInt16.ofNat n).toNat = n := by
    rw [UInt16.toNat_ofNat']
    omega
  refine ⟨rfl, rfl, ?_, ?_⟩
  · change (List.replicate n (0 : UInt8)).length = (UInt16.ofNat n).toNat
    rw [hlength, List.length_replicate]
  · change 99 + (UInt16.ofNat n).toNat < 2 ^ 16
    rwa [hlength]

theorem length_write {f : KeyFrame} (h : f.Whole) (packetLength : UInt16) :
    (eapol_write_pdu_frame packetLength f).length = 99 + f.keyDataLength.toNat := by
  unfold eapol_write_pdu_frame KeyFrame.write KeyFrame.front
  rw [h.write_data]
  simp only [List.length_append, List.length_cons, List.length_nil, length_beBytes,
    List.length_replicate, length_orZero, h.data]
  omega

/-- A PDU of 256 bytes whose MIC is the HMAC of the whole PDU fails the check. -/
theorem long_pdu_fails :
    ∃ (pdu : List UInt8) (f : KeyFrame) (hmac : Hmac) (ptk : Vector UInt8 48),
      eapol_parse_pdu_header pdu = some (some (.key f)) ∧ pdu.length = 256 ∧
      f.keyMic = some (hmac (kck ptk) (zeroed pdu)) ∧ ¬ Validates hmac ptk pdu := by
  have hwhole : (zeroFrame 157).Whole := zeroFrame_whole (by decide)
  have hparse := parse_write hwhole
  have hlen := length_write hwhole (95 + (zeroFrame 157).keyDataLength)
  generalize eapol_write_pdu_frame (95 + (zeroFrame 157).keyDataLength) (zeroFrame 157) = pdu
    at hparse hlen
  replace hlen : pdu.length = 256 := hlen
  obtain ⟨-, hfield⟩ := accepted hparse
  have hmic : (zeroFrame 157).read.keyMic = some (Vector.replicate 16 0) := rfl
  rw [hmic] at hfield
  have hother : micField pdu ≠ (Vector.replicate 16 (1 : UInt8)).toList := by
    rw [← Option.some.inj hfield]
    decide
  have hcovered : hmacOf pdu.length (Vector.replicate 16 0) (Vector.replicate 16 1)
      (kck (Vector.replicate 48 0)) (zeroed pdu) = Vector.replicate 16 0 :=
    if_pos (length_zeroed (by omega))
  refine ⟨pdu, (zeroFrame 157).read, hmacOf pdu.length (Vector.replicate 16 0)
    (Vector.replicate 16 1), Vector.replicate 48 0, hparse, hlen, ?_,
    not_validates pdu (by omega) (by omega) _ _ hother _⟩
  rw [hcovered]
  exact hmic

/-- A short key frame, and one built without key data and with one byte of its MIC changed. -/
theorem short_pdu_covered :
    (∀ (hmac : Hmac) (ptk : Vector UInt8 48),
      Validates hmac ptk (eapol_write_pdu_frame (95 + (zeroFrame 0).keyDataLength) (zeroFrame 0)) ↔
        (zeroFrame 0).read.keyMic = some (hmac (kck ptk)
          (zeroed (eapol_write_pdu_frame (95 + (zeroFrame 0).keyDataLength) (zeroFrame 0))))) ∧
    (∀ (hmac : Hmac) (pdu : List UInt8),
      sec_prot_lib_message_build hmac (fun _ _ => none) (Vector.replicate 48 0)
        ⟨{ zeroFrame 0 with keyData := none }, [], rfl, rfl, rfl⟩ = some pdu →
      Validates hmac (Vector.replicate 48 0) pdu) ∧
    ∀ hmac : Hmac,
      Validates hmac (Vector.replicate 48 0)
        (eapol_write_pdu_frame (95 + (zeroFrame 0).keyDataLength) (zeroFrame 0)) →
      Validates hmac (Vector.replicate 48 0)
        (eapol_write_pdu_frame (95 + (zeroFrame 0).keyDataLength) (zeroFrame 0) ++ [7]) →
      hmac (kck (Vector.replicate 48 0))
          (zeroed (eapol_write_pdu_frame (95 + (zeroFrame 0).keyDataLength) (zeroFrame 0) ++ [7]))
        = hmac (kck (Vector.replicate 48 0))
          (zeroed (eapol_write_pdu_frame (95 + (zeroFrame 0).keyDataLength) (zeroFrame 0))) := by
  have hwhole : (zeroFrame 0).Whole := zeroFrame_whole (by decide)
  have hparse := parse_write hwhole
  have hlen := length_write hwhole (95 + (zeroFrame 0).keyDataLength)
  generalize eapol_write_pdu_frame (95 + (zeroFrame 0).keyDataLength) (zeroFrame 0) = pdu
    at hparse hlen
  replace hlen : pdu.length = 99 := hlen
  have hlen' : (pdu ++ [7]).length = 100 := by rw [List.length_append, hlen]; rfl
  have hcovers := mic_covers_iff pdu (pdu ++ [7]) (zeroFrame 0).read (fun _ _ => none)
    (Vector.replicate 48 0) ⟨{ zeroFrame 0 with keyData := none }, [], rfl, rfl, rfl⟩
  refine ⟨(hcovers.1 hparse).mpr (by omega), (hcovers.2.1 rfl rfl).mpr (by decide),
    fun hmac hvalid hvalid' => ?_⟩
  exact (hcovers.2.2 hparse (.inr ⟨[7], by decide, rfl⟩) (by omega) (by omega) hmac hvalid
    hvalid').2

end EapolCodec
