import WisunModem.ByteStore
import Mathlib.Data.UInt

/-!
# EAPOL PDUs byte by byte

`eapol_write_pdu_frame` for key frames and `eapol_parse_pdu_header` (`eapol_helper.c`) with
`eap_header_parse`.  A read answers only inside the PDU.  A pointer of a frame is an option: a
field that is NULL is written as zeros.
-/

namespace EapolCodec

open ByteStore (be beBytes length_beBytes be_beBytes)

structure KeyInformation where
  descriptionVersion : Fin 8
  pairwiseKey : Bool
  install : Bool
  keyAck : Bool
  keyMic : Bool
  securedKeyFrame : Bool
  error : Bool
  request : Bool
  encryptedKeyData : Bool
  smkHandshake : Bool
deriving DecidableEq

/-- `eapol_key_frame_t` -/
structure KeyFrame where
  keyDescription : UInt8
  keyInformation : KeyInformation
  keyLength : UInt16
  replayCounter : UInt64
  keyNonce : Option (Vector UInt8 32)
  keyIv : Option (Vector UInt8 16)
  keyRsc : Option (Vector UInt8 8)
  keyMic : Option (Vector UInt8 16)
  keyDataLength : UInt16
  keyData : Option (List UInt8)

/-- `eap_header_t` -/
structure EapHeader where
  eapCode : UInt8
  idSeq : UInt8
  length : Nat
  type : UInt8
  data : List UInt8

/-- What a PDU is parsed to. -/
inductive Body
  | eap (header : EapHeader)
  | key (frame : KeyFrame)

/-! ## Writing -/

/-- `eapol_key_information_write` -/
def KeyInformation.word (k : KeyInformation) : Nat :=
  k.descriptionVersion.val ||| k.pairwiseKey.toNat <<< 3 ||| k.install.toNat <<< 6 |||
    k.keyAck.toNat <<< 7 ||| k.keyMic.toNat <<< 8 ||| k.securedKeyFrame.toNat <<< 9 |||
    k.error.toNat <<< 10 ||| k.request.toNat <<< 11 ||| k.encryptedKeyData.toNat <<< 12 |||
    k.smkHandshake.toNat <<< 13

/-- `memcpy` from a pointer, `memset` to 0 without one. -/
def orZero {n : Nat} (pointer : Option (Vector UInt8 n)) : List UInt8 :=
  (pointer.getD (Vector.replicate n 0)).toList

/-- The part of a key frame in front of its MIC. -/
def KeyFrame.front (f : KeyFrame) : List UInt8 :=
  [f.keyDescription] ++ beBytes 2 f.keyInformation.word ++ beBytes 2 f.keyLength.toNat ++
    beBytes 8 f.replayCounter.toNat ++ orZero f.keyNonce ++ orZero f.keyIv ++ orZero f.keyRsc ++
    List.replicate 8 0

/-- A key frame as it is written. -/
def KeyFrame.write (f : KeyFrame) : List UInt8 :=
  f.front ++ orZero (if f.keyInformation.keyMic then f.keyMic else none) ++
    beBytes 2 f.keyDataLength.toNat ++
    if f.keyDataLength ≠ 0 then (f.keyData.map (·.take f.keyDataLength.toNat)).getD [] else []

/-- `eapol_write_pdu_frame` of a key frame. -/
def eapol_write_pdu_frame (packetLength : UInt16) (f : KeyFrame) : List UInt8 :=
  [3, 3] ++ beBytes 2 packetLength.toNat ++ f.write

/-- `eapol_write_key_packet_mic` -/
def eapol_write_key_packet_mic (pdu mic : List UInt8) : List UInt8 :=
  pdu.take 81 ++ mic ++ pdu.drop 97

/-! ## Parsing -/

/-- `n` bytes from `i` on, read one by one. -/
def slice (p : List UInt8) (i n : Nat) : Option (List UInt8) :=
  if i + n ≤ p.length then some ((p.drop i).take n) else none

/-- A field of `n` bytes, big end first. -/
def readBe (p : List UInt8) (i n : Nat) : Option Nat := (slice p i n).map be

def readByte (p : List UInt8) (i : Nat) : Option UInt8 := p[i]?

/-- `n` bytes that a pointer of the frame stands for. -/
def pointer (n : Nat) (bytes : List UInt8) : Option (Vector UInt8 n) :=
  if h : bytes.length = n then some ⟨bytes.toArray, by simpa using h⟩ else none

/-- `eapol_key_information_read` -/
def keyInformation (word : Nat) : KeyInformation where
  descriptionVersion := ⟨word % 8, Nat.mod_lt _ (by decide)⟩
  pairwiseKey := word.testBit 3
  install := word.testBit 6
  keyAck := word.testBit 7
  keyMic := word.testBit 8
  securedKeyFrame := word.testBit 9
  error := word.testBit 10
  request := word.testBit 11
  encryptedKeyData := word.testBit 12
  smkHandshake := word.testBit 13

/-- `eap_header_parse` of `length` bytes from `i` on; the inner option is what it returns. -/
def eap_header_parse (p : List UInt8) (i length : Nat) : Option (Option EapHeader) :=
  if length < 4 then some none
  else do
    let eapCode ← readByte p i
    let idSeq ← readByte p (i + 1)
    let headerLength ← readBe p (i + 2) 2
    if headerLength ≠ length then pure none
    else if eapCode = 1 ∨ eapCode = 2 then
      if headerLength < 5 then pure none
      else do
        let type ← readByte p (i + 4)
        let data ← slice p (i + 5) (length - 5)
        pure (some ⟨eapCode, idSeq, headerLength, type, data⟩)
    else if eapCode = 3 ∨ eapCode = 4 then
      if headerLength ≠ 4 then pure none
      else do
        let data ← slice p (i + 4) (length - 4)
        pure (some ⟨eapCode, idSeq, headerLength, 0, data⟩)
    else pure none

/-- `eapol_parse_key_packet`; what the pointers point to is read as well. -/
def eapol_parse_key_packet (p : List UInt8) (i packetLength : Nat) : Option (Option KeyFrame) :=
  if packetLength < 95 then some none
  else do
    let keyDescription ← readByte p i
    if keyDescription ≠ 2 then pure none
    else do
      let word ← readBe p (i + 1) 2
      if (keyInformation word).descriptionVersion ≠ 2 then pure none
      else do
        let keyLength ← readBe p (i + 3) 2
        let replayCounter ← readBe p (i + 5) 8
        let nonce ← slice p (i + 13) 32
        let iv ← slice p (i + 45) 16
        let rsc ← slice p (i + 61) 8
        let mic ← slice p (i + 77) 16
        let keyDataLength ← readBe p (i + 93) 2
        if keyDataLength > packetLength - 95 then pure none
        else do
          let keyData ← slice p (i + 95) keyDataLength
          pure (some
            { keyDescription
              keyInformation := keyInformation word
              keyLength := .ofNat keyLength
              replayCounter := .ofNat replayCounter
              keyNonce := pointer 32 nonce
              keyIv := pointer 16 iv
              keyRsc := pointer 8 rsc
              keyMic := pointer 16 mic
              keyDataLength := .ofNat keyDataLength
              keyData := some keyData })

/-- `eapol_parse_pdu_header` of all bytes of `p`. -/
def eapol_parse_pdu_header (p : List UInt8) : Option (Option Body) :=
  if p.length < 4 then some none
  else do
    let protocol ← readByte p 0
    if protocol ≠ 3 then pure none
    else do
      let packetType ← readByte p 1
      let packetLength ← readBe p 2 2
      if packetLength > p.length - 4 then pure none
      else if packetType = 0 then
        (eap_header_parse p 4 packetLength).map fun header => header.map .eap
      else if packetType = 3 then
        (eapol_parse_key_packet p 4 packetLength).map fun frame => frame.map .key
      else pure none

/-! ## The parser stays inside -/

theorem slice_isSome {p : List UInt8} {i n : Nat} (h : i + n ≤ p.length) :
    ∃ bytes, slice p i n = some bytes := ⟨_, if_pos h⟩

theorem readBe_isSome {p : List UInt8} {i n : Nat} (h : i + n ≤ p.length) :
    ∃ value, readBe p i n = some value := by
  obtain ⟨bytes, hbytes⟩ := slice_isSome h
  exact ⟨be bytes, by rw [readBe, hbytes]; rfl⟩

theorem readByte_isSome {p : List UInt8} {i : Nat} (h : i < p.length) :
    ∃ byte, readByte p i = some byte := ⟨_, List.getElem?_eq_getElem h⟩

theorem eap_header_parse_inside {p : List UInt8} {i length : Nat} (h : i + length ≤ p.length) :
    (eap_header_parse p i length).isSome := by
  unfold eap_header_parse
  by_cases hshort : length < 4
  · rw [if_pos hshort]
    rfl
  rw [if_neg hshort]
  obtain ⟨eapCode, hcode⟩ := readByte_isSome (p := p) (i := i) (by omega)
  obtain ⟨idSeq, hid⟩ := readByte_isSome (p := p) (i := i + 1) (by omega)
  obtain ⟨headerLength, hlength⟩ := readBe_isSome (p := p) (i := i + 2) (n := 2) (by omega)
  rw [hcode, hid, hlength]
  simp only [Option.bind_eq_bind, Option.bind_some]
  split
  · rfl
  · next heq =>
    split
    · split
      · rfl
      · obtain ⟨type, htype⟩ := readByte_isSome (p := p) (i := i + 4) (by omega)
        obtain ⟨data, hdata⟩ := slice_isSome (p := p) (i := i + 5) (n := length - 5) (by omega)
        rw [htype, hdata]
        rfl
    · split
      · split
        · rfl
        · obtain ⟨data, hdata⟩ := slice_isSome (p := p) (i := i + 4) (n := length - 4) (by omega)
          rw [hdata]
          rfl
      · rfl

theorem eapol_parse_key_packet_inside {p : List UInt8} {i packetLength : Nat}
    (h : i + packetLength ≤ p.length) : (eapol_parse_key_packet p i packetLength).isSome := by
  unfold eapol_parse_key_packet
  by_cases hshort : packetLength < 95
  · rw [if_pos hshort]
    rfl
  rw [if_neg hshort]
  obtain ⟨keyDescription, hdescription⟩ := readByte_isSome (p := p) (i := i) (by omega)
  obtain ⟨word, hword⟩ := readBe_isSome (p := p) (i := i + 1) (n := 2) (by omega)
  obtain ⟨keyLength, hlength⟩ := readBe_isSome (p := p) (i := i + 3) (n := 2) (by omega)
  obtain ⟨counter, hcounter⟩ := readBe_isSome (p := p) (i := i + 5) (n := 8) (by omega)
  obtain ⟨nonce, hnonce⟩ := slice_isSome (p := p) (i := i + 13) (n := 32) (by omega)
  obtain ⟨iv, hiv⟩ := slice_isSome (p := p) (i := i + 45) (n := 16) (by omega)
  obtain ⟨rsc, hrsc⟩ := slice_isSome (p := p) (i := i + 61) (n := 8) (by omega)
  obtain ⟨mic, hmic⟩ := slice_isSome (p := p) (i := i + 77) (n := 16) (by omega)
  obtain ⟨dataLength, hdataLength⟩ := readBe_isSome (p := p) (i := i + 93) (n := 2) (by omega)
  rw [hdescription, hword, hlength, hcounter, hnonce, hiv, hrsc, hmic, hdataLength]
  simp only [Option.bind_eq_bind, Option.bind_some]
  split
  · rfl
  · split
    · rfl
    · split
      · rfl
      · obtain ⟨data, hdata⟩ := slice_isSome (p := p) (i := i + 95) (n := dataLength) (by omega)
        rw [hdata]
        rfl

/-- **The parser** reads only inside the PDU. -/
theorem eapol_parse_pdu_header_inside (p : List UInt8) : (eapol_parse_pdu_header p).isSome := by
  unfold eapol_parse_pdu_header
  by_cases hshort : p.length < 4
  · rw [if_pos hshort]
    rfl
  rw [if_neg hshort]
  obtain ⟨protocol, hprotocol⟩ := readByte_isSome (p := p) (i := 0) (by omega)
  obtain ⟨packetType, htype⟩ := readByte_isSome (p := p) (i := 1) (by omega)
  obtain ⟨packetLength, hlength⟩ := readBe_isSome (p := p) (i := 2) (n := 2) (by omega)
  rw [hprotocol, htype, hlength]
  simp only [Option.bind_eq_bind, Option.bind_some]
  split
  · rfl
  · split
    · rfl
    · split
      · rw [Option.isSome_map]
        exact eap_header_parse_inside (by omega)
      · split
        · rw [Option.isSome_map]
          exact eapol_parse_key_packet_inside (by omega)
        · rfl

/-! ## What is written is read back -/

/-- A key frame with its key data, as `eapol_pdu_key_frame_init` begins it. -/
structure KeyFrame.Whole (f : KeyFrame) : Prop where
  description : f.keyDescription = 2
  version : f.keyInformation.descriptionVersion = 2
  data : (f.keyData.getD []).length = f.keyDataLength.toNat
  size : 99 + f.keyDataLength.toNat < 2 ^ 16

/-- The frame with NULL pointers replaced by zeros; without its flag the MIC is one of them. -/
def KeyFrame.read (f : KeyFrame) : KeyFrame :=
  { f with
    keyNonce := some (f.keyNonce.getD (Vector.replicate 32 0))
    keyIv := some (f.keyIv.getD (Vector.replicate 16 0))
    keyRsc := some (f.keyRsc.getD (Vector.replicate 8 0))
    keyMic := some ((if f.keyInformation.keyMic then f.keyMic else none).getD
      (Vector.replicate 16 0))
    keyData := some (f.keyData.getD []) }

theorem slice_of_append {p a b c : List UInt8} {i n : Nat} (hp : p = a ++ (b ++ c))
    (ha : a.length = i) (hb : b.length = n) : slice p i n = some b := by
  subst hp ha hb
  unfold slice
  rw [if_pos (by simp), List.drop_left, List.take_left]

theorem readBe_of_append {p a c : List UInt8} {i n value : Nat} (hvalue : value < 2 ^ (8 * n))
    (hp : p = a ++ (beBytes n value ++ c)) (ha : a.length = i) : readBe p i n = some value := by
  rw [readBe, slice_of_append hp ha (length_beBytes n value), Option.map_some, be_beBytes hvalue]

@[simp] theorem length_orZero {n : Nat} (x : Option (Vector UInt8 n)) : (orZero x).length = n := by
  simp [orZero]

theorem pointer_orZero {n : Nat} (x : Option (Vector UInt8 n)) :
    pointer n (orZero x) = some (x.getD (Vector.replicate n 0)) := by
  unfold pointer
  rw [dif_pos (length_orZero x)]
  refine congrArg some (Vector.toArray_inj.mp ?_)
  exact Array.toArray_toList

/-- Bit `i` of the word is the flag that was moved there. -/
theorem word_testBit (k : KeyInformation) (i : Nat) :
    k.word.testBit i = (k.descriptionVersion.val.testBit i || decide (i = 3) && k.pairwiseKey ||
      decide (i = 6) && k.install || decide (i = 7) && k.keyAck || decide (i = 8) && k.keyMic ||
      decide (i = 9) && k.securedKeyFrame || decide (i = 10) && k.error ||
      decide (i = 11) && k.request || decide (i = 12) && k.encryptedKeyData ||
      decide (i = 13) && k.smkHandshake) := by
  have hflag : ∀ (b : Bool) (n : Nat), (b.toNat <<< n).testBit i = (decide (i = n) && b) := by
    intro b n
    rw [Nat.testBit_shiftLeft, Nat.testBit_bool_toNat]
    by_cases hn : i = n
    · simp [hn]
    · by_cases hge : n ≤ i
      · have hne : ¬ i - n = 0 := by omega
        simp [hn, hne]
      · simp [hn, hge]
  unfold KeyInformation.word
  simp only [Nat.testBit_or, hflag]

theorem version_testBit (k : KeyInformation) {i : Nat} (h : 3 ≤ i) :
    k.descriptionVersion.val.testBit i = false :=
  Nat.testBit_lt_two_pow
    (k.descriptionVersion.isLt.trans_le (Nat.pow_le_pow_right (n := 2) (by decide) h))

theorem word_lt (k : KeyInformation) : k.word < 2 ^ 16 := by
  refine Nat.lt_pow_two_of_testBit _ fun i hi => ?_
  rw [word_testBit, version_testBit k (by omega)]
  have hne : ∀ n < 14, decide (i = n) = false := fun n hn => decide_eq_false (by omega)
  simp [hne]

/-- All flag combinations. -/
theorem keyInformation_word (k : KeyInformation) : keyInformation k.word = k := by
  have hversion : k.word % 8 = k.descriptionVersion.val := by
    refine Nat.eq_of_testBit_eq fun i => ?_
    change (k.word % 2 ^ 3).testBit i = _
    rw [Nat.testBit_mod_two_pow, word_testBit]
    by_cases hi : i < 3
    · have hne : ∀ n, 3 ≤ n → decide (i = n) = false := fun n hn => decide_eq_false (by omega)
      simp [hi, hne]
    · rw [version_testBit k (by omega), decide_eq_false hi, Bool.false_and]
  have hbit : ∀ i, 3 ≤ i → k.descriptionVersion.val.testBit i = false := fun i hi =>
    version_testBit k hi
  unfold keyInformation
  simp [hversion, word_testBit, hbit]

theorem KeyFrame.Whole.write_data {f : KeyFrame} (h : f.Whole) :
    (if f.keyDataLength ≠ 0 then (f.keyData.map (·.take f.keyDataLength.toNat)).getD [] else [])
      = f.keyData.getD [] := by
  have hdata := h.data
  cases hd : f.keyData with
  | none =>
    rw [hd] at hdata
    split <;> rfl
  | some d =>
    rw [hd] at hdata
    change d.length = f.keyDataLength.toNat at hdata
    split
    · exact List.take_of_length_le (Nat.le_of_eq hdata)
    · next hzero =>
      have hlen : f.keyDataLength.toNat = 0 := by
        rw [Decidable.not_not.mp hzero]
        rfl
      exact (List.length_eq_zero_iff.mp (hdata.trans hlen)).symm

/-- **Parsing a written key frame** returns its fields. -/
theorem parse_write {f : KeyFrame} (h : f.Whole) :
    eapol_parse_pdu_header (eapol_write_pdu_frame (95 + f.keyDataLength) f)
      = some (some (.key f.read)) := by
  have hsize := h.size
  have hlength : (95 + f.keyDataLength : UInt16).toNat = 95 + f.keyDataLength.toNat := by
    rw [UInt16.toNat_add]
    exact Nat.mod_eq_of_lt (by
      have hconst : (95 : UInt16).toNat = 95 := rfl
      omega)
  have hword := word_lt f.keyInformation
  generalize hp : eapol_write_pdu_frame (95 + f.keyDataLength) f = p
  unfold eapol_write_pdu_frame KeyFrame.write KeyFrame.front at hp
  rw [h.write_data, hlength] at hp
  -- the fields one after the other
  generalize hnonce : orZero f.keyNonce = nonce at hp
  generalize hiv : orZero f.keyIv = iv at hp
  generalize hrsc : orZero f.keyRsc = rsc at hp
  generalize hmic : orZero (if f.keyInformation.keyMic then f.keyMic else none) = mic at hp
  generalize hdata : f.keyData.getD [] = data at hp
  have hnonceLen : nonce.length = 32 := by rw [← hnonce, length_orZero]
  have hivLen : iv.length = 16 := by rw [← hiv, length_orZero]
  have hrscLen : rsc.length = 8 := by rw [← hrsc, length_orZero]
  have hmicLen : mic.length = 16 := by rw [← hmic, length_orZero]
  have hdataLen : data.length = f.keyDataLength.toNat := by rw [← hdata, h.data]
  have hplen : p.length = 99 + f.keyDataLength.toNat := by
    rw [← hp]
    simp only [List.length_append, List.length_cons, List.length_nil, length_beBytes,
      List.length_replicate, hnonceLen, hivLen, hrscLen, hmicLen, hdataLen]
    omega
  have r0 : readByte p 0 = some 3 := by rw [← hp]; rfl
  have r1 : readByte p 1 = some 3 := by rw [← hp]; rfl
  have r2 : readBe p 2 2 = some (95 + f.keyDataLength.toNat) :=
    readBe_of_append (by omega) (by rw [← hp]; simp only [List.append_assoc]; rfl) rfl
  have r4 : readByte p 4 = some 2 := by
    rw [← hp, h.description]
    rfl
  have r5 : readBe p 5 2 = some f.keyInformation.word := by
    refine readBe_of_append (a := [3, 3] ++ beBytes 2 (95 + f.keyDataLength.toNat) ++
      [f.keyDescription]) hword (by rw [← hp]; simp only [List.append_assoc]; rfl) rfl
  have r7 : readBe p 7 2 = some f.keyLength.toNat := by
    refine readBe_of_append (a := [3, 3] ++ beBytes 2 (95 + f.keyDataLength.toNat) ++
      [f.keyDescription] ++ beBytes 2 f.keyInformation.word) f.keyLength.toNat_lt
      (by rw [← hp]; simp only [List.append_assoc]; rfl) rfl
  have r9 : readBe p 9 8 = some f.replayCounter.toNat := by
    refine readBe_of_append (a := [3, 3] ++ beBytes 2 (95 + f.keyDataLength.toNat) ++
      [f.keyDescription] ++ beBytes 2 f.keyInformation.word ++ beBytes 2 f.keyLength.toNat)
      f.replayCounter.toNat_lt (by rw [← hp]; simp only [List.append_assoc]; rfl) rfl
  have r17 : slice p 17 32 = some nonce := by
    refine slice_of_append (a := [3, 3] ++ beBytes 2 (95 + f.keyDataLength.toNat) ++
      [f.keyDescription] ++ beBytes 2 f.keyInformation.word ++ beBytes 2 f.keyLength.toNat ++
      beBytes 8 f.replayCounter.toNat) (by rw [← hp]; simp only [List.append_assoc]; rfl) rfl hnonceLen
  have r49 : slice p 49 16 = some iv := by
    refine slice_of_append (a := [3, 3] ++ beBytes 2 (95 + f.keyDataLength.toNat) ++
      [f.keyDescription] ++ beBytes 2 f.keyInformation.word ++ beBytes 2 f.keyLength.toNat ++
      beBytes 8 f.replayCounter.toNat ++ nonce) (by rw [← hp]; simp only [List.append_assoc]; rfl)
      ?_ hivLen
    simp [hnonceLen]
  have r65 : slice p 65 8 = some rsc := by
    refine slice_of_append (a := [3, 3] ++ beBytes 2 (95 + f.keyDataLength.toNat) ++
      [f.keyDescription] ++ beBytes 2 f.keyInformation.word ++ beBytes 2 f.keyLength.toNat ++
      beBytes 8 f.replayCounter.toNat ++ nonce ++ iv)
      (by rw [← hp]; simp only [List.append_assoc]; rfl) ?_ hrscLen
    simp [hnonceLen, hivLen]
  have r81 : slice p 81 16 = some mic := by
    refine slice_of_append (a := [3, 3] ++ beBytes 2 (95 + f.keyDataLength.toNat) ++
      [f.keyDescription] ++ beBytes 2 f.keyInformation.word ++ beBytes 2 f.keyLength.toNat ++
      beBytes 8 f.replayCounter.toNat ++ nonce ++ iv ++ rsc ++ List.replicate 8 0)
      (by rw [← hp]; simp only [List.append_assoc]; rfl) ?_ hmicLen
    simp [hnonceLen, hivLen, hrscLen]
  have r97 : readBe p 97 2 = some f.keyDataLength.toNat := by
    refine readBe_of_append (a := [3, 3] ++ beBytes 2 (95 + f.keyDataLength.toNat) ++
      [f.keyDescription] ++ beBytes 2 f.keyInformation.word ++ beBytes 2 f.keyLength.toNat ++
      beBytes 8 f.replayCounter.toNat ++ nonce ++ iv ++ rsc ++ List.replicate 8 0 ++ mic)
      f.keyDataLength.toNat_lt (by rw [← hp]; simp only [List.append_assoc]; rfl) ?_
    simp [hnonceLen, hivLen, hrscLen, hmicLen]
  have r99 : slice p 99 f.keyDataLength.toNat = some data := by
    refine slice_of_append (a := [3, 3] ++ beBytes 2 (95 + f.keyDataLength.toNat) ++
      [f.keyDescription] ++ beBytes 2 f.keyInformation.word ++ beBytes 2 f.keyLength.toNat ++
      beBytes 8 f.replayCounter.toNat ++ nonce ++ iv ++ rsc ++ List.replicate 8 0 ++ mic ++
      beBytes 2 f.keyDataLength.toNat) (c := [])
      (by rw [← hp]; simp only [List.append_assoc, List.append_nil]) ?_ hdataLen
    simp [hnonceLen, hivLen, hrscLen, hmicLen]
  unfold eapol_parse_pdu_header
  rw [if_neg (by omega), r0, r1, r2]
  simp only [Option.bind_eq_bind, Option.bind_some]
  rw [if_neg (by decide), if_neg (by omega), if_neg (by decide), if_pos trivial]
  unfold eapol_parse_key_packet
  rw [if_neg (by omega), r4, r5, r7, r9, r17, r49, r65, r81, r97]
  simp only [Option.bind_eq_bind, Option.bind_some]
  rw [if_neg (by decide), keyInformation_word, if_neg (by simp [h.version]), if_neg (by omega), r99]
  rw [← hnonce, ← hiv, ← hrsc, ← hmic]
  simp only [Option.bind_some, pointer_orZero, UInt16.ofNat_toNat, UInt64.ofNat_toNat]
  change some (some (Body.key _)) = _
  unfold KeyFrame.read
  rw [← hdata, h.description]

end EapolCodec
