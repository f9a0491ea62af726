import WisunModem.ByteStore
import WisunModem.SuppHandshakes

/-!
# EAPOL-Key frames as bytes

How the supplicant reads a byte string: the headers (`eapol_helper.c`), the KDEs in the key data
(`kde_helper.c`), and where `sec_prot_lib.c` applies HMAC and AES key wrap, whose ideal results
are parameters.
-/

namespace Pae

namespace Eapol

open ByteStore (be)

/-- What the cryptography makes of bytes, and what a compiler makes of `eapol_pdu_t`. -/
structure Wire where
  /-- The PTK under which these 16 bytes are the MIC of a PDU. -/
  mic : List UInt8 → List UInt8 → Option Ptk
  /-- The PTK that unwraps this key data, and what is in it. -/
  unwrap : List UInt8 → Option (Ptk × List UInt8)
  pmkid : List UInt8 → Pmkid
  /-- `eap_header_parse`, and what stands in the fields of a key frame afterwards: they share
  their memory with those of an EAP header. -/
  eapPacket : List UInt8 → Option KeyFrame

/-! ## Key data -/

/-- `kde_search`: what stands from the data of the KDE on. -/
def kdeSearch (oui : List UInt8) (data_type : UInt8) (kde_min_len : Nat) :
    Nat → List UInt8 → Option (List UInt8)
  | turns + 1, type :: length :: oui₁ :: oui₂ :: oui₃ :: type' :: data =>
      let kdeLen := length.toNat + 2
      if type = 0xdd ∧ kdeLen < 6 ∨ data.length + 6 < kdeLen then none
      else if kde_min_len ≤ kdeLen ∧ [oui₁, oui₂, oui₃] = oui ∧ type' = data_type then some data
      else if kdeLen < data.length + 6 then
        kdeSearch oui data_type kde_min_len turns
          ((type :: length :: oui₁ :: oui₂ :: oui₃ :: type' :: data).drop kdeLen)
      else none
  | _, _ => none

def ieee_802_11_oui : List UInt8 := [0x00, 0x0F, 0xAC]

def wisun_oui : List UInt8 := [0x0C, 0x5A, 0x9E]

/-- `kde_pmkid_read`. -/
def kdePmkidRead (w : Wire) (kde : List UInt8) : Option Pmkid :=
  (kdeSearch ieee_802_11_oui 0x04 22 kde.length kde).map fun data => w.pmkid (data.take 16)

/-- `kde_gtk_read`: the key id has two bits, and the byte behind it is skipped. -/
def kdeGtkRead (kde : List UInt8) : Option (Fin 4 × Gtk) :=
  (kdeSearch ieee_802_11_oui 0x01 24 kde.length kde).map fun data =>
    (⟨(data.headD 0).toNat % 4, Nat.mod_lt _ (by decide)⟩,
      BitVec.ofNat 128 (be ((data.drop 2).take 16)))

/-- `kde_lifetime_read`. -/
def kdeLifetimeRead (kde : List UInt8) : Option Nat :=
  (kdeSearch ieee_802_11_oui 0x07 10 kde.length kde).map fun data => be (data.take 4)

/-- `kde_gtkl_read`. -/
def kdeGtklRead (kde : List UInt8) : Option Nat :=
  (kdeSearch wisun_oui 0x02 7 kde.length kde).map fun data => (data.headD 0).toNat

/-- All KDEs that a supplicant looks for. -/
def kdesRead (w : Wire) (kde : List UInt8) : Kdes :=
  { pmkid := kdePmkidRead w kde, gtk := kdeGtkRead kde, lifetime := kdeLifetimeRead kde,
    gtkl := kdeGtklRead kde }

/-- The key data of a frame: encrypted data that no PTK unwraps is like plain data that is said
to be encrypted, and none at all is no key data. -/
def keyDataRead (w : Wire) (encrypted : Bool) (data : List UInt8) : Option KeyData :=
  match data, encrypted with
  | [], _ => none
  | data, false => some (.plain (kdesRead w data))
  | data, true =>
      match w.unwrap data with
      | none => some (.plain {})
      | some (ptk, kde) => some (.wrapped ptk (kdesRead w kde))

/-! ## Headers -/

/-- What `sec_prot_lib_mic_validate` takes the MIC over: its own bytes are zero, and the size of
the PDU has eight bits. -/
def micInput (pdu : List UInt8) : List UInt8 :=
  (pdu.take 81 ++ List.replicate 16 0 ++ pdu.drop 97).take (pdu.length % 2 ^ 8)

/-- `eapol_parse_key_packet`, with the fields of `eapol_key_information_read`. -/
def parseKeyPacket (w : Wire) (pdu : List UInt8) (packet_length : Nat) : Option KeyFrame :=
  let body := pdu.drop 4
  let keyInfo := be ((body.drop 1).take 2)
  let keyDataLength := be ((body.drop 93).take 2)
  if packet_length < 95 then none
  else if body.head? ≠ some 2 then none
  else if keyInfo % 2 ^ 3 ≠ 2 then none
  else if packet_length - 95 < keyDataLength then none
  else
    let encrypted := keyInfo.testBit 12
    some
      { pairwiseKey := keyInfo.testBit 3
        install := keyInfo.testBit 6
        keyAck := keyInfo.testBit 7
        keyMic := keyInfo.testBit 8
        securedKeyFrame := keyInfo.testBit 9
        encryptedKeyData := encrypted
        replayCounter := be ((body.drop 5).take 8)
        keyNonce := BitVec.ofNat 256 (be ((body.drop 13).take 32))
        mic := w.mic (micInput pdu) ((body.drop 77).take 16)
        keyData := keyDataRead w encrypted ((body.drop 95).take keyDataLength) }

/-- `eapol_parse_pdu_header`. -/
def parsePduHeader (w : Wire) (pdu : List UInt8) : Option KeyFrame :=
  match pdu with
  | protocol :: packet_type :: length₁ :: length₂ :: packet_body =>
      let packet_length := be [length₁, length₂]
      if protocol ≠ 3 then none
      else if packet_body.length < packet_length then none
      else if packet_type = 0 then w.eapPacket (packet_body.take packet_length)
      else if packet_type = 3 then parseKeyPacket w pdu packet_length
      else none
  | _ => none

/-! ## The search stays inside -/

variable {oui : List UInt8} {data_type : UInt8} {kde_min_len : Nat}

end Eapol

end Pae
