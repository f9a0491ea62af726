import Mathlib.Algebra.GroupWithZero.Nat
import WisunModem.EapolKey

/-!
# Key data elements

The writers and readers of `kde_helper.c`.  A key data element is `0xdd`, a length, an OUI and
a data type in front of its data; behind the last one stands the padding.  A read answers only
inside the key data.
-/

namespace EapolCodec

open ByteStore (be beBytes length_beBytes be_beBytes)

def ieee_802_11_oui : List UInt8 := [0x00, 0x0F, 0xAC]

def wisun_oui : List UInt8 := [0x0C, 0x5A, 0x9E]

/-- The elements that are written. -/
inductive Kde
  | gtk (keyId : Fin 4) (key : Vector UInt8 16)
  | pmkid (id : Vector UInt8 16)
  | ptkid (id : Vector UInt8 16)
  | lifetime (value : UInt32)
  | gtkl (live : UInt8)
deriving DecidableEq

/-! ## Writing -/

/-- `kde_header_write` -/
def kde_header_write (oui : List UInt8) (dataType : UInt8) (dataLength : Nat) : List UInt8 :=
  [0xdd, .ofNat (dataLength - 2)] ++ oui ++ [dataType]

def kde_gtk_write (keyId : Fin 4) (gtk : Vector UInt8 16) : List UInt8 :=
  kde_header_write ieee_802_11_oui 0x01 24 ++ ([.ofNat keyId.val, 0] ++ gtk.toList)

def kde_pmkid_write (pmkid : Vector UInt8 16) : List UInt8 :=
  kde_header_write ieee_802_11_oui 0x04 22 ++ pmkid.toList

def kde_ptkid_write (ptkid : Vector UInt8 16) : List UInt8 :=
  kde_header_write wisun_oui 0x01 22 ++ ptkid.toList

def kde_lifetime_write (lifetime : UInt32) : List UInt8 :=
  kde_header_write ieee_802_11_oui 0x07 10 ++ beBytes 4 lifetime.toNat

def kde_gtkl_write (gtkl : UInt8) : List UInt8 :=
  kde_header_write wisun_oui 0x02 7 ++ [gtkl]

def Kde.write : Kde → List UInt8
  | .gtk keyId key => kde_gtk_write keyId key
  | .pmkid id => kde_pmkid_write id
  | .ptkid id => kde_ptkid_write id
  | .lifetime value => kde_lifetime_write value
  | .gtkl live => kde_gtkl_write live

/-- `kde_padded_length_calc`, which returns 16 bits. -/
def kde_padded_length_calc (kdeLength : Nat) : Nat :=
  if kdeLength < 16 then 16 else (kdeLength + 7) / 8 * 8 % 2 ^ 16

/-- `kde_padding_write` of `n` bytes. -/
def kde_padding_write : Nat → List UInt8
  | 0 => []
  | n + 1 => 0xdd :: List.replicate n 0

/-- The elements one after the other, padded. -/
def keyData (es : List Kde) : List UInt8 :=
  let kde := es.flatMap Kde.write
  kde ++ kde_padding_write (kde_padded_length_calc kde.length - kde.length)

/-! ## Reading -/

/-- `kde_search` of all bytes of `p`; what it returns is the inner option. -/
def kde_search (oui : List UInt8) (dataType : UInt8) (minLen : Nat) (p : List UInt8) :
    Option (Option (List UInt8)) :=
  if 6 ≤ p.length then do
    let type ← readByte p 0
    let length ← readByte p 1
    let kdeLen := length.toNat + 2
    if type = 0xdd ∧ kdeLen < 6 ∨ p.length < kdeLen then pure none
    else do
      let oui' ← slice p 2 3
      let dataType' ← readByte p 5
      if minLen ≤ kdeLen ∧ oui' = oui ∧ dataType' = dataType then pure (some (p.drop 6))
      else if kdeLen < p.length then kde_search oui dataType minLen (p.drop kdeLen)
      else pure none
  else some none
termination_by p.length
decreasing_by
  rw [List.length_drop]
  omega

/-- A reader: the search, and what is read of the data found. -/
def kdeRead {α : Type} (oui : List UInt8) (dataType : UInt8) (minLen : Nat)
    (read : List UInt8 → Option α) (p : List UInt8) : Option (Option α) :=
  match kde_search oui dataType minLen p with
  | none => none
  | some none => some none
  | some (some data) => (read data).map some

def kde_gtk_read : List UInt8 → Option (Option (UInt8 × List UInt8)) :=
  kdeRead ieee_802_11_oui 0x01 24 fun data => do
    let keyId ← readByte data 0
    let gtk ← slice data 2 16
    pure (keyId &&& 0x03, gtk)

def kde_pmkid_read : List UInt8 → Option (Option (List UInt8)) :=
  kdeRead ieee_802_11_oui 0x04 22 fun data => slice data 0 16

def kde_ptkid_read : List UInt8 → Option (Option (List UInt8)) :=
  kdeRead wisun_oui 0x01 22 fun data => slice data 0 16

def kde_lifetime_read : List UInt8 → Option (Option Nat) :=
  kdeRead ieee_802_11_oui 0x07 10 fun data => readBe data 0 4

def kde_gtkl_read : List UInt8 → Option (Option UInt8) :=
  kdeRead wisun_oui 0x02 7 fun data => readByte data 0

/-! ## The readers stay inside -/

variable {oui oui' data rest p : List UInt8} {dataType dataType' : UInt8} {minLen : Nat}

/-- **The search** reads only inside, and what it finds is as long as its reader needs. -/
theorem kde_search_inside (oui : List UInt8) (dataType : UInt8) (minLen : Nat) (p : List UInt8) :
    ∃ r, kde_search oui dataType minLen p = some r ∧
      ∀ data, r = some data → minLen ≤ data.length + 6 := by
  induction hn : p.length using Nat.strong_induction_on generalizing p with
  | _ n ih =>
    unfold kde_search
    by_cases hlong : 6 ≤ p.length
    case neg =>
      rw [if_neg hlong]
      exact ⟨none, rfl, fun _ h => by cases h⟩
    rw [if_pos hlong]
    obtain ⟨type, htype⟩ := readByte_isSome (p := p) (i := 0) (by omega)
    obtain ⟨length, hlength⟩ := readByte_isSome (p := p) (i := 1) (by omega)
    obtain ⟨found, hfound⟩ := slice_isSome (p := p) (i := 2) (n := 3) (by omega)
    obtain ⟨kind, hkind⟩ := readByte_isSome (p := p) (i := 5) (by omega)
    rw [htype, hlength, hfound, hkind]
    simp only [Option.bind_eq_bind, Option.bind_some]
    split
    · exact ⟨none, rfl, fun _ h => by cases h⟩
    · split
      · next hmatch =>
        refine ⟨_, rfl, fun data h => ?_⟩
        cases h
        rw [List.length_drop]
        omega
      · split
        · exact ih _ (by rw [List.length_drop]; omega) _ rfl
        · exact ⟨none, rfl, fun _ h => by cases h⟩

/-- A reader that reads no more than `minLen` makes sure of stays inside. -/
theorem kdeRead_inside {α : Type} {read : List UInt8 → Option α}
    (hread : ∀ data : List UInt8, minLen ≤ data.length + 6 → (read data).isSome)
    (p : List UInt8) : (kdeRead oui dataType minLen read p).isSome := by
  obtain ⟨r, hr, hlen⟩ := kde_search_inside oui dataType minLen p
  unfold kdeRead
  rw [hr]
  cases r with
  | none => rfl
  | some data =>
    rw [Option.isSome_map]
    exact hread data (hlen data rfl)

/-- **The readers** of `kde_helper.c` read only inside the key data. -/
theorem kde_reads_inside (p : List UInt8) :
    (kde_gtk_read p).isSome ∧ (kde_pmkid_read p).isSome ∧ (kde_ptkid_read p).isSome ∧
      (kde_lifetime_read p).isSome ∧ (kde_gtkl_read p).isSome := by
  refine ⟨kdeRead_inside (fun data hlen => ?_) p, kdeRead_inside (fun data hlen => ?_) p,
    kdeRead_inside (fun data hlen => ?_) p, kdeRead_inside (fun data hlen => ?_) p,
    kdeRead_inside (fun data hlen => ?_) p⟩
  · obtain ⟨keyId, hkeyId⟩ := readByte_isSome (p := data) (i := 0) (by omega)
    obtain ⟨gtk, hgtk⟩ := slice_isSome (p := data) (i := 2) (n := 16) (by omega)
    rw [hkeyId, hgtk]
    rfl
  · exact Option.isSome_iff_exists.mpr (slice_isSome (by omega))
  · exact Option.isSome_iff_exists.mpr (slice_isSome (by omega))
  · exact Option.isSome_iff_exists.mpr (readBe_isSome (by omega))
  · exact Option.isSome_iff_exists.mpr (readByte_isSome (by omega))

/-! ## What is written is found -/

variable (oui dataType dataType' minLen rest) in
/-- An element is found or passed over. -/
theorem kde_search_kde (houi : oui'.length = 3) (hdata : data.length + 6 < 258) :
    kde_search oui dataType minLen
        (kde_header_write oui' dataType' (data.length + 6) ++ data ++ rest) =
      if minLen ≤ data.length + 6 ∧ oui' = oui ∧ dataType' = dataType then
        some (some (data ++ rest))
      else kde_search oui dataType minLen rest := by
  obtain ⟨a, b, c, rfl⟩ := List.length_eq_three.mp houi
  have hlength : (UInt8.ofNat (data.length + 6 - 2)).toNat + 2 = data.length + 6 := by
    rw [UInt8.toNat_ofNat']
    omega
  conv_lhs => unfold kde_search
  unfold kde_header_write
  simp only [List.cons_append, List.nil_append, List.length_cons, List.length_append]
  rw [if_pos (by omega)]
  unfold readByte slice
  simp only [List.getElem?_cons_zero, List.getElem?_cons_succ, List.length_cons,
    List.length_append, Option.bind_eq_bind, Option.bind_some, hlength, List.drop_succ_cons,
    List.drop_zero, List.take_succ_cons, List.take_zero]
  rw [if_neg (by omega), if_pos (by omega)]
  simp only [Option.bind_some]
  split
  · rfl
  · split
    · next hmore =>
      congr 1
      have hskip : (UInt8.ofNat (data.length + 6 - 2)).toNat = data.length + 4 := by omega
      rw [hskip]
      simp only [List.drop_succ_cons, List.drop_left]
    · next hend =>
      obtain rfl : rest = [] := List.length_eq_zero_iff.mp (by omega)
      unfold kde_search
      rfl

/-- Nothing is found in the padding. -/
theorem kde_search_padding (n : Nat) :
    kde_search oui dataType minLen (kde_padding_write n) = some none := by
  unfold kde_search
  by_cases hlong : 6 ≤ (kde_padding_write n).length
  · rw [if_pos hlong]
    match n with
    | 0 => exact absurd hlong (by decide)
    | 1 => exact absurd hlong (by decide)
    | n + 2 => rfl
  · rw [if_neg hlong]

/-- An element, as its header and its data. -/
def Kde.parts : Kde → List UInt8 × UInt8 × List UInt8
  | .gtk keyId key => (ieee_802_11_oui, 0x01, [.ofNat keyId.val, 0] ++ key.toList)
  | .pmkid id => (ieee_802_11_oui, 0x04, id.toList)
  | .ptkid id => (wisun_oui, 0x01, id.toList)
  | .lifetime value => (ieee_802_11_oui, 0x07, beBytes 4 value.toNat)
  | .gtkl live => (wisun_oui, 0x02, [live])

theorem Kde.write_eq (e : Kde) :
    e.write = kde_header_write e.parts.1 e.parts.2.1 (e.parts.2.2.length + 6) ++ e.parts.2.2 ∧
      e.parts.1.length = 3 ∧ e.parts.2.2.length + 6 < 258 := by
  cases e with
  | gtk keyId key =>
    have hlen : ([UInt8.ofNat keyId.val, 0] ++ key.toList).length = 18 := by simp
    refine ⟨?_, rfl, by rw [parts, hlen]; decide⟩
    rw [parts, hlen]
    rfl
  | pmkid id =>
    have hlen : id.toList.length = 16 := by simp
    refine ⟨?_, rfl, by rw [parts, hlen]; decide⟩
    rw [parts, hlen]
    rfl
  | ptkid id =>
    have hlen : id.toList.length = 16 := by simp
    refine ⟨?_, rfl, by rw [parts, hlen]; decide⟩
    rw [parts, hlen]
    rfl
  | lifetime value =>
    have hlen : (beBytes 4 value.toNat).length = 4 := length_beBytes _ _
    refine ⟨?_, rfl, by rw [parts, hlen]; decide⟩
    rw [parts, hlen]
    rfl
  | gtkl live => exact ⟨rfl, rfl, show 7 < 258 by decide⟩

/-- **A reader finds the first element of its kind.** -/
theorem kdeRead_first {α : Type} {read : List UInt8 → Option α} {value : Kde → Option α}
    (hvalue : ∀ (e : Kde) (rest : List UInt8),
      if minLen ≤ e.parts.2.2.length + 6 ∧ e.parts.1 = oui ∧ e.parts.2.1 = dataType then
        read (e.parts.2.2 ++ rest) = value e ∧ (value e).isSome
      else value e = none) (es : List Kde) (n : Nat) :
    kdeRead oui dataType minLen read (es.flatMap Kde.write ++ kde_padding_write n)
      = some (es.findSome? value) := by
  induction es with
  | nil =>
    unfold kdeRead
    rw [List.flatMap_nil, List.nil_append, kde_search_padding]
    rfl
  | cons e es ih =>
    obtain ⟨hwrite, houi, hlen⟩ := e.write_eq
    have hfind := kde_search_kde oui (es.flatMap Kde.write ++ kde_padding_write n) dataType
      e.parts.2.1 minLen houi hlen
    have he := hvalue e (es.flatMap Kde.write ++ kde_padding_write n)
    unfold kdeRead at ih ⊢
    rw [List.flatMap_cons, List.append_assoc, hwrite, hfind]
    by_cases hkind : minLen ≤ e.parts.2.2.length + 6 ∧ e.parts.1 = oui ∧ e.parts.2.1 = dataType
    · rw [if_pos hkind] at he ⊢
      obtain ⟨v, hv⟩ := Option.isSome_iff_exists.mp he.2
      dsimp only
      rw [he.1, hv, List.findSome?_cons, hv]
      rfl
    · rw [if_neg hkind] at he ⊢
      rw [ih, List.findSome?_cons, he]

/-! ## The values of the elements -/

def Kde.gtk? : Kde → Option (UInt8 × List UInt8)
  | .gtk keyId key => some (.ofNat keyId.val, key.toList)
  | _ => none

def Kde.pmkid? : Kde → Option (List UInt8)
  | .pmkid id => some id.toList
  | _ => none

def Kde.ptkid? : Kde → Option (List UInt8)
  | .ptkid id => some id.toList
  | _ => none

def Kde.lifetime? : Kde → Option Nat
  | .lifetime value => some value.toNat
  | _ => none

def Kde.gtkl? : Kde → Option UInt8
  | .gtkl live => some live
  | _ => none

theorem slice_zero_append {n : Nat} (v : Vector UInt8 n) (rest : List UInt8) :
    slice (v.toList ++ rest) 0 n = some v.toList :=
  slice_of_append (a := []) rfl rfl (by simp)

/-- **The readers** on the elements of a list and their padding. -/
theorem kde_reads_keyData (es : List Kde) (n : Nat) :
    let p := es.flatMap Kde.write ++ kde_padding_write n
    kde_gtk_read p = some (es.findSome? Kde.gtk?) ∧
      kde_pmkid_read p = some (es.findSome? Kde.pmkid?) ∧
      kde_ptkid_read p = some (es.findSome? Kde.ptkid?) ∧
      kde_lifetime_read p = some (es.findSome? Kde.lifetime?) ∧
      kde_gtkl_read p = some (es.findSome? Kde.gtkl?) := by
  refine ⟨kdeRead_first (fun e rest => ?_) es n, kdeRead_first (fun e rest => ?_) es n,
    kdeRead_first (fun e rest => ?_) es n, kdeRead_first (fun e rest => ?_) es n,
    kdeRead_first (fun e rest => ?_) es n⟩
  · cases e with
    | gtk keyId key =>
      have hmask : ∀ k : Fin 4, UInt8.ofNat k.val &&& 0x03 = UInt8.ofNat k.val := by decide
      rw [if_pos ⟨by simp [Kde.parts], rfl, rfl⟩]
      refine ⟨?_, rfl⟩
      have hslice : slice ([UInt8.ofNat keyId.val, 0] ++ key.toList ++ rest) 2 16
          = some key.toList := by
        refine slice_of_append (a := [UInt8.ofNat keyId.val, 0]) (c := rest) ?_ rfl (by simp)
        rw [List.append_assoc]
      have hbyte : readByte ([UInt8.ofNat keyId.val, 0] ++ key.toList ++ rest) 0
          = some (UInt8.ofNat keyId.val) := rfl
      unfold Kde.parts Kde.gtk?
      dsimp only
      rw [hbyte, hslice]
      simp only [Option.bind_eq_bind, Option.bind_some, hmask, Option.pure_def]
    | _ => rw [if_neg (by simp [Kde.parts, ieee_802_11_oui, wisun_oui])]; rfl
  · cases e with
    | pmkid id =>
      rw [if_pos ⟨by simp [Kde.parts], rfl, rfl⟩]
      exact ⟨slice_zero_append id rest, rfl⟩
    | _ => rw [if_neg (by simp [Kde.parts, ieee_802_11_oui, wisun_oui])]; rfl
  · cases e with
    | ptkid id =>
      rw [if_pos ⟨by simp [Kde.parts], rfl, rfl⟩]
      exact ⟨slice_zero_append id rest, rfl⟩
    | _ => rw [if_neg (by simp [Kde.parts, ieee_802_11_oui, wisun_oui])]; rfl
  · cases e with
    | lifetime value =>
      rw [if_pos ⟨by simp [Kde.parts], rfl, rfl⟩]
      refine ⟨?_, rfl⟩
      exact readBe_of_append (a := []) (n := 4) value.toNat_lt rfl rfl
    | _ => rw [if_neg (by simp [Kde.parts, ieee_802_11_oui, wisun_oui])]; rfl
  · cases e with
    | gtkl live =>
      rw [if_pos ⟨by simp [Kde.parts], rfl, rfl⟩]
      exact ⟨rfl, rfl⟩
    | _ => rw [if_neg (by simp [Kde.parts, ieee_802_11_oui, wisun_oui])]; rfl

/-! ## Frames and elements together -/

theorem le_kde_padded_length_calc {n : Nat} (h : n ≤ 65528) : n ≤ kde_padded_length_calc n := by
  unfold kde_padded_length_calc
  split <;> omega

/-- **What is written is read back**: key frames with all their fields, a NULL one as zeros and
the MIC where its flag is set, and of the elements in key data the first one of each kind; and
whatever the bytes are, they are read only as far as they go. -/
theorem codec_round_trip :
    (∀ f : KeyFrame, f.Whole →
      eapol_parse_pdu_header (eapol_write_pdu_frame (95 + f.keyDataLength) f)
        = some (some (.key f.read))) ∧
    (∀ es : List Kde, (es.flatMap Kde.write).length ≤ 65528 →
      (keyData es).length = kde_padded_length_calc (es.flatMap Kde.write).length ∧
      kde_gtk_read (keyData es) = some (es.findSome? Kde.gtk?) ∧
      kde_pmkid_read (keyData es) = some (es.findSome? Kde.pmkid?) ∧
      kde_ptkid_read (keyData es) = some (es.findSome? Kde.ptkid?) ∧
      kde_lifetime_read (keyData es) = some (es.findSome? Kde.lifetime?) ∧
      kde_gtkl_read (keyData es) = some (es.findSome? Kde.gtkl?)) ∧
    ∀ p : List UInt8, (eapol_parse_pdu_header p).isSome ∧ (kde_gtk_read p).isSome ∧
      (kde_pmkid_read p).isSome ∧ (kde_ptkid_read p).isSome ∧ (kde_lifetime_read p).isSome ∧
      (kde_gtkl_read p).isSome ∧
      ∀ (oui : List UInt8) (dataType : UInt8) (minLen : Nat),
        (kde_search oui dataType minLen p).isSome := by
  refine ⟨fun f hf => parse_write hf, fun es hes => ⟨?_, kde_reads_keyData es _⟩, fun p => ?_⟩
  · have hpadding : ∀ n, (kde_padding_write n).length = n := by
      intro n
      cases n with
      | zero => rfl
      | succ n => simp [kde_padding_write]
    have hle := le_kde_padded_length_calc hes
    unfold keyData
    dsimp only
    rw [List.length_append, hpadding]
    omega
  · obtain ⟨hgtk, hpmkid, hptkid, hlifetime, hgtkl⟩ := kde_reads_inside p
    refine ⟨eapol_parse_pdu_header_inside p, hgtk, hpmkid, hptkid, hlifetime, hgtkl,
      fun oui dataType minLen => ?_⟩
    obtain ⟨r, hr, -⟩ := kde_search_inside oui dataType minLen p
    exact Option.isSome_iff_exists.mpr ⟨r, hr⟩

local instance unflaggedVersions : NeZero 8 := ⟨by decide⟩

/-- A key frame without flags that has a MIC. -/
def unflaggedFrame : KeyFrame where
  keyDescription := 2
  keyInformation := ⟨2, false, false, false, false, false, false, false, false, false⟩
  keyLength := 0
  replayCounter := 1
  keyNonce := none
  keyIv := none
  keyRsc := none
  keyMic := some (Vector.replicate 16 1)
  keyDataLength := 0
  keyData := none

theorem unflaggedFrame_whole : unflaggedFrame.Whole := ⟨rfl, rfl, rfl, by decide⟩

/-- Its MIC is not written, so another one is read back. -/
theorem unflagged_mic_lost :
    ∃ f, eapol_parse_pdu_header
        (eapol_write_pdu_frame (95 + unflaggedFrame.keyDataLength) unflaggedFrame)
          = some (some (.key f)) ∧
      unflaggedFrame.keyMic = some (Vector.replicate 16 1) ∧
      f.keyMic = some (Vector.replicate 16 0) :=
  ⟨unflaggedFrame.read, parse_write unflaggedFrame_whole, rfl, rfl⟩

/-- A frame, and key data with two elements of a kind. -/
theorem codec_round_trip_some :
    eapol_parse_pdu_header
        (eapol_write_pdu_frame (95 + unflaggedFrame.keyDataLength) unflaggedFrame)
          = some (some (.key unflaggedFrame.read)) ∧
      kde_gtkl_read (keyData [.gtkl 1, .lifetime 7, .gtkl 2]) = some (some 1) :=
  ⟨codec_round_trip.1 unflaggedFrame unflaggedFrame_whole,
    (codec_round_trip.2.1 [.gtkl 1, .lifetime 7, .gtkl 2] (by decide)).2.2.2.2.2⟩

end EapolCodec
