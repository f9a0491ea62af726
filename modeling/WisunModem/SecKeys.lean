import Mathlib.Tactic.Common
import Mathlib.Order.Defs.LinearOrder
import Mathlib.Data.Fintype.Pi

/-!
# The keys of a node and the frames that carry them

A PMK comes out of EAP-TLS, a PTK out of the PMK and two nonces, and GTKs travel under the
PTK.  The PRF, the HMAC and the AES key wrap are taken as ideal: a PTK is the term it was
computed from, the MIC of a frame is the key under which it verifies, and wrapped key data
opens under the key it was wrapped with and under no other.

* `Derived.unique` — one PTK comes from one PMK.
-/

namespace Pae

abbrev Eui64 := BitVec 64
abbrev Nonce := BitVec 256
abbrev Pmk := BitVec 256
abbrev Gtk := BitVec 128

/-! ## Pairwise keys -/

/-- What stands in a PTK buffer: the zeros of `sec_prot_keys_init` and
`sec_prot_keys_ptk_delete`, an output of the PRF, or what a reader finds that starts four
bytes into a stored PTK. -/
inductive Ptk
  | zero
  | prf (pmk : Pmk) (minEui64 maxEui64 : Eui64) (minNonce maxNonce : Nonce)
  | shifted (ptk : Ptk)
  deriving DecidableEq, Repr

/-- `sec_prot_lib_ptk_calc`: addresses and nonces go in in the order `memcmp` puts them. -/
def ptkCalc (pmk : Pmk) (eui64₁ eui64₂ : Eui64) (nonce₁ nonce₂ : Nonce) : Ptk :=
  .prf pmk
    (if eui64₂ < eui64₁ then eui64₂ else eui64₁) (if eui64₂ < eui64₁ then eui64₁ else eui64₂)
    (if nonce₂ < nonce₁ then nonce₂ else nonce₁) (if nonce₂ < nonce₁ then nonce₁ else nonce₂)

/-- The PTK was computed from this PMK. -/
def Derived (pmk : Pmk) : Ptk → Prop
  | .prf source _ _ _ _ => source = pmk
  | _ => False

instance (pmk : Pmk) : DecidablePred (Derived pmk)
  | .prf source _ _ _ _ => inferInstanceAs (Decidable (source = pmk))
  | .zero => isFalse not_false
  | .shifted _ => isFalse not_false

theorem derived_ptkCalc (pmk : Pmk) (a b : Eui64) (n m : Nonce) :
    Derived pmk (ptkCalc pmk a b n m) := rfl

theorem Derived.unique {pmk pmk' : Pmk} {ptk : Ptk} (h : Derived pmk ptk)
    (h' : Derived pmk' ptk) : pmk = pmk' := by
  cases ptk with
  | prf source _ _ _ _ => exact h.symm.trans h'
  | zero => exact h.elim
  | shifted _ => exact h.elim

/-! ## Frames -/

/-- An ideal HMAC names what it was taken over. -/
inductive Pmkid
  | calc (pmk : Pmk) (authEui64 suppEui64 : Eui64)
  | other (value : Nat)
  deriving DecidableEq, Repr

/-- What the `kde_*_read` functions find in plain key data. -/
structure Kdes where
  pmkid : Option Pmkid := none
  gtk : Option (Fin 4 × Gtk) := none
  lifetime : Option Nat := none
  gtkl : Option Nat := none
  deriving DecidableEq, Repr

/-- Key data on the air. -/
inductive KeyData
  | plain (kdes : Kdes)
  | wrapped (ptk : Ptk) (kdes : Kdes)
  deriving DecidableEq, Repr

/-- An EAPOL-Key frame as `eapol_parse_key_packet` reads it; `mic` is the key under which its
MIC verifies, if there is one. -/
structure KeyFrame where
  pairwiseKey : Bool
  install : Bool
  keyAck : Bool
  keyMic : Bool
  securedKeyFrame : Bool
  encryptedKeyData : Bool
  replayCounter : Nat
  keyNonce : Nonce
  mic : Option Ptk
  keyData : Option KeyData
  deriving DecidableEq, Repr

/-- `eapol_pdu_key_frame_init`, without key data. -/
def KeyFrame.init : KeyFrame :=
  { pairwiseKey := false, install := false, keyAck := false, keyMic := false,
    securedKeyFrame := false, encryptedKeyData := false, replayCounter := 0, keyNonce := 0,
    mic := none, keyData := none }

/-- `eapol_pdu_key_mask_get`: install, ack, MIC and secured. -/
def KeyFrame.keyMask (f : KeyFrame) : Bool × Bool × Bool × Bool :=
  (f.install, f.keyAck, f.keyMic, f.securedKeyFrame)

/-- `sec_prot_lib_message_build`: wraps the key data and takes the MIC where the frame says
so. -/
def messageBuild (ptk : Ptk) (kdes : Option Kdes) (f : KeyFrame) : KeyFrame :=
  { f with
    keyData := kdes.map fun k => if f.encryptedKeyData then .wrapped ptk k else .plain k
    mic := if f.keyMic then some ptk else none }

/-- `sec_prot_lib_message_handle`: there is key data, and if it is encrypted it opens under
this PTK.  Ciphertext that the frame calls plain has no KDE in it. -/
def messageHandle (ptk : Ptk) (f : KeyFrame) : Option Kdes :=
  match f.keyData with
  | none => none
  | some (.plain kdes) => if f.encryptedKeyData then none else some kdes
  | some (.wrapped key kdes) =>
      if f.encryptedKeyData then if key = ptk then some kdes else none else some {}

/-- `sec_prot_lib_mic_validate`. -/
def micValidate (ptk : Ptk) (f : KeyFrame) : Bool := f.mic = some ptk

@[simp] theorem micValidate_eq {ptk : Ptk} {f : KeyFrame} :
    micValidate ptk f = true ↔ f.mic = some ptk := by
  simp [micValidate]

/-! ## Group keys -/

/-- The GTK table (`sec_prot_gtk_keys_t`): key and lifetime of each slot that is set. -/
structure Gtks where
  gtk : Fin 4 → Option (Gtk × Nat)
  updated : Bool

def gtksInit : Gtks := { gtk := fun _ => none, updated := false }

/-- `sec_prot_keys_gtks_clear`: sets the flag if there is a key, and then clears it with all the
rest. -/
def gtksClear (_ : Gtks) : Gtks := gtksInit

/-- `sec_prot_keys_gtk_count`. -/
def gtkCount (gtks : Gtks) : Nat := (List.finRange 4).countP fun i => (gtks.gtk i).isSome

/-- `sec_prot_keys_gtk_set`; the same key again is no update. -/
def gtkSet (gtks : Gtks) (index : Fin 4) (gtk : Gtk) (lifetime : Nat) : Option Gtks :=
  if (gtks.gtk index).map Prod.fst = some gtk then none
  else some { gtk := Function.update gtks.gtk index (some (gtk, lifetime)), updated := true }

/-! ## Security keys -/

/-- `sec_prot_keys_t`.  The PMK is only read while it is set; the PTK buffer also when it is
not, so it is a field of its own. -/
structure SecKeys where
  pmk : Option Pmk
  pmkLifetime : Nat
  pmkKeyReplayCnt : Nat
  pmkKeyReplayCntSet : Bool
  ptk : Ptk
  ptkSet : Bool
  ptkLifetime : Nat
  ptkEui64 : Option Eui64
  gtkl : Nat
  gtkSetIndex : Option (Fin 4)
  updated : Bool

/-- `sec_prot_keys_init`. -/
def keysInit : SecKeys :=
  { pmk := none, pmkLifetime := 0, pmkKeyReplayCnt := 0, pmkKeyReplayCntSet := false,
    ptk := .zero, ptkSet := false, ptkLifetime := 0, ptkEui64 := none, gtkl := 0,
    gtkSetIndex := none, updated := false }

namespace SecKeys

/-- `sec_prot_keys_pmk_write`. -/
def pmkWrite (keys : SecKeys) (pmk : Pmk) (lifetime : Nat) : SecKeys :=
  { keys with
    pmk := some pmk, pmkLifetime := lifetime, pmkKeyReplayCnt := 0, pmkKeyReplayCntSet := false,
    updated := true }

/-- `sec_prot_keys_pmk_delete`. -/
def pmkDelete (keys : SecKeys) : SecKeys :=
  { keys with
    pmk := none, pmkLifetime := 0, pmkKeyReplayCnt := 0, pmkKeyReplayCntSet := false,
    updated := keys.updated || keys.pmkKeyReplayCnt != 0 || keys.pmkKeyReplayCntSet
      || keys.pmkLifetime != 0 || keys.pmk.isSome }

/-- `sec_prot_keys_pmk_replay_cnt_set`; what is stored is not marked as changed. -/
def pmkReplayCntSet (keys : SecKeys) (counter : Nat) : SecKeys :=
  { keys with pmkKeyReplayCnt := counter, pmkKeyReplayCntSet := true }

/-- `sec_prot_keys_pmk_replay_cnt_increment`: the first call leaves the counter where it is,
and sixteen bits that come near their end are all set. -/
def pmkReplayCntIncrement (keys : SecKeys) : Bool × SecKeys :=
  if !keys.pmkKeyReplayCntSet then (true, { keys with pmkKeyReplayCntSet := true })
  else if 60000 < keys.pmkKeyReplayCnt % 2 ^ 16 then
    (false,
      { keys with
        pmkKeyReplayCnt := keys.pmkKeyReplayCnt - keys.pmkKeyReplayCnt % 2 ^ 16 + 0xFFFF })
  else (true, { keys with pmkKeyReplayCnt := keys.pmkKeyReplayCnt + 1 })

/-- `sec_prot_keys_pmk_replay_cnt_compare`: above the counter, or at it while it is not set. -/
def pmkReplayCntCompare (received : Nat) (keys : SecKeys) : Bool :=
  if keys.pmkKeyReplayCntSet then keys.pmkKeyReplayCnt < received
  else keys.pmkKeyReplayCnt ≤ received

/-- `sec_prot_keys_ptk_write`. -/
def ptkWrite (keys : SecKeys) (ptk : Ptk) (lifetime : Nat) : SecKeys :=
  { keys with ptk := ptk, ptkLifetime := lifetime, ptkSet := true, updated := true }

/-- `sec_prot_keys_ptk_delete`. -/
def ptkDelete (keys : SecKeys) : SecKeys :=
  { keys with
    ptk := .zero, ptkLifetime := 0, ptkSet := false,
    updated := keys.updated || keys.ptkLifetime != 0 || keys.ptkSet }

/-- `sec_prot_keys_ptk_eui_64_write`. -/
def ptkEui64Write (keys : SecKeys) (eui64 : Eui64) : SecKeys :=
  { keys with ptkEui64 := some eui64, updated := true }

/-- `sec_prot_keys_ptk_eui_64_delete`. -/
def ptkEui64Delete (keys : SecKeys) : SecKeys :=
  { keys with ptkEui64 := none, updated := keys.updated || keys.ptkEui64.isSome }

/-- `sec_prot_keys_gtkl_set`. -/
def gtklSet (keys : SecKeys) (gtkl : Nat) : SecKeys := { keys with gtkl := gtkl }

end SecKeys

end Pae
