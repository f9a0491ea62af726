import WisunModem.NvmRecords
import WisunModem.Runs

/-!
# The keys in RAM and their copy in NVM

A supplicant keeps its GTKs and its pairwise keys in RAM and writes them to NVM when the key that
it uses has turned out to be valid, and when it changes the network.  Two `updated` flags say
whether there is anything to write.  The driver of the NVM writes what it is given.

The module follows a node with `DEFAULT_MBEDTLS_AUTH` through its whole life: every function that
changes a key, every change of the network, discovery that starts again, loss of power.

* `mirrored` — RAM and NVM differ only while the flag is up, in every run in which no flag is lost;
* `rediscovery_forgets` — discovery that starts again loses it.
-/

namespace NvmMirror

open ByteStore GtkTable RecordCursor NvmRecords

local instance fourGtks : NeZero 4 := ⟨by decide⟩

/-! ## The records -/

/-- What `nw_info` holds: the record that was created of this at this time, in this buffer. -/
structure NwInfoFile where
  time : UInt64
  panId : UInt16
  name : Name
  eui64 : BitVec 64
  gtks : Gtks
  buffer : Store

/-- What the record is about. -/
def NwInfoFile.info (f : NwInfoFile) : NwInfo :=
  { panId := f.panId, name := f.name, gtkEui64 := f.eui64, gtks := some f.gtks }

/-- The bytes of the file. -/
def NwInfoFile.tlv (f : NwInfoFile) : Tlv :=
  tlvCreate PAE_NVM_NW_INFO_TAG PAE_NVM_NW_INFO_LEN (nwInfoActs f.time f.info) f.buffer

/-- What `keys` holds. -/
structure KeysFile where
  keys : Keys
  buffer : Store

def KeysFile.tlv (f : KeysFile) : Tlv :=
  tlvCreate PAE_NVM_KEYS_TAG PAE_NVM_KEYS_LEN (keysActs f.keys) f.buffer

/-! ## The node -/

/-- `pae_controller_t` and `pae_supp_t`, the clock, and the files. -/
structure Node where
  /-- The EUI-64 of the node itself. -/
  eui64 : BitVec 64
  currentTime : UInt64
  /-- The supplicant has been initialised. -/
  supp : Bool
  nwKeysUsedCnt : UInt8
  keys : Keys
  gtks : Gtks
  /-- Test keys have been set. -/
  gtksSet : Bool
  targetPanId : UInt16
  networkName : Name
  keyPanId : UInt16
  newPanId : UInt16
  nwInfoUpdated : Bool
  buffer : Store
  nwInfoFile : Option NwInfoFile
  keysFile : Option KeysFile

namespace Node

/-- `ws_pae_controller_init` after the node has got power: everything but the files is gone. -/
def powerUp (eui64 : BitVec 64) (s : Node) : Node :=
  { eui64 := eui64, currentTime := 0, supp := false, nwKeysUsedCnt := 0, keys := keysInit
    gtks := gtksInit, gtksSet := false, targetPanId := 0xffff, networkName := .empty
    keyPanId := 0xffff, newPanId := 0xffff, nwInfoUpdated := false, buffer := fun _ => 0
    nwInfoFile := s.nwInfoFile, keysFile := s.keysFile }

/-- `ws_pae_controller_data_init`. -/
def dataInit (s : Node) : Node :=
  { s with
    targetPanId := 0xffff, gtksSet := false, gtks := gtksInit, networkName := .empty
    keyPanId := 0xffff, newPanId := 0xffff, nwInfoUpdated := false }

/-! ### Writing -/

/-- `ws_pae_controller_nvm_nw_info_write`; the times at which the GTKs run out are kept. -/
def nwInfoWrite (s : Node) : Node :=
  let file : NwInfoFile :=
    { time := s.currentTime, panId := s.keyPanId, name := s.networkName, eui64 := s.eui64
      gtks := s.gtks, buffer := s.buffer }
  { s with
    nwInfoFile := some file, buffer := file.tlv.data
    gtks := expirytimesSet s.currentTime s.gtks }

/-- `ws_pae_controller_nw_info_updated_check`. -/
def nwInfoUpdatedCheck (s : Node) : Node :=
  if s.nwInfoUpdated || s.gtks.updated then
    let s := s.nwInfoWrite
    { s with nwInfoUpdated := false, gtks := s.gtks.updatedReset }
  else s

/-- `ws_pae_supp_nvm_keys_write`. -/
def keysWrite (s : Node) : Node :=
  let file : KeysFile := { keys := s.keys, buffer := s.buffer }
  { s with keysFile := some file, buffer := file.tlv.data }

/-- `ws_pae_supp_nvm_update`. -/
def nvmUpdate (s : Node) : Node :=
  let s := s.nwInfoUpdatedCheck
  if s.keys.updated then
    let s := s.keysWrite
    { s with keys := s.keys.updatedReset }
  else s

/-! ### Reading -/

/-- `ws_pae_supp_nvm_keys_read`. -/
def keysFileRead (s : Node) : Node :=
  match s.keysFile with
  | none => s
  | some file =>
      match tlvRead PAE_NVM_KEYS_TAG PAE_NVM_KEYS_LEN (keysRead s.keys) file.tlv with
      | none => { s with buffer := file.tlv.data }
      | some (keys, _) => { s with buffer := file.tlv.data, keys := keys }

/-- `ws_pae_supp_init`; one that is there already stays. -/
def suppInit (s : Node) : Node :=
  if s.supp then s
  else
    { s with supp := true, nwKeysUsedCnt := 0, gtks := gtksInit, keys := keysInit }.keysFileRead

/-- `ws_pae_controller_nw_info_read`: with another EUI-64 the GTKs are not kept. -/
def nwInfoFileRead (s : Node) : Node :=
  match s.nwInfoFile with
  | none => s
  | some file =>
      match tlvRead PAE_NVM_NW_INFO_TAG PAE_NVM_NW_INFO_LEN
          (nwInfoRead s.currentTime s.keyPanId s.networkName (some s.gtks)) file.tlv with
      | none => { s with buffer := file.tlv.data }
      | some (info, _) =>
          let gtks := info.gtks.getD s.gtks
          { s with
            buffer := file.tlv.data, keyPanId := info.panId, networkName := info.name
            gtks := if info.gtkEui64 = s.eui64 then gtks else gtks.gtksClear
            newPanId := info.panId }

/-- `ws_pae_controller_supp_init`, also when discovery starts again. -/
def controllerSuppInit (s : Node) : Node :=
  let s := s.suppInit.nwInfoFileRead
  { s with gtks := s.gtks.gtkStatusActiveToFreshSet.updatedReset }

/-! ### Changes of the network -/

/-- `ws_pae_supp_nw_info_set`. -/
def suppNwInfoSet (updated : Bool) (s : Node) : Node :=
  if s.supp && updated then
    let s := { s with keys := s.keys.pmkDelete.ptkDelete.ptkEui64Delete, gtks := s.gtks.gtksClear }
    if s.keys.updated || s.gtks.updated then s.nvmUpdate else s
  else s

/-- Whether `ws_pae_controller_nw_info_set` finds another network. -/
def moves (s : Node) (panId : UInt16) (name : Option Name) : Bool :=
  name.any (· ≠ s.networkName) || (panId ≠ 0xffff && panId ≠ s.newPanId)

/-- `ws_pae_controller_nw_info_set`. -/
def nwInfoSet (panId : UInt16) (name : Option Name) (s : Node) : Node :=
  suppNwInfoSet (s.moves panId name)
    { s with
      networkName := name.getD s.networkName
      newPanId := if panId = 0xffff then s.newPanId else panId
      nwInfoUpdated := s.nwInfoUpdated || s.moves panId name }

/-! ### Authentication -/

/-- The keys are there for this network: the second part of `ws_pae_supp_nw_keys_valid_check`. -/
def KeysThere (s : Node) (panId : UInt16) (name : Name) : Prop :=
  (name = s.networkName ∧ panId = s.keyPanId) ∧ 0 < s.gtks.gtkCount ∧ s.keys.pmk ≠ none ∧
    s.keys.ptk ≠ none

instance (s : Node) (panId : UInt16) (name : Name) : Decidable (s.KeysThere panId name) :=
  inferInstanceAs (Decidable ((_ ∧ _) ∧ _ ∧ _ ∧ _))

/-- `ws_pae_supp_nw_keys_valid_check`; stored keys are used for one authentication. -/
def nwKeysValidCheck (panId : UInt16) (name : Name) (s : Node) : Bool × Node :=
  if 1 ≤ s.nwKeysUsedCnt then
    let s := { s with gtks := { gtksInit with updated := true } }.nvmUpdate
    (false, { s with nwKeysUsedCnt := 0 })
  else if s.KeysThere panId name then
    (true, { s with nwKeysUsedCnt := s.nwKeysUsedCnt + 1 })
  else (false, { s with nwKeysUsedCnt := 0 })

/-- `ws_pae_supp_authenticate` once the keys have been found not to be valid. -/
def keysForget (panId : UInt16) (name : Name) (s : Node) : Node :=
  let other := s.networkName ≠ name ∨ (s.keyPanId ≠ 0xffff ∧ s.keyPanId ≠ panId)
  { s with
    gtks := gtksInit
    keys := if other then s.keys.pmkDelete.ptkDelete.ptkEui64Delete else s.keys
    keyPanId := panId }

/-- `ws_pae_supp_authenticate`. -/
def suppAuthenticate (panId : UInt16) (name : Name) (s : Node) : Node :=
  let (valid, s) := s.nwKeysValidCheck panId name
  if valid then s else s.keysForget panId name

/-- `ws_pae_controller_authenticate`: with test keys nothing is authenticated. -/
def authenticate (s : Node) : Node :=
  if s.gtksSet then
    if s.gtks.updated then { s with gtks := s.gtks.updatedReset } else s
  else if s.supp then s.suppAuthenticate s.targetPanId s.networkName
  else s

/-! ### Other functions -/

/-- `ws_pae_supp_nw_key_valid`. -/
def nwKeyValid (s : Node) : Node :=
  if s.supp then { s with nwKeysUsedCnt := 0 }.nvmUpdate else s

/-- `ws_pae_controller_stop`. -/
def stop (s : Node) : Node :=
  { s.nwInfoUpdatedCheck with supp := false, keys := keysInit }.dataInit

/-- The GTKs in `ws_pae_supp_slow_timer`, and `ws_pae_current_time_update`. -/
def slowTimer (seconds : UInt16) (s : Node) : Node :=
  { s with
    currentTime := s.currentTime + seconds.toUInt64
    gtks := if s.supp then
        (List.finRange 4).foldl
          (fun t i =>
            if (t.gtk i).set then t.gtkLifetimeDecrement i s.currentTime seconds false else t)
          s.gtks
      else s.gtks }

/-- One turn of the second loop of `ws_pae_controller_gtk_update`. -/
def testKeySet (gtk : Fin 4 → BitVec 128) (expireOffset : UInt32) (s : Node) (i : Fin 4) : Node :=
  match s.gtks.gtkSet i (gtk i) (s.gtks.lastLifetime + expireOffset) with
  | none => s
  | some gtks => { s with gtks := gtks, gtksSet := true }

/-- `ws_pae_controller_gtk_update`. -/
def gtkUpdate (gtk : Fin 4 → BitVec 128) (expireOffset : UInt32) (s : Node) : Node :=
  let s := (List.finRange 4).foldl (testKeySet gtk expireOffset) s
  match s.gtks.firstIndex with
  | none => s
  | some i => { s with gtks := (s.gtks.gtkStatusActiveSet i).getD s.gtks }

end Node

/-! ## Runs -/

/-- The functions of `sec_prot_keys.c` that change a GTK. -/
inductive GtkOp where
  | set (i : Fin 4) (gtk : BitVec 128) (lifetime : UInt32)
  | clear (i : Fin 4)
  | expirytimeSet (i : Fin 4) (expirytime : UInt64)
  | lifetimeDecrement (i : Fin 4) (currentTime : UInt64) (seconds : UInt16) (enable : Bool)
  | statusFreshSet (i : Fin 4)
  | statusAllFreshSet
  | statusActiveSet (i : Fin 4)
  | statusSet (i : Fin 4) (status : Status)
  | installOrderSet (i order : Fin 4)
  | hashUpdate (gtkhash : Fin 4 → BitVec 64)

/-- `hash` is `sec_prot_lib_gtkhash_generate`. -/
def GtkOp.perform (hash : BitVec 128 → BitVec 64) (t : Gtks) : GtkOp → Gtks
  | .set i gtk lifetime => (t.gtkSet i gtk lifetime).getD t
  | .clear i => t.gtkClear i
  | .expirytimeSet i expirytime => t.gtkExpirytimeSet i expirytime
  | .lifetimeDecrement i currentTime seconds enable =>
      t.gtkLifetimeDecrement i currentTime seconds enable
  | .statusFreshSet i => t.gtkStatusFreshSet i
  | .statusAllFreshSet => t.gtkStatusAllFreshSet
  | .statusActiveSet i => (t.gtkStatusActiveSet i).getD t
  | .statusSet i status => t.gtkStatusSet i status
  | .installOrderSet i order => t.gtkInstallOrderSet i order
  | .hashUpdate gtkhash => t.gtksHashUpdate hash gtkhash

/-- Those that change a pairwise key. -/
inductive KeysOp where
  | pmkWrite (pmk : BitVec 256) (lifetime : UInt32)
  | pmkDelete
  | pmkReplayCntSet (counter : UInt64)
  | pmkLifetimeDecrement (seconds : UInt8)
  | ptkWrite (ptk : BitVec 384) (lifetime : UInt32)
  | ptkDelete
  | ptkLifetimeDecrement (seconds : UInt8)
  | ptkEui64Write (eui64 : BitVec 64)
  | ptkEui64Delete

def KeysOp.perform (k : Keys) : KeysOp → Keys
  | .pmkWrite pmk lifetime => k.pmkWrite pmk lifetime
  | .pmkDelete => k.pmkDelete
  | .pmkReplayCntSet counter => k.pmkReplayCntSet counter
  | .pmkLifetimeDecrement seconds => k.pmkLifetimeDecrement seconds
  | .ptkWrite ptk lifetime => k.ptkWrite ptk lifetime
  | .ptkDelete => k.ptkDelete
  | .ptkLifetimeDecrement seconds => k.ptkLifetimeDecrement seconds
  | .ptkEui64Write eui64 => k.ptkEui64Write eui64
  | .ptkEui64Delete => k.ptkEui64Delete

inductive Act where
  | gtk (op : GtkOp)
  | keys (op : KeysOp)
  | nwInfoSet (panId : UInt16) (name : Option Name)
  | setTarget (panId : UInt16)
  | authenticate
  | gtkUpdate (gtk : Fin 4 → BitVec 128) (expireOffset : UInt32)
  | nwKeyValid
  | nvmUpdate
  | slowTimer (seconds : UInt16)
  | currentTimeSet (time : UInt64)
  | stop
  /-- Power goes, at any moment, and comes back. -/
  | powerUp (eui64 : BitVec 64)
  | suppInit

/-- Every function may be called in every state. -/
def step (hash : BitVec 128 → BitVec 64) (s : Node) : Act → Option Node
  | .gtk op => some { s with gtks := op.perform hash s.gtks }
  | .keys op => some { s with keys := op.perform s.keys }
  | .nwInfoSet panId name => some (s.nwInfoSet panId name)
  | .setTarget panId => some { s with targetPanId := panId }
  | .authenticate => some s.authenticate
  | .gtkUpdate gtk expireOffset => some (s.gtkUpdate gtk expireOffset)
  | .nwKeyValid => some s.nwKeyValid
  | .nvmUpdate => some (if s.supp then s.nvmUpdate else s)
  | .slowTimer seconds => some (s.slowTimer seconds)
  | .currentTimeSet time => some { s with currentTime := time }
  | .stop => some s.stop
  | .powerUp eui64 => some (s.powerUp eui64)
  | .suppInit => some s.controllerSuppInit

/-- A node that was never in a network. -/
def factory : Node :=
  { eui64 := 0, currentTime := 0, supp := false, nwKeysUsedCnt := 0, keys := keysInit
    gtks := gtksInit, gtksSet := false, targetPanId := 0xffff, networkName := .empty
    keyPanId := 0xffff, newPanId := 0xffff, nwInfoUpdated := false, buffer := fun _ => 0
    nwInfoFile := none, keysFile := none }

/-! ## What is stored -/

/-- The GTKs in NVM. -/
def Node.storedGtks (s : Node) : Gtks :=
  match s.nwInfoFile with
  | none => gtksInit
  | some file => file.gtks

/-- The pairwise keys in NVM. -/
def Node.storedKeys (s : Node) : Keys :=
  match s.keysFile with
  | none => keysInit
  | some file => file.keys

/-- The same EUI-64, PMK and PTK. -/
def KeysSame (k k' : Keys) : Prop := k'.ptkEui64 = k.ptkEui64 ∧ k'.pmk = k.pmk ∧ k'.ptk = k.ptk

instance (k k' : Keys) : Decidable (KeysSame k k') := inferInstanceAs (Decidable (_ ∧ _ ∧ _))

/-- RAM and NVM differ only while the flag is up. -/
structure Mirrored (s : Node) : Prop where
  gtks : ¬Gtks.Same s.storedGtks s.gtks → s.gtks.updated = true
  keys : ¬KeysSame s.storedKeys s.keys → s.keys.updated = true

/-- NVM holds what is in RAM. -/
structure Stored (s : Node) : Prop where
  gtks : Gtks.Same s.storedGtks s.gtks
  keys : KeysSame s.storedKeys s.keys

/-- Power goes and comes back, and the supplicant is initialised at this time. -/
def Node.restart (eui64 : BitVec 64) (time : UInt64) (s : Node) : Node :=
  { s.powerUp eui64 with currentTime := time }.controllerSuppInit

/-- Every key that is there in the end was there before.  A PTK without its PMK is not read as it
was written. -/
structure NothingBack (s s' : Node) : Prop where
  gtks : ∀ i, (s'.gtks.gtk i).set = true →
    (s.gtks.gtk i).set = true ∧ (s'.gtks.gtk i).key = (s.gtks.gtk i).key
  ptkEui64 : ∀ eui64 ∈ s'.keys.ptkEui64, s.keys.ptkEui64 = some eui64
  pmk : ∀ pmk ∈ s'.keys.pmk, s.keys.pmk = some pmk
  ptk : ∀ ptk ∈ s'.keys.ptk, s.keys.ptk ≠ none ∧ (s.keys.pmk ≠ none → s.keys.ptk = some ptk)

/-- Changes of keys reach NVM: they are flagged, the next update stores them without changing what
is in RAM, and then no key comes back. -/
structure Kept (s : Node) : Prop where
  mirrored : Mirrored s
  stored : Stored s.nvmUpdate
  gtks : Gtks.Same s.gtks s.nvmUpdate.gtks
  keys : KeysSame s.keys s.nvmUpdate.keys
  nothingBack : ∀ eui64 time, NothingBack s (s.nvmUpdate.restart eui64 time)

/-! ## Pairwise keys -/

theorem KeysSame.refl (k : Keys) : KeysSame k k := ⟨rfl, rfl, rfl⟩

theorem KeysSame.trans {k₁ k₂ k₃ : Keys} (h : KeysSame k₁ k₂) (h' : KeysSame k₂ k₃) :
    KeysSame k₁ k₃ :=
  ⟨h'.1.trans h.1, h'.2.1.trans h.2.1, h'.2.2.trans h.2.2⟩

/-- The flag goes up when a pairwise key changes, and stays up. -/
def KeysFlagged (k k' : Keys) : Prop := k'.updated = false → k.updated = false ∧ KeysSame k k'

theorem KeysFlagged.refl (k : Keys) : KeysFlagged k k := fun h => ⟨h, .refl k⟩

theorem KeysFlagged.trans {k₁ k₂ k₃ : Keys} (h : KeysFlagged k₁ k₂) (h' : KeysFlagged k₂ k₃) :
    KeysFlagged k₁ k₃ := by
  intro hdown
  obtain ⟨hdown₂, hsame₂⟩ := h' hdown
  obtain ⟨hdown₁, hsame₁⟩ := h hdown₂
  exact ⟨hdown₁, hsame₁.trans hsame₂⟩

theorem keysFlagged_pmkDelete (k : Keys) : KeysFlagged k k.pmkDelete := by
  intro hdown
  simp only [Keys.pmkDelete, Bool.or_eq_false_iff, Option.isSome_eq_false_iff,
    Option.isNone_iff_eq_none] at hdown
  exact ⟨hdown.1, rfl, hdown.2.2.symm, rfl⟩

theorem keysFlagged_ptkDelete (k : Keys) : KeysFlagged k k.ptkDelete := by
  intro hdown
  simp only [Keys.ptkDelete, Bool.or_eq_false_iff, Option.isSome_eq_false_iff,
    Option.isNone_iff_eq_none] at hdown
  exact ⟨hdown.1, rfl, rfl, hdown.2.2.symm⟩

theorem keysFlagged_ptkEui64Delete (k : Keys) : KeysFlagged k k.ptkEui64Delete := by
  intro hdown
  simp only [Keys.ptkEui64Delete, Bool.or_eq_false_iff, Option.isSome_eq_false_iff,
    Option.isNone_iff_eq_none] at hdown
  exact ⟨hdown.1, hdown.2.symm, rfl, rfl⟩

/-- What changes neither a key nor the flag. -/
theorem keysFlagged_of_same {k k' : Keys} (hsame : KeysSame k k') (h : k'.updated = k.updated) :
    KeysFlagged k k' := fun hdown => ⟨h ▸ hdown, hsame⟩

/-- **Every change of a pairwise key** is flagged. -/
theorem keysFlagged_perform (k : Keys) (op : KeysOp) : KeysFlagged k (op.perform k) := by
  cases op with
  | pmkWrite pmk lifetime => exact fun hdown => by cases hdown
  | pmkDelete => exact keysFlagged_pmkDelete k
  | pmkReplayCntSet counter => exact keysFlagged_of_same ⟨rfl, rfl, rfl⟩ rfl
  | pmkLifetimeDecrement seconds =>
      change KeysFlagged k (k.pmkLifetimeDecrement seconds)
      unfold Keys.pmkLifetimeDecrement
      split
      · exact .refl k
      split
      · exact keysFlagged_of_same ⟨rfl, rfl, rfl⟩ rfl
      split
      · have hzero : KeysFlagged k { k with pmkLifetime := 0 } :=
          keysFlagged_of_same ⟨rfl, rfl, rfl⟩ rfl
        exact (hzero.trans (keysFlagged_ptkDelete _)).trans (keysFlagged_pmkDelete _)
      · exact .refl k
  | ptkWrite ptk lifetime => exact fun hdown => by cases hdown
  | ptkDelete => exact keysFlagged_ptkDelete k
  | ptkLifetimeDecrement seconds =>
      change KeysFlagged k (k.ptkLifetimeDecrement seconds)
      unfold Keys.ptkLifetimeDecrement
      split
      · exact .refl k
      split
      · exact keysFlagged_of_same ⟨rfl, rfl, rfl⟩ rfl
      split
      · exact (keysFlagged_ptkDelete k).trans (keysFlagged_of_same ⟨rfl, rfl, rfl⟩ rfl)
      · exact .refl k
  | ptkEui64Write eui64 => exact fun hdown => by cases hdown
  | ptkEui64Delete => exact keysFlagged_ptkEui64Delete k

/-- **Every change of a GTK** is flagged. -/
theorem flagged_perform (hash : BitVec 128 → BitVec 64) (t : Gtks) (op : GtkOp) :
    Gtks.Flagged t (op.perform hash t) := by
  cases op with
  | set i gtk lifetime =>
      change Gtks.Flagged t ((t.gtkSet i gtk lifetime).getD t)
      cases hset : t.gtkSet i gtk lifetime with
      | none => exact .refl t
      | some t' => exact Gtks.flagged_gtkSet hset
  | clear i => exact Gtks.flagged_of_updated (Gtks.gtkClear_updated t i)
  | expirytimeSet i expirytime => exact Gtks.flagged_gtkExpirytimeSet t i expirytime
  | lifetimeDecrement i currentTime seconds enable =>
      exact Gtks.flagged_gtkLifetimeDecrement t i currentTime seconds enable
  | statusFreshSet i => exact Gtks.flagged_gtkStatusFreshSet t i
  | statusAllFreshSet => exact Gtks.Flagged.foldl Gtks.flagged_gtkStatusFreshSet _ t
  | statusActiveSet i =>
      change Gtks.Flagged t ((t.gtkStatusActiveSet i).getD t)
      cases hset : t.gtkStatusActiveSet i with
      | none => exact .refl t
      | some t' => exact Gtks.flagged_gtkStatusActiveSet hset
  | statusSet i status => exact Gtks.flagged_gtkStatusSet t i status
  | installOrderSet i order => exact Gtks.flagged_gtkInstallOrderSet t i order
  | hashUpdate gtkhash =>
      exact Gtks.Flagged.foldl (Gtks.flagged_gtkHashUpdate hash gtkhash) _ t

/-! ## Updating NVM -/

section Update

variable {s : Node}

theorem Mirrored.gtks_same (h : Mirrored s) (hdown : s.gtks.updated = false) :
    Gtks.Same s.storedGtks s.gtks := by
  by_contra hdiffer
  rw [h.gtks hdiffer] at hdown
  cases hdown

theorem Mirrored.keys_same (h : Mirrored s) (hdown : s.keys.updated = false) :
    KeysSame s.storedKeys s.keys := by
  by_contra hdiffer
  rw [h.keys hdiffer] at hdown
  cases hdown

theorem Stored.holds (h : Stored s) : Mirrored s :=
  ⟨fun hdiffer => absurd h.gtks hdiffer, fun hdiffer => absurd h.keys hdiffer⟩

/-- Where nothing is written and every change is flagged, RAM and NVM stay alike. -/
theorem Mirrored.flagged (h : Mirrored s) {s' : Node} (hinfo : s'.nwInfoFile = s.nwInfoFile)
    (hfile : s'.keysFile = s.keysFile) (hgtks : Gtks.Flagged s.gtks s'.gtks)
    (hkeys : KeysFlagged s.keys s'.keys) : Mirrored s' := by
  have hstored : s'.storedGtks = s.storedGtks := by rw [Node.storedGtks, hinfo]; rfl
  have hstored' : s'.storedKeys = s.storedKeys := by rw [Node.storedKeys, hfile]; rfl
  constructor
  · rw [hstored]
    intro hdiffer
    by_contra hup
    obtain ⟨hdown, hsame⟩ := hgtks (by simpa using hup)
    exact hdiffer ((h.gtks_same hdown).trans hsame)
  · rw [hstored']
    intro hdiffer
    by_contra hup
    obtain ⟨hdown, hsame⟩ := hkeys (by simpa using hup)
    exact hdiffer ((h.keys_same hdown).trans hsame)

/-- Writing the record leaves the GTKs as they are. -/
theorem same_expirytimesSet (time : UInt64) (t : Gtks) : Gtks.Same t (expirytimesSet time t) := by
  intro i
  rw [expirytimesSet_same time t i]
  exact ⟨rfl, fun _ => ⟨rfl, rfl, rfl⟩⟩

/-- What is written first: the GTKs, unless there is nothing to write. -/
theorem nwInfoUpdatedCheck_spec (s : Node) :
    Gtks.Same s.gtks s.nwInfoUpdatedCheck.gtks ∧ s.nwInfoUpdatedCheck.keys = s.keys ∧
      s.nwInfoUpdatedCheck.keysFile = s.keysFile ∧
      (Gtks.Same s.nwInfoUpdatedCheck.storedGtks s.gtks ∨
        s.nwInfoUpdated = false ∧ s.gtks.updated = false ∧
          s.nwInfoUpdatedCheck.storedGtks = s.storedGtks) := by
  unfold Node.nwInfoUpdatedCheck
  split
  · exact ⟨same_expirytimesSet s.currentTime s.gtks, rfl, rfl, .inl (.refl _)⟩
  · rename_i hdown
    have hflags : s.nwInfoUpdated = false ∧ s.gtks.updated = false := by simpa using hdown
    exact ⟨.refl _, rfl, rfl, .inr ⟨hflags.1, hflags.2, rfl⟩⟩

/-- Then the pairwise keys, in the same way. -/
theorem nvmUpdate_spec (s : Node) :
    s.nvmUpdate.gtks = s.nwInfoUpdatedCheck.gtks ∧
      s.nvmUpdate.nwInfoFile = s.nwInfoUpdatedCheck.nwInfoFile ∧ KeysSame s.keys s.nvmUpdate.keys ∧
      (KeysSame s.nvmUpdate.storedKeys s.keys ∨
        s.keys.updated = false ∧ s.nvmUpdate.storedKeys = s.storedKeys) := by
  obtain ⟨-, hkeys, hfile, -⟩ := nwInfoUpdatedCheck_spec s
  unfold Node.nvmUpdate
  dsimp only
  split
  · refine ⟨rfl, rfl, ?_, .inl ?_⟩
    · rw [← hkeys]
      exact ⟨rfl, rfl, rfl⟩
    · rw [← hkeys]
      exact .refl _
  · rename_i hdown
    rw [hkeys] at hdown
    refine ⟨rfl, rfl, ?_, .inr ⟨by simpa using hdown, ?_⟩⟩
    · rw [hkeys]
      exact .refl _
    · rw [Node.storedKeys, hfile]
      rfl

/-- The GTKs are stored by an update that has a reason to, or that has nothing to do. -/
theorem nvmUpdate_gtks
    (h : s.nwInfoUpdated = true ∨ (s.gtks.updated = false → Gtks.Same s.storedGtks s.gtks)) :
    Gtks.Same s.nvmUpdate.storedGtks s.nvmUpdate.gtks := by
  obtain ⟨hsame, -, -, hstored⟩ := nwInfoUpdatedCheck_spec s
  obtain ⟨hgtks, hfile, -, -⟩ := nvmUpdate_spec s
  have hfiles : s.nvmUpdate.storedGtks = s.nwInfoUpdatedCheck.storedGtks := by
    rw [Node.storedGtks, hfile]
    rfl
  rw [hfiles, hgtks]
  rcases hstored with hstored | ⟨hinfo, hdown, hstored⟩
  · exact hstored.trans hsame
  · rw [hstored]
    rcases h with h | h
    · rw [hinfo] at h
      cases h
    · exact (h hdown).trans hsame

theorem nvmUpdate_keys (h : s.keys.updated = false → KeysSame s.storedKeys s.keys) :
    KeysSame s.nvmUpdate.storedKeys s.nvmUpdate.keys := by
  obtain ⟨-, -, hsame, hstored⟩ := nvmUpdate_spec s
  rcases hstored with hstored | ⟨hdown, hstored⟩
  · exact hstored.trans hsame
  · rw [hstored]
    exact (h hdown).trans hsame

/-- **The next update** makes NVM hold what is in RAM. -/
theorem Mirrored.nvmUpdate (h : Mirrored s) : Stored s.nvmUpdate :=
  ⟨nvmUpdate_gtks (.inr h.gtks_same), nvmUpdate_keys h.keys_same⟩

theorem nvmUpdate_gtks_same (s : Node) : Gtks.Same s.gtks s.nvmUpdate.gtks := by
  rw [(nvmUpdate_spec s).1]
  exact (nwInfoUpdatedCheck_spec s).1

theorem nvmUpdate_supp (s : Node) : s.nvmUpdate.supp = s.supp := by
  unfold Node.nvmUpdate Node.nwInfoUpdatedCheck
  split <;> dsimp only <;> split <;> rfl

theorem nwInfoSet_supp (s : Node) (panId : UInt16) (name : Option Name) :
    (s.nwInfoSet panId name).supp = s.supp := by
  unfold Node.nwInfoSet Node.suppNwInfoSet
  dsimp only
  split
  · split
    · exact nvmUpdate_supp _
    · rfl
  · rfl

theorem authenticate_supp (s : Node) : s.authenticate.supp = s.supp := by
  unfold Node.authenticate Node.suppAuthenticate Node.nwKeysValidCheck
  split
  · split <;> rfl
  split
  · dsimp only
    split
    · exact nvmUpdate_supp _
    · split <;> rfl
  · rfl

end Update

/-! ## Reading NVM -/

section Read

variable {s : Node}

/-- The table that is read keeps, of each GTK that was stored, its value and its state, if it
keeps the GTK. -/
theorem gtksRecall_key (time later : UInt64) (src t : Gtks) (hcount : t.gtkCount = 0) (i : Fin 4) :
    match lastsUntil time later (src.gtk i) with
    | some _ => ((gtksRecall time later src t).gtk i).set = true ∧
        ((gtksRecall time later src t).gtk i).key = (src.gtk i).key ∧
        ((gtksRecall time later src t).gtk i).status = (src.gtk i).status
    | none => ((gtksRecall time later src t).gtk i).set = false := by
  have hunset : ∀ i ∈ List.finRange 4, (t.gtk i).set = false := by
    intro j hmem
    have hnot := List.countP_eq_zero.mp hcount j hmem
    simpa using hnot
  have hread := (foldl_gtkRecall time later src _ (List.nodup_finRange 4) t hunset i).2
    (List.mem_finRange i)
  unfold gtksRecall
  rw [if_pos hcount]
  have hgtk : ((List.finRange 4).foldl (gtkRecall time later src) t).updatedReset.gtk =
      ((List.finRange 4).foldl (gtkRecall time later src) t).gtk := rfl
  rw [hgtk]
  cases hrecall : lastsUntil time later (src.gtk i) with
  | some lifetime =>
      rw [hrecall] at hread
      obtain ⟨k, hmoved, hset, hkey, hstatus, -⟩ := hread
      dsimp only
      rw [hmoved]
      exact ⟨hset, hkey, hstatus⟩
  | none =>
      rw [hrecall] at hread
      exact hread

/-- No GTK in the table. -/
def Empty (t : Gtks) : Prop := ∀ i, (t.gtk i).set = false

instance (t : Gtks) : Decidable (Empty t) :=
  inferInstanceAs (Decidable (∀ i, (t.gtk i).set = false))

theorem Empty.same {t : Gtks} (h : Empty t) : Gtks.Same t gtksInit := by
  intro i
  refine ⟨(h i).symm, fun hset => ?_⟩
  rw [h i] at hset
  cases hset

/-- Every GTK of the table still lasts, and no install order is skipped. -/
def Readable (time later : UInt64) (t : Gtks) : Prop :=
  (∀ i, (t.gtk i).set = true → (lastsUntil time later (t.gtk i)).isSome) ∧ Ascending t.orders

instance (time later : UInt64) (t : Gtks) : Decidable (Readable time later t) :=
  inferInstanceAs (Decidable ((∀ i, (t.gtk i).set = true → _) ∧ _))

theorem same_gtksRecall {time later : UInt64} {src t : Gtks} (hcount : t.gtkCount = 0)
    (h : Readable time later src) : Gtks.Same src (gtksRecall time later src t) := by
  have hunset : ∀ i ∈ List.finRange 4, (t.gtk i).set = false := by
    intro j hmem
    have hnot := List.countP_eq_zero.mp hcount j hmem
    simpa using hnot
  have hnone : t.orders = fun _ => none := by
    funext j
    simp [Gtks.orders, hunset j (List.mem_finRange j)]
  have horders : (gtksRecall time later src t).orders = src.orders := by
    have hfold := orders_foldl_gtkRecall time later h.1 _ (List.nodup_finRange 4) t hunset
    rw [hnone] at hfold
    have hread : readOrders src.orders = src.orders := (readOrders_eq_iff _).mpr h.2
    rw [← hread]
    unfold gtksRecall
    rw [if_pos hcount]
    exact hfold
  intro i
  have hkey := gtksRecall_key time later src t hcount i
  by_cases hset : (src.gtk i).set = true
  · obtain ⟨lifetime, hrecall⟩ := Option.isSome_iff_exists.mp (h.1 i hset)
    rw [hrecall] at hkey
    obtain ⟨hset', hkey, hstatus⟩ := hkey
    have horder := congrFun horders i
    simp only [Gtks.orders, hset, hset', if_true, Option.some.injEq] at horder
    exact ⟨hset'.trans hset.symm, fun _ => ⟨hkey, by rw [hstatus], horder⟩⟩
  · have hgone : lastsUntil time later (src.gtk i) = none := by simp [lastsUntil, hset]
    rw [hgone] at hkey
    exact ⟨hkey.trans (by simpa using hset), fun h => absurd h hset⟩

/-- What `nw_info` is read into. -/
theorem nwInfoFileRead_gtks (s : Node) :
    s.nwInfoFileRead.gtks =
      match s.nwInfoFile with
      | none => s.gtks
      | some file =>
          if file.eui64 = s.eui64 then gtksRecall file.time s.currentTime file.gtks s.gtks
          else gtksInit := by
  unfold Node.nwInfoFileRead
  cases s.nwInfoFile with
  | none => rfl
  | some file =>
      have hread := ((nwInfoRead_finishes file.time s.currentTime file.info s.keyPanId
        s.networkName (some s.gtks)).reads file.buffer).1
      dsimp only
      rw [NwInfoFile.tlv, tlvRead_tlvCreate]
      dsimp only
      rw [hread]
      rfl

theorem nwInfoFileRead_frame (s : Node) :
    s.nwInfoFileRead.keys = s.keys ∧ s.nwInfoFileRead.nwInfoFile = s.nwInfoFile ∧
      s.nwInfoFileRead.keysFile = s.keysFile ∧ s.nwInfoFileRead.supp = s.supp := by
  unfold Node.nwInfoFileRead
  split
  · exact ⟨rfl, rfl, rfl, rfl⟩
  · split <;> exact ⟨rfl, rfl, rfl, rfl⟩

/-- What is read of the pairwise keys: nothing that was not written, and everything if there is a
PMK or no PTK. -/
theorem keysRead_keys (k : Keys) (data : Store) {k' : Keys}
    (hk' : (runReader (keysRead keysInit) (write (keysActs k) 0 data)).1 = k') :
    k'.ptkEui64 = k.ptkEui64 ∧ k'.pmk = k.pmk ∧ (k.ptk = none → k'.ptk = none) ∧
      (k.pmk ≠ none → k'.ptk = k.ptk) := by
  cases hpmk : k.pmk with
  | none =>
      obtain ⟨heui64, hnone, hptk⟩ := keysRead_without hpmk data hk'
      exact ⟨heui64, hnone, hptk, fun h => absurd rfl h⟩
  | some pmk =>
      obtain ⟨k'', hrestored, hfinishes⟩ := keysRead_finishes hpmk
      obtain rfl : k'' = k' := (hfinishes.reads data).1.symm.trans hk'
      obtain ⟨heui64, hpmk', -, -, -, hptk, -⟩ := hrestored
      exact ⟨heui64, hpmk'.trans hpmk, hptk.trans, fun _ => hptk⟩

/-- The supplicant as it is initialised. -/
theorem suppInit_spec (h : s.supp = false) :
    s.suppInit.gtks = gtksInit ∧ s.suppInit.nwInfoFile = s.nwInfoFile ∧
      s.suppInit.keysFile = s.keysFile ∧ s.suppInit.eui64 = s.eui64 ∧
      s.suppInit.currentTime = s.currentTime ∧
      s.suppInit.keys.ptkEui64 = s.storedKeys.ptkEui64 ∧ s.suppInit.keys.pmk = s.storedKeys.pmk ∧
      (s.storedKeys.ptk = none → s.suppInit.keys.ptk = none) ∧
      (s.storedKeys.pmk ≠ none → s.suppInit.keys.ptk = s.storedKeys.ptk) := by
  unfold Node.suppInit Node.keysFileRead Node.storedKeys
  rw [if_neg (by simp [h])]
  dsimp only
  cases s.keysFile with
  | none => exact ⟨rfl, rfl, rfl, rfl, rfl, rfl, rfl, fun _ => rfl, fun _ => rfl⟩
  | some file =>
      dsimp only
      rw [KeysFile.tlv, tlvRead_tlvCreate]
      obtain ⟨heui64, hpmk, hnone, hptk⟩ := keysRead_keys file.keys file.buffer rfl
      exact ⟨rfl, rfl, rfl, rfl, rfl, heui64, hpmk, hnone, hptk⟩

end Read

/-! ## The node starts -/

/-- What the start makes of the table that was read. -/
theorem same_controllerSuppInit (s : Node) :
    Gtks.Same s.suppInit.nwInfoFileRead.gtks s.controllerSuppInit.gtks :=
  Gtks.same_gtkStatusActiveToFreshSet _

theorem controllerSuppInit_frame (s : Node) :
    s.controllerSuppInit.keys = s.suppInit.keys ∧
      s.controllerSuppInit.nwInfoFile = s.suppInit.nwInfoFile ∧
      s.controllerSuppInit.keysFile = s.suppInit.keysFile := by
  obtain ⟨hkeys, hinfo, hfile, -⟩ := nwInfoFileRead_frame s.suppInit
  exact ⟨hkeys, hinfo, hfile⟩

theorem recall_set {time later : UInt64} {k : GtkKey} {lifetime : UInt32}
    (h : lastsUntil time later k = some lifetime) : k.set = true := by
  unfold lastsUntil at h
  split at h
  · assumption
  · cases h

/-- A node that starts has no GTK that is not stored. -/
theorem suppInit_gtks {s : Node} (h : s.supp = false) {i : Fin 4}
    (hset : (s.controllerSuppInit.gtks.gtk i).set = true) :
    (s.storedGtks.gtk i).set = true ∧
      (s.controllerSuppInit.gtks.gtk i).key = (s.storedGtks.gtk i).key := by
  obtain ⟨hgtks, hinfo, -⟩ := suppInit_spec h
  obtain ⟨hpresent, hvalue⟩ := same_controllerSuppInit s i
  have hset' := hpresent.symm.trans hset
  rw [(hvalue hset').1]
  clear hpresent hvalue
  rw [nwInfoFileRead_gtks, hinfo, hgtks] at hset' ⊢
  unfold Node.storedGtks
  cases hfile : s.nwInfoFile with
  | none =>
      rw [hfile] at hset'
      cases hset'
  | some file =>
      rw [hfile] at hset'
      dsimp only at hset' ⊢
      split at hset'
      · rename_i hown
        rw [if_pos hown]
        have hkey := gtksRecall_key file.time s.suppInit.currentTime file.gtks gtksInit rfl i
        cases hrecall : lastsUntil file.time s.suppInit.currentTime (file.gtks.gtk i) with
        | none =>
            rw [hrecall, hset'] at hkey
            cases hkey
        | some lifetime =>
            rw [hrecall] at hkey
            exact ⟨recall_set hrecall, hkey.2.1⟩
      · cases hset'

/-- **What is stored is all that comes back** when power has gone. -/
theorem Stored.nothingBack {s : Node} (h : Stored s) (eui64 : BitVec 64) (time : UInt64) :
    NothingBack s (s.restart eui64 time) := by
  set p : Node := { s.powerUp eui64 with currentTime := time }
  have hsupp : p.supp = false := rfl
  obtain ⟨-, -, -, -, -, heui64, hpmk, hnone, hptk⟩ := suppInit_spec hsupp
  have hkeys : (s.restart eui64 time).keys = p.suppInit.keys := (controllerSuppInit_frame p).1
  have hstored : p.storedKeys = s.storedKeys := rfl
  rw [hstored] at heui64 hpmk hnone hptk
  obtain ⟨hsame, hsame', hsame''⟩ := h.keys
  constructor
  · intro i hset
    obtain ⟨hstored, hkey⟩ := suppInit_gtks hsupp hset
    obtain ⟨hpresent, hvalue⟩ := h.gtks i
    exact ⟨hpresent.trans hstored, hkey.trans (hvalue hstored).1.symm⟩
  · intro eui hmem
    rw [hkeys, heui64] at hmem
    exact hsame.trans hmem
  · intro pmk hmem
    rw [hkeys, hpmk] at hmem
    exact hsame'.trans hmem
  · intro ptk hmem
    rw [hkeys] at hmem
    constructor
    · intro habsent
      rw [hnone (hsame''.symm.trans habsent)] at hmem
      cases hmem
    · intro hpresent
      rw [hptk (hsame' ▸ hpresent)] at hmem
      exact hsame''.trans hmem

/-! ## Steps that lose no flag -/

/-- There is a pairwise key, or something that belongs to one, to delete. -/
def Held (k : Keys) : Prop :=
  k.updated = true ∨ (k.pmkKeyReplayCnt ≠ 0 ∨ k.pmkKeyReplayCntSet = true ∨ k.pmkLifetime ≠ 0 ∨
    k.pmk ≠ none) ∨ (k.ptkLifetime ≠ 0 ∨ k.ptk ≠ none) ∨ k.ptkEui64 ≠ none

instance (k : Keys) : Decidable (Held k) :=
  inferInstanceAs (Decidable (_ ∨ (_ ∨ _ ∨ _ ∨ _) ∨ (_ ∨ _) ∨ _))

theorem held_iff (k : Keys) :
    k.pmkDelete.ptkDelete.ptkEui64Delete.updated = true ↔ Held k := by
  simp [Held, Keys.pmkDelete, Keys.ptkDelete, Keys.ptkEui64Delete, Option.isSome_iff_ne_none,
    or_assoc]

/-- The table into which a supplicant that is initialised reads. -/
def Node.table (s : Node) : Gtks := if s.supp then s.gtks else gtksInit

/-- What is read back is what is stored, and nothing else is in RAM. -/
def SafeInit (s : Node) : Prop :=
  (∀ file ∈ s.nwInfoFile, file.eui64 = s.eui64 ∨ Empty file.gtks) ∧
    (if s.table.gtkCount = 0 then
      ∀ file ∈ s.nwInfoFile, Readable file.time s.currentTime file.gtks
    else Gtks.Same s.storedGtks s.table) ∧
    (s.supp = false → s.storedKeys.pmk ≠ none ∨ s.storedKeys.ptk = none)

/-- Where a function takes the GTKs away without the flag, none is stored; where one takes the
flag down, RAM and NVM are alike. -/
def Safe (s : Node) : Act → Prop
  | .nwInfoSet panId name =>
      s.supp = true → s.moves panId name = true → Held s.keys ∨ Empty s.storedGtks
  | .authenticate =>
      if s.gtksSet then s.gtks.updated = true → Gtks.Same s.storedGtks s.gtks
      else s.supp = true → s.nwKeysUsedCnt = 0 → ¬s.KeysThere s.targetPanId s.networkName →
        Empty s.storedGtks
  | .suppInit => SafeInit s
  | _ => True

instance (s : Node) : Decidable (SafeInit s) := inferInstanceAs (Decidable (_ ∧ ite _ _ _ ∧ _))

instance (s : Node) : ∀ a, Decidable (Safe s a)
  | .nwInfoSet panId name =>
      inferInstanceAs (Decidable (s.supp = true → s.moves panId name = true → _ ∨ _))
  | .authenticate => inferInstanceAs (Decidable (ite _ _ _))
  | .suppInit => inferInstanceAs (Decidable (SafeInit s))
  | .gtk _ | .keys _ | .setTarget _ | .gtkUpdate _ _ | .nwKeyValid | .nvmUpdate | .slowTimer _
  | .currentTimeSet _ | .stop | .powerUp _ => isTrue trivial

section Steps

variable {s : Node}

/-- Nothing but what is not stored has changed. -/
theorem Mirrored.same (h : Mirrored s) {s' : Node} (hinfo : s'.nwInfoFile = s.nwInfoFile)
    (hfile : s'.keysFile = s.keysFile) (hgtks : s'.gtks = s.gtks) (hkeys : s'.keys = s.keys) :
    Mirrored s' := by
  refine h.flagged hinfo hfile ?_ ?_
  · rw [hgtks]
    exact .refl _
  · rw [hkeys]
    exact .refl _

theorem keysFlagged_delete (k : Keys) : KeysFlagged k k.pmkDelete.ptkDelete.ptkEui64Delete :=
  ((keysFlagged_pmkDelete k).trans (keysFlagged_ptkDelete _)).trans (keysFlagged_ptkEui64Delete _)

/-- Another network: with a pairwise key to delete the empty table is written. -/
theorem mirrored_nwInfoSet (h : Mirrored s) {panId : UInt16} {name : Option Name}
    (hsafe : s.supp = true → s.moves panId name = true → Held s.keys ∨ Empty s.storedGtks) :
    Mirrored (s.nwInfoSet panId name) := by
  unfold Node.nwInfoSet Node.suppNwInfoSet
  dsimp only
  split
  · rename_i hmoves
    obtain ⟨hsupp, hmoves⟩ := Bool.and_eq_true_iff.mp hmoves
    have hkeys : KeysFlagged s.keys s.keys.pmkDelete.ptkDelete.ptkEui64Delete :=
      keysFlagged_delete s.keys
    split
    · refine Stored.holds ⟨nvmUpdate_gtks (.inl ?_), nvmUpdate_keys fun hdown => ?_⟩
      · simp [hmoves]
      · obtain ⟨hdown, hsame⟩ := hkeys hdown
        exact (h.keys_same hdown).trans hsame
    · rename_i hdown
      have hdown : s.keys.pmkDelete.ptkDelete.ptkEui64Delete.updated = false := by
        by_contra hup
        exact hdown (by simp [hup])
      rcases hsafe hsupp hmoves with hheld | hempty
      · rw [← held_iff, hdown] at hheld
        cases hheld
      · refine Stored.holds ⟨hempty.same, ?_⟩
        obtain ⟨hdown, hsame⟩ := hkeys hdown
        exact (h.keys_same hdown).trans hsame
  · exact h.same rfl rfl rfl rfl

theorem mirrored_keysForget {s : Node} (h : Mirrored s) (hempty : Gtks.Same s.storedGtks gtksInit)
    (panId : UInt16) (name : Name) : Mirrored (s.keysForget panId name) := by
  refine ⟨fun hdiffer => absurd hempty hdiffer, ?_⟩
  have hkeys : KeysFlagged s.keys (s.keysForget panId name).keys := by
    unfold Node.keysForget
    dsimp only
    split
    · exact keysFlagged_delete s.keys
    · exact .refl _
  intro hdiffer
  by_contra hup
  obtain ⟨hdown, hsame⟩ := hkeys (by simpa using hup)
  exact hdiffer ((h.keys_same hdown).trans hsame)

theorem mirrored_suppAuthenticate (h : Mirrored s) {panId : UInt16} {name : Name}
    (hsafe : s.nwKeysUsedCnt = 0 → ¬s.KeysThere panId name → Empty s.storedGtks) :
    Mirrored (s.suppAuthenticate panId name) := by
  unfold Node.suppAuthenticate Node.nwKeysValidCheck
  dsimp only
  split
  · rw [if_neg Bool.false_ne_true]
    -- the empty table is stored before it is made once more
    set t : Node := { s with gtks := { gtksInit with updated := true } } with ht
    have hstored : Gtks.Same t.nvmUpdate.storedGtks t.nvmUpdate.gtks :=
      nvmUpdate_gtks (.inr fun hdown => by cases hdown)
    have hkeys : KeysSame t.nvmUpdate.storedKeys t.nvmUpdate.keys := nvmUpdate_keys h.keys_same
    have hmirrored : Mirrored { t.nvmUpdate with nwKeysUsedCnt := 0 } :=
      (Stored.holds ⟨hstored, hkeys⟩).same rfl rfl rfl rfl
    exact mirrored_keysForget hmirrored (hstored.trans (nvmUpdate_gtks_same t).symm) panId name
  · rename_i hcnt
    have hzero : s.nwKeysUsedCnt = 0 := by
      have hlt := UInt8.not_le.mp hcnt
      rw [UInt8.lt_iff_toNat_lt] at hlt
      exact UInt8.toNat_inj.mp (by simpa using hlt)
    split
    · exact h.same rfl rfl rfl rfl
    · rename_i hnot
      rw [if_neg Bool.false_ne_true]
      have hmirrored : Mirrored { s with nwKeysUsedCnt := 0 } := h.same rfl rfl rfl rfl
      exact mirrored_keysForget hmirrored (hsafe hzero hnot).same panId name

theorem mirrored_authenticate (h : Mirrored s) (hsafe : Safe s .authenticate) :
    Mirrored s.authenticate := by
  change if s.gtksSet then _ else _ at hsafe
  unfold Node.authenticate
  split at hsafe
  · rename_i hset
    rw [if_pos hset]
    split
    · rename_i hup
      exact ⟨fun hdiffer => absurd (hsafe hup) hdiffer, h.keys⟩
    · exact h
  · rename_i hset
    rw [if_neg hset]
    split
    · rename_i hsupp
      exact mirrored_suppAuthenticate h (hsafe hsupp)
    · exact h

/-- Test keys are set through the functions that flag it. -/
theorem gtkUpdate_spec (gtk : Fin 4 → BitVec 128) (expireOffset : UInt32) (s : Node) :
    Gtks.Flagged s.gtks (s.gtkUpdate gtk expireOffset).gtks ∧
      (s.gtkUpdate gtk expireOffset).keys = s.keys ∧
      (s.gtkUpdate gtk expireOffset).nwInfoFile = s.nwInfoFile ∧
      (s.gtkUpdate gtk expireOffset).keysFile = s.keysFile ∧
      (s.gtkUpdate gtk expireOffset).supp = s.supp := by
  have hloop : ∀ (is : List (Fin 4)) (s : Node),
      Gtks.Flagged s.gtks (is.foldl (Node.testKeySet gtk expireOffset) s).gtks ∧
        (is.foldl (Node.testKeySet gtk expireOffset) s).keys = s.keys ∧
        (is.foldl (Node.testKeySet gtk expireOffset) s).nwInfoFile = s.nwInfoFile ∧
        (is.foldl (Node.testKeySet gtk expireOffset) s).keysFile = s.keysFile ∧
        (is.foldl (Node.testKeySet gtk expireOffset) s).supp = s.supp := by
    intro is
    induction is with
    | nil => exact fun s => ⟨.refl _, rfl, rfl, rfl, rfl⟩
    | cons i is ih =>
        intro s
        obtain ⟨hgtks, hkeys, hinfo, hfile, hsupp⟩ := ih (s.testKeySet gtk expireOffset i)
        rw [List.foldl_cons, hkeys, hinfo, hfile, hsupp]
        unfold Node.testKeySet at hgtks ⊢
        cases hset : s.gtks.gtkSet i (gtk i) (s.gtks.lastLifetime + expireOffset) with
        | none =>
            simp only [hset] at hgtks
            exact ⟨hgtks, rfl, rfl, rfl, rfl⟩
        | some t =>
            simp only [hset] at hgtks
            exact ⟨(Gtks.flagged_gtkSet hset).trans hgtks, rfl, rfl, rfl, rfl⟩
  obtain ⟨hgtks, hkeys, hinfo, hfile, hsupp⟩ := hloop (List.finRange 4) s
  unfold Node.gtkUpdate
  dsimp only
  split
  · exact ⟨hgtks, hkeys, hinfo, hfile, hsupp⟩
  · rename_i i _
    refine ⟨hgtks.trans ?_, hkeys, hinfo, hfile, hsupp⟩
    dsimp only
    cases hset : Gtks.gtkStatusActiveSet _ i with
    | none => exact .refl _
    | some t => exact Gtks.flagged_gtkStatusActiveSet hset

theorem flagged_slowTimer (seconds : UInt16) (s : Node) :
    Gtks.Flagged s.gtks (s.slowTimer seconds).gtks := by
  unfold Node.slowTimer
  dsimp only
  split
  · refine Gtks.Flagged.foldl (fun t i => ?_) _ s.gtks
    split
    · exact Gtks.flagged_gtkLifetimeDecrement t i s.currentTime seconds false
    · exact .refl t
  · exact .refl _

theorem empty_of_gtkCount {t : Gtks} (h : t.gtkCount = 0) : Empty t := by
  intro i
  have hnot := List.countP_eq_zero.mp h i (List.mem_finRange i)
  simpa using hnot

theorem mirrored_suppInit (h : s.supp = true → Mirrored s) (hsafe : SafeInit s) :
    Mirrored s.controllerSuppInit := by
  obtain ⟨hown, hread, hkeys⟩ := hsafe
  obtain ⟨hframe, hinfo, hfile⟩ := controllerSuppInit_frame s
  have hinit : s.suppInit.gtks = s.table ∧ s.suppInit.nwInfoFile = s.nwInfoFile ∧
      s.suppInit.keysFile = s.keysFile ∧ s.suppInit.eui64 = s.eui64 ∧
      s.suppInit.currentTime = s.currentTime := by
    cases hsupp : s.supp with
    | false =>
        obtain ⟨hgtks, hinfo, hfile, heui64, htime, -⟩ := suppInit_spec hsupp
        exact ⟨by rw [hgtks, Node.table, hsupp]; rfl, hinfo, hfile, heui64, htime⟩
    | true => simp [Node.suppInit, Node.table, hsupp]
  obtain ⟨htable, hinfo', hfile', heui64, htime⟩ := hinit
  have hstored : s.controllerSuppInit.storedGtks = s.storedGtks := by
    rw [Node.storedGtks, hinfo, hinfo']
    rfl
  have hstored' : s.controllerSuppInit.storedKeys = s.storedKeys := by
    rw [Node.storedKeys, hfile, hfile']
    rfl
  have hsame : Gtks.Same s.storedGtks s.suppInit.nwInfoFileRead.gtks := by
    rw [nwInfoFileRead_gtks, hinfo', htable, heui64, htime]
    unfold Node.storedGtks at hread ⊢
    cases hnw : s.nwInfoFile with
    | none =>
        rw [hnw] at hread
        split at hread
        · rename_i hcount
          exact (empty_of_gtkCount hcount).same.symm
        · exact hread
    | some file =>
        rw [hnw] at hread
        dsimp only at hread ⊢
        split
        · split at hread
          · rename_i hcount
            exact same_gtksRecall hcount (hread file rfl)
          · rename_i hcount
            rw [gtksRecall, if_neg hcount]
            exact hread
        · rename_i hother
          exact ((hown file hnw).resolve_left hother).same
  refine ⟨fun hdiffer => absurd ?_ hdiffer, ?_⟩
  · rw [hstored]
    exact hsame.trans (same_controllerSuppInit s)
  · rw [hstored', hframe]
    cases hsupp : s.supp with
    | true =>
        have hsame : s.suppInit = s := by simp [Node.suppInit, hsupp]
        rw [hsame]
        exact (h hsupp).keys
    | false =>
        obtain ⟨-, -, -, -, -, heui64, hpmk, hnone, hptk⟩ := suppInit_spec hsupp
        refine fun hdiffer => absurd ⟨heui64, hpmk, ?_⟩ hdiffer
        rcases hkeys hsupp with hpresent | habsent
        · exact hptk hpresent
        · rw [hnone habsent, habsent]

/-- **A step** that loses no flag keeps RAM and NVM alike. -/
theorem mirrored_step {hash : BitVec 128 → BitVec 64} {a : Act} {s' : Node}
    (h : s.supp = true → Mirrored s) (hsafe : Safe s a) (hstep : step hash s a = some s') :
    s'.supp = true → Mirrored s' := by
  intro hsupp
  cases a with
  | gtk op =>
      obtain rfl := Option.some.inj hstep
      exact (h hsupp).flagged rfl rfl (flagged_perform hash s.gtks op) (.refl _)
  | keys op =>
      obtain rfl := Option.some.inj hstep
      exact (h hsupp).flagged rfl rfl (.refl _) (keysFlagged_perform s.keys op)
  | nwInfoSet panId name =>
      obtain rfl := Option.some.inj hstep
      rw [nwInfoSet_supp] at hsupp
      exact mirrored_nwInfoSet (h hsupp) hsafe
  | setTarget panId =>
      obtain rfl := Option.some.inj hstep
      exact (h hsupp).same rfl rfl rfl rfl
  | authenticate =>
      obtain rfl := Option.some.inj hstep
      rw [authenticate_supp] at hsupp
      exact mirrored_authenticate (h hsupp) hsafe
  | gtkUpdate gtk expireOffset =>
      obtain rfl := Option.some.inj hstep
      obtain ⟨hgtks, hkeys, hinfo, hfile, hsame⟩ := gtkUpdate_spec gtk expireOffset s
      refine (h (hsame ▸ hsupp)).flagged hinfo hfile hgtks ?_
      rw [hkeys]
      exact .refl _
  | nwKeyValid =>
      obtain rfl := Option.some.inj hstep
      unfold Node.nwKeyValid at hsupp ⊢
      split
      · rename_i hthere
        have hmirrored : Mirrored { s with nwKeysUsedCnt := 0 } := (h hthere).same rfl rfl rfl rfl
        exact hmirrored.nvmUpdate.holds
      · rename_i hthere
        rw [if_neg hthere] at hsupp
        exact h hsupp
  | nvmUpdate =>
      obtain rfl := Option.some.inj hstep
      split
      · rename_i hthere
        exact (h hthere).nvmUpdate.holds
      · rename_i hthere
        rw [if_neg hthere] at hsupp
        exact h hsupp
  | slowTimer seconds =>
      obtain rfl := Option.some.inj hstep
      exact (h hsupp).flagged rfl rfl (flagged_slowTimer seconds s) (.refl _)
  | currentTimeSet time =>
      obtain rfl := Option.some.inj hstep
      exact (h hsupp).same rfl rfl rfl rfl
  | stop =>
      obtain rfl := Option.some.inj hstep
      cases hsupp
  | powerUp eui64 =>
      obtain rfl := Option.some.inj hstep
      cases hsupp
  | suppInit =>
      obtain rfl := Option.some.inj hstep
      exact mirrored_suppInit h hsafe

end Steps

/-! ## Runs -/

theorem NothingBack.of_same {s t s' : Node} (h : NothingBack t s') (hgtks : Gtks.Same s.gtks t.gtks)
    (hkeys : KeysSame s.keys t.keys) : NothingBack s s' := by
  obtain ⟨heui64, hpmk, hptk⟩ := hkeys
  constructor
  · intro i hset
    obtain ⟨hset', hkey⟩ := h.gtks i hset
    have hset := (hgtks i).1.symm.trans hset'
    exact ⟨hset, hkey.trans ((hgtks i).2 hset).1⟩
  · rw [← heui64]
    exact h.ptkEui64
  · rw [← hpmk]
    exact h.pmk
  · rw [← hptk, ← hpmk]
    exact h.ptk

theorem Mirrored.kept {s : Node} (h : Mirrored s) : Kept s := by
  have hgtks := nvmUpdate_gtks_same s
  have hkeys := (nvmUpdate_spec s).2.2.1
  exact ⟨h, h.nvmUpdate, hgtks, hkeys, fun eui64 time =>
    (h.nvmUpdate.nothingBack eui64 time).of_same hgtks hkeys⟩

/-- **Changes of keys reach NVM** in every run whose steps lose no flag. -/
theorem mirrored {hash : BitVec 128 → BitVec 64} {acts : List Act} {s : Node}
    (hmeets : Runs.Meets (step hash) Safe factory acts)
    (hrun : Runs.run (step hash) factory acts = some s) (hsupp : s.supp = true) : Kept s := by
  have hinv : s.supp = true → Mirrored s :=
    Runs.run_invariant (fun s => s.supp = true → Mirrored s)
      (fun s a s' h hsafe hstep => mirrored_step h hsafe hstep) (fun h => by cases h) hmeets hrun
  exact (hinv hsupp).kept

/-- A node joins, stores two GTKs, learns that the first is not used any more, and discovery starts
again before the next update. -/
def revoking : List Act :=
  [.suppInit, .keys (.pmkWrite 1 1000000), .keys (.ptkWrite 2 1000000), .keys (.ptkEui64Write 3),
    .gtk (.set 0 10 86400), .gtk (.set 1 11 86400), .nwKeyValid,
    .gtk (.hashUpdate fun i => if i = 1 then 0xa12449102153296c else 0), .suppInit]

/-- The hash of the second of them. -/
def hashOfSecond (_ : BitVec 128) : BitVec 64 := 0xa12449102153296c

/-- **Discovery that starts again** takes the flag down: the GTK that was revoked is not in RAM any
more, but in NVM. -/
theorem rediscovery_forgets :
    ¬∀ (hash : BitVec 128 → BitVec 64) (acts : List Act) (s : Node),
      Runs.run (step hash) factory acts = some s → s.supp = true → Kept s := by
  intro hall
  have hrun : (Runs.run (step hashOfSecond) factory revoking).map (fun s =>
      (s.supp, s.gtks.updated, (s.gtks.gtk 0).set, (s.storedGtks.gtk 0).set)) =
      some (true, false, false, true) := by decide +kernel
  obtain ⟨s, hs, hvalues⟩ := Option.map_eq_some_iff.mp hrun
  obtain ⟨hsupp, hdown, hram, hnvm⟩ : s.supp = true ∧ s.gtks.updated = false ∧
      (s.gtks.gtk 0).set = false ∧ (s.storedGtks.gtk 0).set = true := by simpa using hvalues
  have hup := (hall hashOfSecond revoking s hs hsupp).mirrored.gtks fun hsame => by
    have hset := (hsame 0).1
    rw [hram, hnvm] at hset
    cases hset
  rw [hdown] at hup
  cases hup

/-- The same node, with an update before discovery starts again, and then without power for a
while. -/
def updating : List Act :=
  [.suppInit, .keys (.pmkWrite 1 1000000), .keys (.ptkWrite 2 1000000), .keys (.ptkEui64Write 3),
    .gtk (.set 0 10 86400), .gtk (.set 1 11 86400), .nwKeyValid,
    .gtk (.hashUpdate fun i => if i = 1 then 0xa12449102153296c else 0), .nwKeyValid, .suppInit,
    .powerUp 0, .currentTimeSet 60, .suppInit]

theorem mirrored_updating :
    ∃ s, Runs.run (step hashOfSecond) factory updating = some s ∧ Kept s := by
  have hrun : (Runs.run (step hashOfSecond) factory updating).map (fun s => s.supp) = some true := by
    decide +kernel
  obtain ⟨s, hs, hsupp⟩ := Option.map_eq_some_iff.mp hrun
  exact ⟨s, hs, mirrored (by decide +kernel) hs hsupp⟩

end NvmMirror
