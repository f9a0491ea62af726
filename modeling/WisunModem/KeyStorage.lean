import WisunModem.AuthHandshakes
import WisunModem.Runs

/-!
# The key storage of the authenticator

The authenticator keeps the keys of the nodes it talks to in RAM and copies them into storage
arrays (`ws_pae_key_storage.c`), each of which is written to a file of its own.  Of the 64-bit
replay counter an entry has the lower 16 bits; the upper 32 bits are the number of restarts
since the reference of the array.  The number of restarts itself is kept in the file of the
frame counters (`ws_pae_controller.c`).

The state carries a log, oldest entry first, of the EAPOL-Key messages that were sent and of the
PMK each was sent under.
-/

namespace Pae

/-! ## Entries -/

/-- `sec_prot_keys_storage_t`, of an entry with `eui_64_set`. -/
structure KeyStorage where
  ptkEui64 : Eui64
  pmkKeyReplayCnt : BitVec 16
  pmkKeyReplayCntSet : Bool
  pmk : Option Pmk
  ptk : Ptk
  ptkSet : Bool
  ptkEui64Set : Bool
  deriving DecidableEq, Repr

namespace KeyStorage

/-- What a free entry holds besides the address. -/
def zero (eui64 : Eui64) : KeyStorage :=
  { ptkEui64 := eui64, pmkKeyReplayCnt := 0, pmkKeyReplayCntSet := false, pmk := none,
    ptk := .zero, ptkSet := false, ptkEui64Set := false }

/-- The entry as `ws_pae_key_storage_supp_write` leaves it. -/
def write (e : KeyStorage) (keys : SecKeys) : KeyStorage :=
  { e with
    pmkKeyReplayCnt :=
      if e.pmkKeyReplayCntSet != keys.pmkKeyReplayCntSet ||
          e.pmkKeyReplayCnt.toNat != keys.pmkKeyReplayCnt then
        BitVec.ofNat 16 keys.pmkKeyReplayCnt
      else e.pmkKeyReplayCnt
    pmkKeyReplayCntSet := keys.pmkKeyReplayCntSet
    pmk := keys.pmk
    ptk := keys.ptk
    ptkSet := keys.ptkSet
    ptkEui64Set := keys.ptkEui64.isSome }

/-- Whether that marks the array as modified: the counter does not. -/
def modifiedBy (e : KeyStorage) (keys : SecKeys) : Bool :=
  e.pmk != keys.pmk || e.ptk != keys.ptk || e.ptkSet != keys.ptkSet ||
    e.ptkEui64Set != keys.ptkEui64.isSome

/-- `ws_pae_key_storage_array_ptk_invalid`. -/
def ptkInvalid (e : KeyStorage) : KeyStorage :=
  { e with ptk := .zero, ptkSet := false, ptkEui64Set := false }

/-- One turn of `ws_pae_key_storage_array_counters_check_and_update_all`. -/
def countersCheckAndUpdate (e : KeyStorage) : Option KeyStorage :=
  if !e.pmkKeyReplayCntSet then some e
  else if 60000 ≤ e.pmkKeyReplayCnt.toNat then none
  else some { e with pmkKeyReplayCnt := 0 }

end KeyStorage

/-- The lifetimes as `ws_pae_key_storage_supp_read` works them out; `none` is expired. -/
structure Lifetimes where
  pmk : Option Nat
  ptk : Option Nat

/-- The keys that `ws_pae_key_storage_supp_read` gets from an entry. -/
def KeyStorage.read (e : KeyStorage) (restartCnt referenceRestartCnt : Nat)
    (lifetimes : Lifetimes) : SecKeys :=
  match lifetimes.pmk with
  | none => keysInit
  | some pmkLifetime =>
      let diff :=
        if referenceRestartCnt ≤ restartCnt then restartCnt - referenceRestartCnt else restartCnt
      let keys := { keysInit with
        pmkKeyReplayCnt :=
          if e.pmkKeyReplayCntSet then e.pmkKeyReplayCnt.toNat + diff * 2 ^ 32 else 0
        pmkKeyReplayCntSet := e.pmkKeyReplayCntSet
        pmk := e.pmk
        pmkLifetime := pmkLifetime }
      match lifetimes.ptk with
      | none => keys
      | some ptkLifetime =>
          { keys with
            ptk := e.ptk
            ptkSet := e.ptkSet
            ptkEui64 := if e.ptkEui64Set then some e.ptkEui64 else none
            ptkLifetime := ptkLifetime }

/-! ## Arrays -/

/-- `key_storage_array_t`; `reserved` says that the array belongs to the authenticator. -/
structure StorageArray where
  referenceRestartCnt : Nat
  entries : List (Option KeyStorage)
  reserved : Bool
  modified : Bool
  pendingStoring : Bool
  deriving DecidableEq

/-- What of an array is in a file. -/
structure StorageFile where
  referenceRestartCnt : Nat
  entries : List (Option KeyStorage)
  deriving DecidableEq

/-- `ws_pae_key_storage_clear`. -/
def StorageArray.clear (restartCnt : Nat) (a : StorageArray) : StorageArray :=
  { a with
    referenceRestartCnt := restartCnt
    entries := a.entries.map fun _ => none }

/-- `ws_pae_key_storage_allocate`. -/
def storageAllocate (restartCnt entries : Nat) (reserved : Bool) : StorageArray :=
  { referenceRestartCnt := restartCnt, entries := List.replicate entries none,
    reserved := reserved, modified := false, pendingStoring := false }

/-- The place of an entry: of its array in the list, and in the array. -/
abbrev Slot := Nat × Nat

/-- The first entry that fits. -/
def slotOf (p : Option KeyStorage → Bool) : List StorageArray → Option Slot
  | [] => none
  | a :: as =>
      match a.entries.findIdx? p with
      | some j => some (0, j)
      | none => (slotOf p as).map fun slot => (slot.1 + 1, slot.2)

/-- The search of `ws_pae_key_storage_get` for an address. -/
def slotFor (eui64 : Eui64) (arrays : List StorageArray) : Option Slot :=
  slotOf (fun e => e.any fun e => decide (e.ptkEui64 = eui64)) arrays

/-- The search of `ws_pae_key_storage_get` for a free entry. -/
def slotFree (arrays : List StorageArray) : Option Slot := slotOf Option.isNone arrays

/-- The search of `ws_pae_key_storage_replace`, from array `i` on. -/
def slotAt (i replaceIndex : Nat) : List StorageArray → Option Slot
  | [] => none
  | a :: as =>
      if !a.reserved then slotAt (i + 1) replaceIndex as
      else if a.entries.length ≤ replaceIndex then
        slotAt (i + 1) (replaceIndex - a.entries.length) as
      else some (i, replaceIndex)

/-- Writing an entry. -/
def setSlot (slot : Slot) (e : Option KeyStorage) (arrays : List StorageArray) :
    List StorageArray :=
  arrays.modify slot.1 fun a => { a with entries := a.entries.set slot.2 e }

/-! ## The authenticator -/

structure AuthCfg where
  sec : SecCfg
  localEui64 : Eui64
  storages : Nat
  entries : Nat

/-- `supp_entry_t`, on the list of active or of waiting supplicants. -/
structure SuppEntry where
  secKeys : SecKeys
  accessRevoked : Bool

/-- RAM: the supplicants, the arrays and `key_storage_params_t`, whose `store_bitfield` has the
bits of the first `storeBitfield` files.  NVM: the index file, the storage files and the restart
count in the file of the frame counters. -/
structure Auth where
  supps : Eui64 → Option SuppEntry
  arrays : List StorageArray
  storagesEmpty : Nat
  replaceIndex : Nat
  storeBitfield : Nat
  restartCnt : Nat
  indexFile : Option Nat
  files : Nat → Option StorageFile
  restartFile : Option Nat
  sent : List (Option Pmk × KeyFrame)

namespace Auth

/-- An authenticator that has not stored anything yet. -/
def init (cfg : AuthCfg) : Auth :=
  { supps := fun _ => none, arrays := [], storagesEmpty := cfg.storages, replaceIndex := 0,
    storeBitfield := 0, restartCnt := 0, indexFile := none, files := fun _ => none,
    restartFile := none, sent := [] }

def setSupp (eui64 : Eui64) (supp : Option SuppEntry) (s : Auth) : Auth :=
  { s with supps := Function.update s.supps eui64 supp }

/-- Changing the keys of a supplicant. -/
def setKeys (eui64 : Eui64) (f : SecKeys → SecKeys) (s : Auth) : Auth :=
  match s.supps eui64 with
  | none => s
  | some supp => s.setSupp eui64 (some { supp with secKeys := f supp.secKeys })

/-- The array is the authenticator's from now on. -/
def reserve (slot : Slot) (s : Auth) : Auth :=
  { s with arrays := s.arrays.modify slot.1 fun a => { a with reserved := true } }

/-! ### Writing to the storage -/

/-- `ws_pae_key_storage_replace`: the place, and the state with the entry wiped. -/
def replace (s : Auth) : Option (Slot × Auth) :=
  match slotAt 0 s.replaceIndex s.arrays with
  | some slot =>
      some (slot, { s with
        arrays := setSlot slot none s.arrays, replaceIndex := s.replaceIndex + 1 })
  | none =>
      match s.arrays with
      | [] => none
      | _ :: _ =>
          some ((0, 0), { s with arrays := setSlot (0, 0) none s.arrays, replaceIndex := 1 })

/-- The place `ws_pae_key_storage_supp_write` writes to: the entry of this address, a free one,
one of a new array or one that is replaced.  `memory` says whether an array can be allocated. -/
def slotToWrite (cfg : AuthCfg) (memory : Bool) (eui64 : Eui64) (keys : SecKeys) (s : Auth) :
    Option (Slot × Auth) :=
  match slotFor eui64 s.arrays with
  | some slot => some (slot, s.reserve slot)
  | none =>
      if keys.pmk.isNone && !keys.ptkSet then none
      else
        match slotFree s.arrays with
        | some slot => some (slot, s.reserve slot)
        | none =>
            let s :=
              if 0 < s.storagesEmpty && memory then
                { s with
                  arrays := s.arrays ++ [storageAllocate s.restartCnt cfg.entries true]
                  storagesEmpty := s.storagesEmpty - 1 }
              else s
            match slotFree s.arrays with
            | some slot => some (slot, s.reserve slot)
            | none => s.replace

/-- What decides a write besides the state: a time before the reference of the array, and GTK
hashes or lifetimes that differ from the ones stored. -/
structure WriteEnv where
  memory : Bool
  timeError : Bool
  otherChanged : Bool

/-- The counter is near its end. -/
def nearLimit (keys : SecKeys) : Bool :=
  keys.pmkKeyReplayCntSet && decide (60000 ≤ keys.pmkKeyReplayCnt % 2 ^ 16)

/-- The keys that are written: a counter near its end takes PMK and PTK away. -/
def keysToWrite (keys : SecKeys) : SecKeys :=
  if nearLimit keys then keys.ptkDelete.pmkDelete else keys

/-- The entry at a place is written. -/
def writeEntry (otherChanged : Bool) (eui64 : Eui64) (keys : SecKeys) (slot : Slot)
    (arrays : List StorageArray) : List StorageArray :=
  arrays.modify slot.1 fun a =>
    let old := (a.entries[slot.2]?).join
    let e := old.getD (.zero eui64)
    { a with
      entries := a.entries.set slot.2 (some (e.write keys))
      modified := a.modified || old.isNone || e.modifiedBy keys || otherChanged }

/-- `ws_pae_key_storage_supp_write`. -/
def suppWrite (cfg : AuthCfg) (env : WriteEnv) (eui64 : Eui64) (s : Auth) : Auth :=
  match s.supps eui64 with
  | none => s
  | some supp =>
      match s.slotToWrite cfg env.memory eui64 supp.secKeys with
      | none => s
      | some (slot, s) =>
          if env.timeError then s
          else
            let keys := keysToWrite supp.secKeys
            { s with
              arrays := writeEntry env.otherChanged eui64 keys slot s.arrays }.setKeys eui64
              fun _ => keys

/-- `ws_pae_key_storage_supp_delete`. -/
def suppDelete (eui64 : Eui64) (s : Auth) : Auth :=
  { s with
    arrays := s.arrays.map fun a =>
      let here (e : Option KeyStorage) : Bool := e.any fun e => decide (e.ptkEui64 = eui64)
      { a with
        entries := a.entries.map fun e => if here e then none else e
        modified := a.modified || a.entries.any here } }

/-! ### Reading from the storage -/

/-- `ws_pae_key_storage_supp_read`. -/
def suppRead (memory : Bool) (lifetimes : Lifetimes) (eui64 : Eui64) (s : Auth) :
    Option SecKeys × Auth :=
  match slotFor eui64 s.arrays with
  | none => (none, s)
  | some slot =>
      match s.arrays[slot.1]? with
      | none => (none, s)
      | some a =>
          match (a.entries[slot.2]?).join with
          | none => (none, s)
          | some e =>
              (if memory then some (e.read s.restartCnt a.referenceRestartCnt lifetimes) else none,
                s.reserve slot)

/-- `ws_pae_auth_kmp_incoming_ind`, as far as it finds or makes the supplicant. -/
def incomingInd (memory : Bool) (lifetimes : Lifetimes) (eui64 : Eui64) (s : Auth) : Auth :=
  match s.supps eui64 with
  | some _ => s
  | none =>
      match s.suppRead memory lifetimes eui64 with
      | (keys, s) =>
          s.setSupp eui64 (some { secKeys := keys.getD keysInit, accessRevoked := false })

/-! ### Files -/

/-- What `ws_pae_key_storage_array_time_check_and_update_all` finds of an array: a time error,
nothing to do, or which entries have lost their PMK and which their PTK. -/
inductive TimeCheck
  | error
  | unchanged
  | updated (pmkExpired ptkExpired : Nat → Bool)

def timeCheck (restartCnt : Nat) (a : StorageArray) : TimeCheck → StorageArray
  | .error => { a.clear restartCnt with modified := true }
  | .unchanged => a
  | .updated pmkExpired ptkExpired =>
      { a with
        entries := a.entries.mapIdx fun j e =>
          if pmkExpired j then none
          else if ptkExpired j then e.map KeyStorage.ptkInvalid
          else e
        modified := true }

/-- `ws_pae_key_storage_store`. -/
def store (checks : Nat → TimeCheck) (s : Auth) : Auth :=
  let arrays := s.arrays.mapIdx fun i a =>
    let a := timeCheck s.restartCnt a (checks i)
    if a.modified then { a with pendingStoring := true, modified := false } else a
  { s with
    arrays := arrays
    storeBitfield := arrays.length
    indexFile := if s.storeBitfield = arrays.length then s.indexFile else some arrays.length }

/-- `ws_pae_key_storage_scatter_timer_timeout`: the first pending array goes to its file. -/
def scatterTimerTimeout (s : Auth) : Auth :=
  match s.arrays.findIdx? (·.pendingStoring) with
  | none => s
  | some i =>
      match s.arrays[i]? with
      | none => s
      | some a =>
          { s with
            arrays := s.arrays.modify i fun a =>
              { a with pendingStoring := false, modified := false }
            files := Function.update s.files i (some ⟨a.referenceRestartCnt, a.entries⟩) }

/-- One file of `ws_pae_key_storage_read`: an array that could not be read is used for the next
file (`spare`).  `timeErrors` are the files with a time before their reference. -/
def readFile (cfg : AuthCfg) (timeErrors : Nat → Bool) (files : Nat → Option StorageFile)
    (restartCnt : Nat) (state : List StorageArray × Option StorageArray × Nat) (i : Nat) :
    List StorageArray × Option StorageArray × Nat :=
  let (arrays, spare, storagesEmpty) := state
  let (current, storagesEmpty) :=
    match spare with
    | some a => (some a, storagesEmpty)
    | none =>
        if 0 < storagesEmpty then
          (some (storageAllocate restartCnt cfg.entries false), storagesEmpty - 1)
        else (none, storagesEmpty)
  match current with
  | none => (arrays, none, storagesEmpty)
  | some a =>
      match files i with
      | none => (arrays, some (a.clear restartCnt), storagesEmpty)
      | some file =>
          let a := { a with
            referenceRestartCnt := file.referenceRestartCnt, entries := file.entries }
          let a := if timeErrors i then a.clear restartCnt else a
          (arrays ++ [{ a with
              entries := a.entries.map fun e => e.bind KeyStorage.countersCheckAndUpdate }],
            none, storagesEmpty)

/-- Power off and on, at any time: what is left are the files.  `keysValid` says that the stored
time could be set, `countersSet` that a frame counter was stored. -/
structure BootEnv where
  keysValid : Bool
  countersSet : Bool
  timeErrors : Nat → Bool

/-- `ws_pae_controller_frame_counter_read`, `ws_pae_key_storage_init`, and then
`ws_pae_key_storage_read` or `ws_pae_key_storage_remove`. -/
def powerCycle (cfg : AuthCfg) (env : BootEnv) (s : Auth) : Auth :=
  let restartCnt := (s.restartFile.map fun n => (n + 1) % 2 ^ 32).getD 0
  let restartFile := if env.countersSet then s.restartFile.map fun _ => restartCnt
    else s.restartFile
  let stored := s.indexFile.getD 0
  let s := { init cfg with
    restartCnt := restartCnt, restartFile := restartFile, files := s.files,
    indexFile := s.indexFile, sent := s.sent }
  if env.keysValid || s.restartFile.isNone then
    match (List.range stored).foldl (readFile cfg env.timeErrors s.files restartCnt)
        ([], none, cfg.storages) with
    | (arrays, spare, storagesEmpty) =>
        { s with
          arrays := arrays ++ spare.toList, storagesEmpty := storagesEmpty,
          storeBitfield := stored }
  else
    { s with
      indexFile := none
      files := fun i => if i < stored then none else s.files i }

/-! ### Handshakes -/

/-- What an instance keeps between two calls. -/
structure Instance (δ : Type) where
  common : SecCommon
  data : δ

/-- How an instance is called. -/
inductive Input
  | receive (pdu : Option KeyFrame)
  | event
  | timeout (ticks : Nat) (expired ended : Bool)

def fwhCall (cfg : AuthCfg) (remote : Eui64) (nonce : Nonce) (gtkl : Nat)
    (c : Call AuthFwhData) : Input → Call AuthFwhData
  | .receive pdu => AuthFwh.receive cfg.sec cfg.localEui64 remote nonce gtkl pdu c
  | .event => AuthFwh.stateMachine cfg.sec cfg.localEui64 remote nonce gtkl none c
  | .timeout ticks expired ended =>
      AuthFwh.timerTimeout cfg.sec cfg.localEui64 remote nonce gtkl ticks expired ended c

def gkhCall (gtkl : Nat) (c : Call Bool) : Input → Call Bool
  | .receive pdu => AuthGkh.receive gtkl pdu c
  | .event => AuthGkh.stateMachine gtkl none c
  | .timeout ticks expired ended => AuthGkh.timerTimeout gtkl ticks expired ended c

/-- An instance of a supplicant runs: its keys are taken over and its messages logged. -/
def ran {δ : Type} (eui64 : Eui64) (call : Call δ → Call δ) (inst : Instance δ) (gtks : Gtks)
    (s : Auth) : Auth :=
  match s.supps eui64 with
  | none => s
  | some supp =>
      let c := call
        { common := inst.common, receiveDisable := false, data := inst.data,
          keys := supp.secKeys, gtks := gtks, outs := [] }
      { s.setSupp eui64 (some { supp with secKeys := c.keys }) with
        sent := s.sent ++ (sentBy c.outs).map fun f => (supp.secKeys.pmk, f) }

/-! ### Steps -/

/-- What can happen to the authenticator.  An instance may be in any state when it is called;
the GTKs, the nonces and the timers are anybody's. -/
inductive Act
  | fwh (eui64 : Eui64) (inst : Instance AuthFwhData) (gtks : Gtks) (nonce : Nonce) (gtkl : Nat)
      (input : Input)
  | gkh (eui64 : Eui64) (inst : Instance Bool) (gtks : Gtks) (gtkl : Nat) (input : Input)
  | incoming (eui64 : Eui64) (memory : Bool) (lifetimes : Lifetimes)
  | gtkInsertIndexSet (eui64 : Eui64) (index : Fin 4)
  | tlsFinished (eui64 : Eui64) (pmk : Pmk)
  | pmkExpired (eui64 : Eui64)
  | ptkExpired (eui64 : Eui64)
  | accessRevoke (eui64 : Eui64)
  | storeTimeout (eui64 : Eui64) (env : WriteEnv)
  | toInactive (eui64 : Eui64) (env : WriteEnv)
  | purge (eui64 : Eui64)
  | store (checks : Nat → TimeCheck)
  | scatterTimerTimeout
  | frameCounterStore
  | powerCycle (env : BootEnv)

/-- `ws_pae_lib_supp_list_to_inactive`. -/
def toInactive (cfg : AuthCfg) (env : WriteEnv) (eui64 : Eui64) (s : Auth) : Auth :=
  match s.supps eui64 with
  | none => s
  | some supp =>
      if supp.accessRevoked then s.setSupp eui64 none
      else (s.suppWrite cfg env eui64).setSupp eui64 none

/-- `ws_pae_auth_node_keys_remove`. -/
def accessRevoke (eui64 : Eui64) (s : Auth) : Auth :=
  suppDelete eui64
    (match s.supps eui64 with
      | none => s
      | some supp =>
          s.setSupp eui64
            (some { secKeys := supp.secKeys.pmkDelete.ptkDelete, accessRevoked := true }))

/-- One step. -/
def step (cfg : AuthCfg) (s : Auth) : Act → Option Auth
  | .fwh eui64 inst gtks nonce gtkl input =>
      some (s.ran eui64 (fun c => fwhCall cfg eui64 nonce gtkl c input) inst gtks)
  | .gkh eui64 inst gtks gtkl input =>
      some (s.ran eui64 (fun c => gkhCall gtkl c input) inst gtks)
  | .incoming eui64 memory lifetimes => some (s.incomingInd memory lifetimes eui64)
  | .gtkInsertIndexSet eui64 index =>
      some (s.setKeys eui64 fun keys => { keys with gtkSetIndex := some index })
  | .tlsFinished eui64 pmk =>
      some (s.setKeys eui64 fun keys => keys.pmkWrite pmk cfg.sec.pmkLifetime)
  | .pmkExpired eui64 => some (s.setKeys eui64 fun keys => keys.ptkDelete.pmkDelete)
  | .ptkExpired eui64 => some (s.setKeys eui64 SecKeys.ptkDelete)
  | .accessRevoke eui64 => some (s.accessRevoke eui64)
  | .storeTimeout eui64 env => some (s.suppWrite cfg env eui64)
  | .toInactive eui64 env => some (s.toInactive cfg env eui64)
  | .purge eui64 => some (s.setSupp eui64 none)
  | .store checks => some (s.store checks)
  | .scatterTimerTimeout => some s.scatterTimerTimeout
  | .frameCounterStore => some { s with restartFile := some s.restartCnt }
  | .powerCycle env => some (s.powerCycle cfg env)

end Auth

end Pae
