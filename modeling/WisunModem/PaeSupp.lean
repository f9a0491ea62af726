import WisunModem.SuppHandshakes
import WisunModem.Runs

/-!
# The supplicant

The instances that `ws_pae_supp_kmp_incoming_ind` makes and finds, the keys they share, and
what the node does to these keys around them: EAP-TLS writes the PMK, a change of network
deletes the pairwise keys, NVM keeps a copy of them and a restart reads it back.  The state
carries a log, newest entry first, of what was done and in answer to which frame.
-/

namespace Pae

/-! ## Instances -/

/-- The protocols that the supplicant is asked for, apart from EAP-TLS. -/
inductive KmpType
  | fwh | gkh
  deriving DecidableEq, Repr

inductive KmpProt
  | fwh (data : FwhData)
  | gkh
  deriving DecidableEq, Repr

def KmpProt.type : KmpProt → KmpType
  | .fwh _ => .fwh
  | .gkh => .gkh

/-- `kmp_api_t`: `id` stands for its address, `eventPending` for its state machine event in the
queue. -/
structure Kmp where
  id : Nat
  receiveDisable : Bool
  eventPending : Bool
  common : SecCommon
  prot : KmpProt
  deriving DecidableEq, Repr

def Kmp.type (k : Kmp) : KmpType := k.prot.type

/-- `ws_pae_lib_kmp_list_type_get`: the first that receives, else the last of its type. -/
def typeGet (kmps : List Kmp) (type : KmpType) : Option Kmp :=
  match kmps.find? fun k => k.type = type ∧ !k.receiveDisable with
  | some k => some k
  | none => (kmps.filter fun k => k.type = type).getLast?

/-! ## Non-volatile memory -/

/-- What `ws_pae_nvm_store_keys_tlv_create` writes. -/
structure KeysTlv where
  ptkEui64 : Option Eui64
  pmk : Option (Nat × Pmk)
  counter : Nat
  ptk : Option (Nat × Ptk)
  deriving DecidableEq, Repr

def keysTlvCreate (keys : SecKeys) : KeysTlv :=
  { ptkEui64 := keys.ptkEui64
    pmk := keys.pmk.map fun pmk => (keys.pmkLifetime, pmk)
    counter := keys.pmkKeyReplayCnt
    ptk := if keys.ptkSet then some (keys.ptkLifetime, keys.ptk) else none }

/-- The counter and the PTK as `ws_pae_nvm_store_keys_tlv_read` finds them.  Without a PMK the
writer leaves its lifetime out and the reader does not: it starts four bytes late.  `stale` is
what it then takes for the lifetime of the PTK. -/
def keysTlvTail (tlv : KeysTlv) (stale : Nat) : Nat × Option (Nat × Ptk) :=
  match tlv.pmk, tlv.ptk with
  | some _, ptk => (tlv.counter, ptk)
  | none, none => (tlv.counter % 2 ^ 32 * 2 ^ 32, none)
  | none, some (lifetime, ptk) =>
      (tlv.counter % 2 ^ 32 * 2 ^ 32 + 2 ^ 24 + lifetime / 2 ^ 8,
        if lifetime % 2 ^ 8 = 1 then some (stale, .shifted ptk) else none)

/-- `ws_pae_nvm_store_keys_tlv_read` into keys that were just initialised. -/
def keysTlvRead (tlv : KeysTlv) (stale : Nat) : SecKeys :=
  let keys := keysInit
  let keys := match tlv.ptkEui64 with
    | none => keys
    | some eui64 => keys.ptkEui64Write eui64
  let keys := match tlv.pmk with
    | none => keys
    | some (lifetime, pmk) => keys.pmkWrite pmk lifetime
  let keys := keys.pmkReplayCntSet (keysTlvTail tlv stale).1
  let keys := match (keysTlvTail tlv stale).2 with
    | none => keys
    | some (lifetime, ptk) => keys.ptkWrite ptk lifetime
  { keys with updated := false }

/-! ## The node -/

/-- One entry of the log: `frame` is the frame that was being handled and `pmk` the PMK held at
that moment. -/
inductive Event
  | did (id : Nat) (deed : Deed) (frame : Option KeyFrame) (pmk : Option Pmk)
  | authOk (id : Nat)
  | pmkChanged
  | nvmWritten
  | restarted
  deriving DecidableEq, Repr

/-- `pae_supp_t`, the network information it points to, and the file of the keys. -/
structure Supp where
  localEui64 : Eui64
  keys : SecKeys
  gtks : Gtks
  networkName : String
  newPanId : Nat
  keyPanId : Nat
  nwKeysUsedCnt : Nat
  kmps : List Kmp
  nextKmp : Nat
  entryAddressActive : Bool
  authRequested : Bool
  newBrEui64 : Eui64
  newBrEui64Fresh : Bool
  nvm : Option KeysTlv
  log : List Event

namespace Supp

/-- `ws_pae_supp_init` of a node that has not stored anything yet. -/
def init (localEui64 : Eui64) : Supp :=
  { localEui64 := localEui64, keys := keysInit, gtks := gtksInit, networkName := "",
    newPanId := 0xffff, keyPanId := 0xffff, nwKeysUsedCnt := 0, kmps := [], nextKmp := 0,
    entryAddressActive := false, authRequested := false, newBrEui64 := 0,
    newBrEui64Fresh := false, nvm := none, log := [] }

/-- `ws_pae_supp_kmp_service_addr_get` for a handshake: the remote address. -/
def addrGet (s : Supp) : Eui64 :=
  if s.newBrEui64Fresh then s.newBrEui64 else s.keys.ptkEui64.getD 0

def note (s : Supp) (e : Event) : Supp := { s with log := e :: s.log }

/-- `ws_pae_supp_authenticate_response` with `AUTH_RESULT_OK`. -/
def authenticateOk (s : Supp) (id : Nat) : Supp :=
  if s.authRequested then { s with authRequested := false }.note (.authOk id) else s

/-- What the callbacks of an instance do to the node. -/
def react (id : Nat) (frame : Option KeyFrame) (pmk : Option Pmk) (s : Supp) : Out → Supp
  | .send _ => s
  | .createInd =>
      { s with
        kmps := s.kmps.map fun k => if k.id = id then { k with eventPending := true } else k }
  | .finishedInd result => if result = .ok then s.authenticateOk id else s
  | .finished => { s with kmps := s.kmps.filter fun k => k.id ≠ id }
  | .did deed => s.note (.did id deed frame pmk)

/-- The state an instance works on. -/
def call {δ : Type} (s : Supp) (k : Kmp) (data : δ) : Call δ :=
  { common := k.common, receiveDisable := k.receiveDisable, data := data, keys := s.keys,
    gtks := s.gtks, outs := [] }

/-- The instance has run: its state and the keys are taken over and its callbacks served. -/
def ran {δ : Type} (s : Supp) (id : Nat) (frame : Option KeyFrame) (prot : δ → KmpProt)
    (c : Call δ) : Supp :=
  c.outs.foldl (react id frame s.keys.pmk)
    { s with
      keys := c.keys
      gtks := c.gtks
      kmps := s.kmps.map fun k =>
        if k.id = id then
          { k with common := c.common, receiveDisable := c.receiveDisable, prot := prot c.data }
        else k }

/-- `ws_pae_supp_kmp_create_and_start`: a started instance stands first in the list. -/
def kmpCreate (cfg : SecCfg) (type : KmpType) (snonce : Nonce) (s : Supp) : Kmp × Supp :=
  let k : Kmp :=
    match type with
    | .fwh =>
        { id := s.nextKmp, receiveDisable := false, eventPending := false,
          common := (Fwh.init cfg snonce).1, prot := .fwh (Fwh.init cfg snonce).2 }
    | .gkh =>
        { id := s.nextKmp, receiveDisable := false, eventPending := false, common := Gkh.init,
          prot := .gkh }
  (k, { s with kmps := k :: s.kmps, nextKmp := s.nextKmp + 1 })

/-- `ws_pae_supp_kmp_incoming_ind`. -/
def incomingInd (cfg : SecCfg) (ongoing : Bool) (type : KmpType) (snonce : Nonce) (s : Supp) :
    Option (Kmp × Supp) :=
  if !s.entryAddressActive || !ongoing then none
  else
    match typeGet s.kmps type with
    | none => some (kmpCreate cfg type snonce s)
    | some k =>
        if !k.receiveDisable || type ≠ .gkh then some (k, s)
        else some (kmpCreate cfg type snonce s)

/-- `sec_prot.receive` of an instance. -/
def kmpReceive (cfg : SecCfg) (snonce : Nonce) (pdu : Option KeyFrame) (k : Kmp) (s : Supp) :
    Supp :=
  match k.prot with
  | .fwh data =>
      s.ran k.id pdu .fwh (Fwh.receive cfg s.localEui64 s.addrGet snonce pdu (s.call k data))
  | .gkh => s.ran k.id pdu (fun _ => .gkh) (Gkh.receive pdu (s.call k ()))

/-- `kmp_service_event_if_event`: the state machine without a message. -/
def kmpEvent (cfg : SecCfg) (k : Kmp) (s : Supp) : Supp :=
  match k.prot with
  | .fwh data =>
      s.ran k.id none .fwh
        (Fwh.stateMachine cfg s.localEui64 s.addrGet data.snonce none (s.call k data))
  | .gkh => s.ran k.id none (fun _ => .gkh) (Gkh.stateMachine none (s.call k ()))

/-- `kmp_service_timer_if_timeout`. -/
def kmpTimeout (cfg : SecCfg) (ticks : Nat) (k : Kmp) (s : Supp) : Supp :=
  match k.prot with
  | .fwh data => s.ran k.id none .fwh (Fwh.timerTimeout cfg ticks (s.call k data))
  | .gkh => s.ran k.id none (fun _ => .gkh) (Gkh.timerTimeout ticks (s.call k ()))

/-- `kmp_service_msg_if_receive`.  `pdu` is `none` for bytes that are no EAPOL-Key frame,
`ongoing` what `ws_pae_supp_authentication_ongoing` says and `snonce` the next random nonce. -/
def msgIfReceive (cfg : SecCfg) (ongoing : Bool) (type : KmpType) (pdu : Option KeyFrame)
    (snonce : Nonce) (s : Supp) : Supp :=
  match s.incomingInd cfg ongoing type snonce with
  | none => s
  | some (k, s) => if k.receiveDisable then s else s.kmpReceive cfg snonce pdu k

/-- The event of one instance. -/
def event (cfg : SecCfg) (id : Nat) (s : Supp) : Supp :=
  match s.kmps.find? fun k => k.id = id ∧ k.eventPending with
  | none => s
  | some k =>
      let handled (k : Kmp) : Kmp := if k.id = id then { k with eventPending := false } else k
      kmpEvent cfg (handled k) { s with kmps := s.kmps.map handled }

/-- The timer of one instance. -/
def timeout (cfg : SecCfg) (ticks : Nat) (s : Supp) (id : Nat) : Supp :=
  match s.kmps.find? fun k => k.id = id with
  | none => s
  | some k => s.kmpTimeout cfg ticks k

/-- `ws_pae_lib_kmp_timer_update` in `ws_pae_supp_fast_timer`. -/
def fastTimer (cfg : SecCfg) (ticks : Nat) (s : Supp) : Supp :=
  (s.kmps.map Kmp.id).foldl (timeout cfg ticks) s

/-- `ws_pae_supp_nvm_update`. -/
def nvmUpdate (s : Supp) : Supp :=
  if s.keys.updated then
    { s with
      nvm := some (keysTlvCreate s.keys)
      keys := { s.keys with updated := false } }.note .nvmWritten
  else s

/-- Deleting PMK, PTK and the address bound to it. -/
def deletePairwise (s : Supp) : Supp :=
  { s with keys := ((s.keys.pmkDelete).ptkDelete).ptkEui64Delete }.note .pmkChanged

/-- `ws_pae_supp_nw_keys_valid_check`. -/
def nwKeysValidCheck (panId : Nat) (name : String) (s : Supp) : Bool × Supp :=
  if 1 ≤ s.nwKeysUsedCnt then
    (false, { { s with gtks := { gtksInit with updated := true } }.nvmUpdate with
      nwKeysUsedCnt := 0 })
  else if name = s.networkName ∧ panId = s.keyPanId ∧ 0 < gtkCount s.gtks ∧
      s.keys.pmk.isSome ∧ s.keys.ptkSet then
    (true, { s with nwKeysUsedCnt := s.nwKeysUsedCnt + 1 })
  else (false, { s with nwKeysUsedCnt := 0 })

/-- `ws_pae_supp_authenticate`. -/
def authenticate (panId : Nat) (name : String) (s : Supp) : Supp :=
  match s.nwKeysValidCheck panId name with
  | (true, s) => s
  | (false, s) =>
      let s := { s with gtks := gtksInit }
      let s :=
        if s.networkName ≠ name ∨ (s.keyPanId ≠ 0xffff ∧ s.keyPanId ≠ panId) then
          s.deletePairwise
        else s
      { s with
        keyPanId := panId, newBrEui64Fresh := false, entryAddressActive := true,
        authRequested := true }

/-- `ws_pae_controller_nw_info_set` with `ws_pae_supp_nw_info_set`. -/
def nwInfoSet (panId : Nat) (name : String) (s : Supp) : Supp :=
  if s.networkName ≠ name ∨ (panId ≠ 0xffff ∧ panId ≠ s.newPanId) then
    let s := { s with
      networkName := name, newPanId := if panId = 0xffff then s.newPanId else panId }
    let s := { s.deletePairwise with gtks := gtksClear s.gtks }
    if s.keys.updated || s.gtks.updated then s.nvmUpdate else s
  else s

/-- `ws_pae_supp_nw_key_valid`. -/
def nwKeyValid (s : Supp) : Supp := { s with nwKeysUsedCnt := 0 }.nvmUpdate

/-- EAP-TLS has finished: `sec_prot_keys_pmk_write`. -/
def tlsFinished (cfg : SecCfg) (pmk : Pmk) (s : Supp) : Supp :=
  { s with keys := s.keys.pmkWrite pmk cfg.pmkLifetime }.note .pmkChanged

/-- Power off and on: what is left is the file of the keys, read by
`ws_pae_supp_nvm_keys_read`, and the network information the controller restores. -/
def restart (gtks : Gtks) (name : String) (panId stale : Nat) (s : Supp) : Supp :=
  { s with
    keys := match s.nvm with
      | none => keysInit
      | some tlv => keysTlvRead tlv stale
    gtks := gtks, networkName := name, newPanId := panId, keyPanId := panId,
    nwKeysUsedCnt := 0, kmps := [], entryAddressActive := false, authRequested := false,
    newBrEui64 := 0, newBrEui64Fresh := false }.note .restarted

/-- What can happen to the node.  GTKs also change outside the handshakes (a lifetime ends, the
application sets them). -/
inductive Act
  | receive (ongoing : Bool) (type : KmpType) (pdu : Option KeyFrame) (snonce : Nonce)
  | event (id : Nat)
  | fastTimer (ticks : Nat)
  | authenticate (panId : Nat) (name : String)
  | authenticateFailed
  | nwInfoSet (panId : Nat) (name : String)
  | nwKeyValid
  | borderRouterAddrWrite (eui64 : Eui64)
  | addressSet (active : Bool)
  | gtksSet (gtks : Gtks)
  | tlsFinished (pmk : Pmk)
  | restart (gtks : Gtks) (name : String) (panId stale : Nat)

/-- One step. -/
def step (cfg : SecCfg) (s : Supp) : Act → Option Supp
  | .receive ongoing type pdu snonce => some (s.msgIfReceive cfg ongoing type pdu snonce)
  | .event id => some (s.event cfg id)
  | .fastTimer ticks => some (s.fastTimer cfg ticks)
  | .authenticate panId name => some (s.authenticate panId name)
  | .authenticateFailed => some { s with authRequested := false }
  | .nwInfoSet panId name => some (s.nwInfoSet panId name)
  | .nwKeyValid => some s.nwKeyValid
  | .borderRouterAddrWrite eui64 => some { s with newBrEui64 := eui64, newBrEui64Fresh := true }
  | .addressSet active => some { s with entryAddressActive := active }
  | .gtksSet gtks => some { s with gtks := gtks }
  | .tlsFinished pmk => some (s.tlsFinished cfg pmk)
  | .restart gtks name panId stale => some (s.restart gtks name panId stale)

end Supp

end Pae
