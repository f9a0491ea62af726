import WisunModem.SecKeys

/-!
# The handshakes of the supplicant

The 4-way handshake (`supp_fwh_sec_prot.c`) and the group key handshake
(`supp_gkh_sec_prot.c`).  A call of a state machine works on the instance, on the keys that
all instances share and on what it asks of its caller; what it does to the keys is also
noted as a `Deed`.

* `Fwh.machine_moves` — a call derives a candidate PTK from the PMK, or takes a Message 3 whose
  MIC fits the candidate, or leaves all keys alone;
* `Gkh.machine_moves` — a call takes a Message 1 whose MIC fits the stored PTK, or leaves all
  keys alone.
-/

namespace Pae

/-! ## What all security protocols share -/

/-- `sec_prot_state_e` with the states of the handshakes. -/
inductive SecState
  | init | createReq | createResp | finish | finished
  | message1 | message2 | message3 | message4 | message3RetryWait
  deriving DecidableEq, Repr

/-- `sec_prot_result_e`, as far as a handshake sets it. -/
inductive SecResult
  | ok | timeout | errNoMem | errTx
  deriving DecidableEq, Repr

/-- `sec_prot_common_t`; no trickle timer runs for the supplicant. -/
structure SecCommon where
  state : SecState
  result : SecResult
  ticks : Nat
  deriving DecidableEq, Repr

/-- What a handshake does to the keys. -/
inductive Deed
  | ptkDerived (ptk : Ptk)
  | gtkStored (index : Fin 4) (gtk : Gtk)
  | ptkWritten (ptk : Ptk)
  | counterRaised (counter : Nat)
  deriving DecidableEq, Repr

/-- What a call asks of its caller, and what it did. -/
inductive Out
  | send (f : KeyFrame)
  | createInd
  | finishedInd (result : SecResult)
  | finished
  | did (deed : Deed)
  deriving DecidableEq, Repr

/-- The timer values of `sec_cfg_t` that the handshakes use. -/
structure SecCfg where
  retryTimeout : Nat
  ptkLifetime : Nat
  pmkLifetime : Nat

/-- What a call works on: `data` belongs to the protocol. -/
structure Call (δ : Type) where
  common : SecCommon
  receiveDisable : Bool
  data : δ
  keys : SecKeys
  gtks : Gtks
  outs : List Out

namespace Call

variable {δ : Type}

def out (c : Call δ) (o : Out) : Call δ := { c with outs := c.outs ++ [o] }

def setTicks (c : Call δ) (ticks : Nat) : Call δ :=
  { c with common := { c.common with ticks := ticks } }

/-- `sec_prot_result_set`. -/
def resultSet (c : Call δ) (result : SecResult) : Call δ :=
  { c with common := { c.common with result := result } }

/-- `sec_prot_state_set`, the states without an action of their own. -/
def stateSet (c : Call δ) (state : SecState) : Call δ :=
  { c with common := { c.common with state := state } }

/-- `sec_prot_state_set` of `SEC_STATE_FINISHED`: waits, receives nothing more and forgets the
result. -/
def stateSetFinished (c : Call δ) : Call δ :=
  { c with
    common :=
      { state := .finished, result := .ok
        ticks := if c.common.state = .finished then c.common.ticks else 50 }
    receiveDisable := true }

/-- The instance is ready to be deleted. -/
def finished (c : Call δ) : Call δ := c.out .finished

/-- `sec_prot_state_set` of `SEC_STATE_FINISH`: runs that branch of the machine at once, or
ends what is finished already. -/
def stateSetFinish (finish : Call δ → Call δ) (c : Call δ) : Call δ :=
  if c.common.state = .finished then (c.setTicks 50).finished
  else finish ((c.setTicks 50).stateSet .finish)

/-- `sec_prot_timer_timeout_handle`. -/
def timerTimeoutHandle (finish : Call δ → Call δ) (ticks : Nat) (c : Call δ) : Call δ :=
  if ticks < c.common.ticks then c.setTicks (c.common.ticks - ticks)
  else
    let c := (c.setTicks 0).resultSet .timeout
    if c.common.state = .init then c.stateSetFinished else stateSetFinish finish c

/-- `prot->create_ind`: the supplicant accepts every one of them at once, and the machine is
called again from the event queue. -/
def createInd (c : Call δ) : Call δ := (c.out .createInd).resultSet .ok

/-- `sec_prot_lib_gtk_read`: a GTK goes into the table before the GTKL is looked for. -/
def gtkRead (c : Call δ) (kdes : Kdes) : Bool × Call δ :=
  let c :=
    match kdes.gtk with
    | none => c
    | some (index, gtk) =>
        match gtkSet c.gtks index gtk (kdes.lifetime.getD 0) with
        | none => c
        | some gtks => { c with gtks := gtks }.out (.did (.gtkStored index gtk))
  match kdes.gtkl with
  | none => (false, c)
  | some gtkl => (true, { c with keys := c.keys.gtklSet gtkl })

/-- `sec_prot_keys_pmk_replay_cnt_set`, noted. -/
def replayCntSet (c : Call δ) (counter : Nat) : Call δ :=
  { c with keys := c.keys.pmkReplayCntSet counter }.out (.did (.counterRaised counter))

end Call

/-! ## The 4-way handshake -/

/-- `fwh_sec_prot_int_t`. -/
structure FwhData where
  snonce : Nonce
  anonce : Nonce
  newPtk : Ptk
  remoteEui64 : Eui64
  recvReplayCnt : Nat
  recvReplayCntSet : Bool
  msg3Received : Bool
  msg3RetryWait : Bool
  deriving DecidableEq, Repr

/-- The messages the supplicant takes part of the handshake by. -/
inductive FwhMsg
  | message1 | message3
  deriving DecidableEq, Repr

namespace Fwh

/-- `supp_fwh_sec_prot_init`: the machine has passed `FWH_STATE_INIT` when it returns. -/
def init (cfg : SecCfg) (snonce : Nonce) : SecCommon × FwhData :=
  ({ state := .message1, result := .ok, ticks := cfg.retryTimeout },
    { snonce := snonce, anonce := 0, newPtk := .zero, remoteEui64 := 0, recvReplayCnt := 0,
      recvReplayCntSet := false, msg3Received := false, msg3RetryWait := false })

/-- `supp_fwh_sec_prot_recv_replay_cnt_compare`. -/
def recvReplayCntCompare (received : Nat) (d : FwhData) : Bool :=
  if d.recvReplayCntSet then d.recvReplayCnt < received else d.recvReplayCnt ≤ received

/-- `supp_fwh_sec_prot_message_get`. -/
def messageGet (keys : SecKeys) (d : FwhData) (f : KeyFrame) : Option FwhMsg :=
  if !f.pairwiseKey then none
  else
    match f.keyMask with
    | (false, true, false, false) =>
        if keys.pmkReplayCntCompare f.replayCounter && recvReplayCntCompare f.replayCounter d
        then some .message1 else none
    | (true, true, true, true) =>
        if keys.pmkReplayCntCompare f.replayCounter then
          if f.encryptedKeyData then some .message3 else none
        else none
    | _ => none

/-- `sec_prot_lib_pmkid_generate` of the supplicant: the PMKID and the address it is for.
`remote` is what `addr_get` answers. -/
def pmkidGenerate (keys : SecKeys) (local_ remote : Eui64) (altRemoteEui64Use : Bool) :
    Option (Pmkid × Eui64) :=
  match keys.pmk with
  | none => none
  | some pmk =>
      match keys.ptkEui64, altRemoteEui64Use with
      | some eui64, false => some (.calc pmk eui64 local_, eui64)
      | none, true => none
      | _, _ => some (.calc pmk remote local_, remote)

/-- `supp_fwh_kde_handle` of Message 1: the address is taken over even if the PMKID is not the
one that belongs to it. -/
def kdeHandleMessage1 (local_ remote : Eui64) (f : KeyFrame) (c : Call FwhData) :
    Bool × Call FwhData :=
  match messageHandle c.data.newPtk f with
  | none => (false, c)
  | some kdes =>
      match kdes.pmkid, pmkidGenerate c.keys local_ remote false with
      | some recvPmkid, some (calcPmkid, eui64) =>
          let c := { c with data := { c.data with remoteEui64 := eui64 } }
          if recvPmkid = calcPmkid then (true, c)
          else
            match pmkidGenerate c.keys local_ remote true with
            | none => (false, c)
            | some (altPmkid, altEui64) =>
                (decide (recvPmkid = altPmkid),
                  { c with data := { c.data with remoteEui64 := altEui64 } })
      | _, _ => (false, c)

/-- `supp_fwh_sec_prot_ptk_generate`, after `anonce_store` and with the nonce that
`sec_prot_lib_nonce_generate` drew; without a PMK the source does not get here. -/
def ptkGenerate (local_ : Eui64) (snonce : Nonce) (f : KeyFrame) (c : Call FwhData) :
    Call FwhData :=
  match c.keys.pmk with
  | none => c
  | some pmk =>
      let ptk := ptkCalc pmk local_ c.data.remoteEui64 snonce f.keyNonce
      { c with
        data := { c.data with anonce := f.keyNonce, snonce := snonce, newPtk := ptk } }.out
        (.did (.ptkDerived ptk))

/-- `supp_fwh_sec_prot_recv_replay_counter_store`. -/
def recvReplayCounterStore (f : KeyFrame) (c : Call FwhData) : Call FwhData :=
  { c with
    data := { c.data with recvReplayCnt := f.replayCounter, recvReplayCntSet := true } }

/-- Message 2 of `supp_fwh_sec_prot_message_send`. -/
def message2 (d : FwhData) : KeyFrame :=
  messageBuild d.newPtk none
    { KeyFrame.init with
      pairwiseKey := true, keyMic := true, replayCounter := d.recvReplayCnt,
      keyNonce := d.snonce }

/-- Message 4 of `supp_fwh_sec_prot_message_send`. -/
def message4 (d : FwhData) : KeyFrame :=
  messageBuild d.newPtk none
    { KeyFrame.init with
      pairwiseKey := true, keyMic := true, securedKeyFrame := true,
      replayCounter := d.recvReplayCnt }

def sendMessage2 (c : Call FwhData) : Call FwhData := c.out (.send (message2 c.data))

def sendMessage4 (c : Call FwhData) : Call FwhData := c.out (.send (message4 c.data))

/-- What `FWH_STATE_MESSAGE_1` and `FWH_STATE_MESSAGE_3` do with a Message 1. -/
def takeMessage1 (local_ remote : Eui64) (snonce : Nonce) (f : KeyFrame) (c : Call FwhData) :
    Bool × Call FwhData :=
  match kdeHandleMessage1 local_ remote f c with
  | (false, c) => (false, c)
  | (true, c) => (true, recvReplayCounterStore f (ptkGenerate local_ snonce f c))

/-- What `FWH_STATE_MESSAGE_3` and `FWH_STATE_MESSAGE_3_RETRY_WAIT` do with a Message 3: MIC,
ANonce, KDEs, and only then the counters. -/
def takeMessage3 (f : KeyFrame) (c : Call FwhData) : Bool × Call FwhData :=
  if !micValidate c.data.newPtk f then (false, c)
  else if c.data.anonce ≠ f.keyNonce then (false, c)
  else
    match messageHandle c.data.newPtk f with
    | none => (false, c)
    | some kdes =>
        match c.gtkRead kdes with
        | (false, c) => (false, c)
        | (true, c) => (true, (recvReplayCounterStore f c).replayCntSet f.replayCounter)

/-- `FWH_STATE_FINISH`. -/
def finish (cfg : SecCfg) (c : Call FwhData) : Call FwhData :=
  if c.data.msg3RetryWait then c.stateSetFinished
  else if c.data.msg3Received then
    let ptk := c.data.newPtk
    let c := { c with
      data := { c.data with msg3RetryWait := true }
      keys := (c.keys.ptkWrite ptk cfg.ptkLifetime).ptkEui64Write c.data.remoteEui64 }
    let c := (c.out (.did (.ptkWritten ptk))).setTicks (60 * 10)
    (c.out (.finishedInd c.common.result)).stateSet .message3RetryWait
  else (c.out (.finishedInd c.common.result)).stateSetFinished

/-- `FWH_STATE_MESSAGE_1`. -/
def onMessage1 (local_ remote : Eui64) (snonce : Nonce) (f : KeyFrame) (c : Call FwhData) :
    Call FwhData :=
  match takeMessage1 local_ remote snonce f c with
  | (false, c) => c
  | (true, c) => ((c.setTicks (30 * 60 * 10)).createInd).stateSet .createResp

/-- `FWH_STATE_MESSAGE_3`, Message 1 again. -/
def onMessage1Again (cfg : SecCfg) (local_ remote : Eui64) (snonce : Nonce) (f : KeyFrame)
    (c : Call FwhData) : Call FwhData :=
  match takeMessage1 local_ remote snonce f c with
  | (false, c) => c
  | (true, c) => (sendMessage2 c).setTicks cfg.retryTimeout

/-- `FWH_STATE_MESSAGE_3`, Message 3. -/
def onMessage3 (cfg : SecCfg) (f : KeyFrame) (c : Call FwhData) : Call FwhData :=
  match takeMessage3 f c with
  | (false, c) => c
  | (true, c) =>
      let c := { c with data := { c.data with msg3Received := true } }
      ((sendMessage4 c).setTicks cfg.retryTimeout).stateSetFinish (finish cfg)

/-- `FWH_STATE_MESSAGE_3_RETRY_WAIT`, Message 3 again. -/
def onMessage3Again (f : KeyFrame) (c : Call FwhData) : Call FwhData :=
  match takeMessage3 f c with
  | (false, c) => c
  | (true, c) => sendMessage4 c

/-- `supp_fwh_sec_prot_state_machine`; a call from the timer or the event queue has no message. -/
def stateMachine (cfg : SecCfg) (local_ remote : Eui64) (snonce : Nonce)
    (recv : Option (FwhMsg × KeyFrame)) (c : Call FwhData) : Call FwhData :=
  match c.common.state with
  | .message1 =>
      match recv with
      | some (.message1, f) => onMessage1 local_ remote snonce f c
      | _ => c
  | .createResp =>
      if c.common.result = .ok then
        ((sendMessage2 c).setTicks cfg.retryTimeout).stateSet .message3
      else c.stateSetFinished
  | .message3 =>
      match recv with
      | some (.message1, f) => onMessage1Again cfg local_ remote snonce f c
      | some (.message3, f) => onMessage3 cfg f c
      | none => c
  | .finish => finish cfg c
  | .message3RetryWait =>
      if c.common.result = .timeout then (c.resultSet .ok).stateSetFinished
      else
        match recv with
        | some (.message3, f) => onMessage3Again f c
        | _ => c
  | .finished => c.finished
  | _ => c

/-- `supp_fwh_sec_prot_receive`. -/
def receive (cfg : SecCfg) (local_ remote : Eui64) (snonce : Nonce) (pdu : Option KeyFrame)
    (c : Call FwhData) : Call FwhData :=
  match pdu with
  | none => c
  | some f =>
      match messageGet c.keys c.data f with
      | none => c
      | some msg => stateMachine cfg local_ remote snonce (some (msg, f)) c

/-- `supp_fwh_sec_prot_timer_timeout`. -/
def timerTimeout (cfg : SecCfg) (ticks : Nat) (c : Call FwhData) : Call FwhData :=
  c.timerTimeoutHandle (finish cfg) ticks

end Fwh

/-! ## The group key handshake -/

namespace Gkh

/-- `supp_gkh_sec_prot_init`, past `GKH_STATE_INIT`. -/
def init : SecCommon := { state := .message1, result := .ok, ticks := 60 * 10 }

/-- `supp_gkh_sec_prot_message_get`: is it a Message 1? -/
def messageGet (keys : SecKeys) (f : KeyFrame) : Bool :=
  if f.pairwiseKey then false
  else
    match f.keyMask with
    | (false, true, true, true) =>
        keys.pmkReplayCntCompare f.replayCounter && f.encryptedKeyData
    | _ => false

/-- `supp_gkh_sec_prot_message_send` of Message 2; the key is the PTK buffer. -/
def sendMessage2 (c : Call Unit) : Call Unit :=
  c.out <| .send <| messageBuild c.keys.ptk none
    { KeyFrame.init with
      keyMic := true, securedKeyFrame := true, replayCounter := c.keys.pmkKeyReplayCnt }

/-- `GKH_STATE_FINISH`. -/
def finish (c : Call Unit) : Call Unit :=
  (c.out (.finishedInd c.common.result)).stateSetFinished

/-- `GKH_STATE_MESSAGE_1`: MIC and KDEs under the PTK buffer, whether or not a PTK is set. -/
def onMessage1 (f : KeyFrame) (c : Call Unit) : Call Unit :=
  if !micValidate c.keys.ptk f then c
  else
    match messageHandle c.keys.ptk f with
    | none => c
    | some kdes =>
        match c.gtkRead kdes with
        | (false, c) => c
        | (true, c) =>
            (((c.setTicks (30 * 60 * 10)).replayCntSet f.replayCounter).createInd).stateSet
              .createResp

/-- `supp_gkh_sec_prot_state_machine`; without a message there is no MIC to validate. -/
def stateMachine (recv : Option KeyFrame) (c : Call Unit) : Call Unit :=
  match c.common.state with
  | .message1 =>
      match recv with
      | some f => onMessage1 f c
      | none => c
  | .createResp =>
      if c.common.result = .ok then (sendMessage2 c).stateSetFinish finish
      else c.stateSetFinished
  | .finish => finish c
  | .finished => c.finished
  | _ => c

/-- `supp_gkh_sec_prot_receive`. -/
def receive (pdu : Option KeyFrame) (c : Call Unit) : Call Unit :=
  match pdu with
  | none => c
  | some f => if messageGet c.keys f then stateMachine (some f) c else c

/-- `supp_gkh_sec_prot_timer_timeout`. -/
def timerTimeout (ticks : Nat) (c : Call Unit) : Call Unit :=
  c.timerTimeoutHandle finish ticks

end Gkh

/-! ## What a call can do -/

/-- Nothing happens to the keys, and no success is reported. -/
def Silent (outs : List Out) : Prop :=
  ∀ o ∈ outs, (∃ f, o = .send f) ∨ o = .createInd ∨ o = .finished ∨
    ∃ result, result ≠ .ok ∧ o = .finishedInd result

theorem silent_nil : Silent [] := fun _ hmem => by cases hmem

@[simp] theorem silent_cons {o : Out} {outs : List Out} :
    Silent (o :: outs) ↔ ((∃ f, o = .send f) ∨ o = .createInd ∨ o = .finished ∨
      ∃ result, result ≠ .ok ∧ o = .finishedInd result) ∧ Silent outs := by
  simp [Silent]

/-- The GTK, if there is one and it is new. -/
def gtkStored (gtks : Gtks) (kdes : Kdes) : List Out :=
  match kdes.gtk with
  | none => []
  | some (index, gtk) =>
      match gtkSet gtks index gtk (kdes.lifetime.getD 0) with
      | none => []
      | some _ => [.did (.gtkStored index gtk)]

/-- What reading the key data leaves as it was, and what it asks for. -/
theorem Call.gtkRead_spec {δ : Type} (c : Call δ) (kdes : Kdes) :
    (c.gtkRead kdes).1 = kdes.gtkl.isSome ∧
      (c.gtkRead kdes).2.common = c.common ∧
      (c.gtkRead kdes).2.receiveDisable = c.receiveDisable ∧
      (c.gtkRead kdes).2.data = c.data ∧
      (c.gtkRead kdes).2.outs = c.outs ++ gtkStored c.gtks kdes ∧
      (c.gtkRead kdes).2.keys = match kdes.gtkl with
        | none => c.keys
        | some gtkl => c.keys.gtklSet gtkl := by
  unfold Call.gtkRead gtkStored
  cases hgtk : kdes.gtk with
  | none => cases hgtkl : kdes.gtkl <;> simp
  | some slot =>
      obtain ⟨index, gtk⟩ := slot
      cases hset : gtkSet c.gtks index gtk (kdes.lifetime.getD 0) with
      | none => cases hgtkl : kdes.gtkl <;> simp [hset]
      | some gtks => cases hgtkl : kdes.gtkl <;> simp [hset, Call.out]

namespace Fwh

/-- The states an instance is in between two calls. -/
inductive Tidy (common : SecCommon) (d : FwhData) : Prop
  | waiting (hstate : common.state = .message1 ∨ common.state = .createResp ∨
      common.state = .message3) (hnone : d.msg3Received = false) (hfirst : d.msg3RetryWait = false)
  | retryWait (hstate : common.state = .message3RetryWait) (hwait : d.msg3RetryWait = true)
  | finished (hstate : common.state = .finished)

theorem tidy_init (cfg : SecCfg) (snonce : Nonce) :
    Tidy (init cfg snonce).1 (init cfg snonce).2 :=
  .waiting (.inl rfl) rfl rfl

/-- A Message 3 that fits the candidate PTK, and what is wrapped in it. -/
structure Fits (recv : Option (FwhMsg × KeyFrame)) (c : Call FwhData) (f : KeyFrame)
    (kdes : Kdes) : Prop where
  message : recv = some (.message3, f)
  mic : f.mic = some c.data.newPtk
  opened : messageHandle c.data.newPtk f = some kdes
  state : c.common.state = .message3 ∨ c.common.state = .message3RetryWait

/-- What one call does: nothing to the keys, or a new candidate PTK, or it works in a Message 3
that fits the candidate: without a GTKL, as a retry, or as the end of the handshake. -/
inductive Move (cfg : SecCfg) (recv : Option (FwhMsg × KeyFrame)) (c c' : Call FwhData) : Prop
  | rest (hkeys : c'.keys = c.keys) (hptk : c'.data.newPtk = c.data.newPtk)
      (houts : Silent c'.outs)
  | derive (pmk : Pmk) (outs : List Out) (hpmk : c.keys.pmk = some pmk)
      (hkeys : c'.keys = c.keys) (hptk : Derived pmk c'.data.newPtk)
      (houts : c'.outs = .did (.ptkDerived c'.data.newPtk) :: outs) (hsilent : Silent outs)
  | reject (f : KeyFrame) (kdes : Kdes) (hfits : Fits recv c f kdes) (hgtkl : kdes.gtkl = none)
      (hkeys : c'.keys = c.keys) (hptk : c'.data.newPtk = c.data.newPtk)
      (houts : c'.outs = gtkStored c.gtks kdes)
  | retry (f : KeyFrame) (kdes : Kdes) (gtkl : Nat) (outs : List Out)
      (hfits : Fits recv c f kdes) (hgtkl : kdes.gtkl = some gtkl)
      (hkeys : c'.keys = (c.keys.gtklSet gtkl).pmkReplayCntSet f.replayCounter)
      (hptk : c'.data.newPtk = c.data.newPtk) (hsilent : Silent outs)
      (houts : c'.outs =
        gtkStored c.gtks kdes ++ .did (.counterRaised f.replayCounter) :: outs)
  | finish (f : KeyFrame) (kdes : Kdes) (gtkl : Nat) (result : SecResult) (outs : List Out)
      (hfits : Fits recv c f kdes) (hgtkl : kdes.gtkl = some gtkl)
      (hkeys : c'.keys = (((c.keys.gtklSet gtkl).pmkReplayCntSet f.replayCounter).ptkWrite
        c.data.newPtk cfg.ptkLifetime).ptkEui64Write c.data.remoteEui64)
      (hptk : c'.data.newPtk = c.data.newPtk) (hsilent : Silent outs)
      (houts : c'.outs = gtkStored c.gtks kdes ++ .did (.counterRaised f.replayCounter) ::
        (outs ++ [.did (.ptkWritten c.data.newPtk), .finishedInd result]))

variable {cfg : SecCfg} {local_ remote : Eui64} {snonce : Nonce}

/-- Checking the PMKID moves nothing but the address. -/
theorem kdeHandleMessage1_spec (local_ remote : Eui64) (f : KeyFrame) (c : Call FwhData) :
    (∃ eui64, (kdeHandleMessage1 local_ remote f c).2 =
        { c with data := { c.data with remoteEui64 := eui64 } }) ∧
      ((kdeHandleMessage1 local_ remote f c).1 = true → ∃ pmk, c.keys.pmk = some pmk) := by
  have hsame : ∃ eui64, c = { c with data := { c.data with remoteEui64 := eui64 } } :=
    ⟨c.data.remoteEui64, rfl⟩
  unfold kdeHandleMessage1
  split
  · exact ⟨hsame, nofun⟩
  · split
    · rename_i hgen
      have hpmk : ∃ pmk, c.keys.pmk = some pmk := by
        cases hpmk : c.keys.pmk with
        | none => simp [pmkidGenerate, hpmk] at hgen
        | some pmk => exact ⟨pmk, rfl⟩
      dsimp only
      split
      · exact ⟨⟨_, rfl⟩, fun _ => hpmk⟩
      · split
        · exact ⟨⟨_, rfl⟩, nofun⟩
        · exact ⟨⟨_, rfl⟩, fun _ => hpmk⟩
    · exact ⟨hsame, nofun⟩

/-- A Message 1 that is taken leaves a candidate derived from the PMK. -/
theorem takeMessage1_spec (local_ remote : Eui64) (snonce : Nonce) (f : KeyFrame)
    (c : Call FwhData) (houts : c.outs = []) :
    let r := takeMessage1 local_ remote snonce f c
    r.2.common = c.common ∧ r.2.keys = c.keys ∧ r.2.data.msg3Received = c.data.msg3Received ∧
      r.2.data.msg3RetryWait = c.data.msg3RetryWait ∧
      ((r.1 = false ∧ r.2.data.newPtk = c.data.newPtk ∧ r.2.outs = []) ∨
        (r.1 = true ∧ r.2.outs = [.did (.ptkDerived r.2.data.newPtk)] ∧
          ∃ pmk, c.keys.pmk = some pmk ∧ Derived pmk r.2.data.newPtk)) := by
  obtain ⟨⟨eui64, hcall⟩, hpmk⟩ := kdeHandleMessage1_spec local_ remote f c
  unfold takeMessage1
  cases hk : kdeHandleMessage1 local_ remote f c with
  | mk ok c' =>
      rw [hk] at hcall hpmk
      simp only at hcall hpmk
      subst hcall
      cases ok with
      | false => exact ⟨rfl, rfl, rfl, rfl, .inl ⟨rfl, rfl, houts⟩⟩
      | true =>
          obtain ⟨pmk, hpmk⟩ := hpmk rfl
          simp only [ptkGenerate, recvReplayCounterStore, hpmk, Call.out, houts, List.nil_append]
          exact ⟨trivial, trivial, trivial, trivial,
            .inr ⟨trivial, trivial, pmk, rfl, derived_ptkCalc ..⟩⟩

end Fwh

namespace Fwh

variable {cfg : SecCfg} {local_ remote : Eui64} {snonce : Nonce}

/-- What a Message 3 does before the handshake goes on. -/
theorem takeMessage3_spec (f : KeyFrame) (c : Call FwhData) (houts : c.outs = []) :
    let r := takeMessage3 f c
    r.2.common = c.common ∧ r.2.data.newPtk = c.data.newPtk ∧
      r.2.data.remoteEui64 = c.data.remoteEui64 ∧
      r.2.data.msg3Received = c.data.msg3Received ∧
      r.2.data.msg3RetryWait = c.data.msg3RetryWait ∧
      ((r.1 = false ∧ r.2.keys = c.keys ∧ r.2.outs = []) ∨
        ∃ kdes, f.mic = some c.data.newPtk ∧ messageHandle c.data.newPtk f = some kdes ∧
          ((r.1 = false ∧ kdes.gtkl = none ∧ r.2.keys = c.keys ∧
              r.2.outs = gtkStored c.gtks kdes) ∨
            ∃ gtkl, r.1 = true ∧ kdes.gtkl = some gtkl ∧
              r.2.keys = (c.keys.gtklSet gtkl).pmkReplayCntSet f.replayCounter ∧
              r.2.outs = gtkStored c.gtks kdes ++ [.did (.counterRaised f.replayCounter)])) := by
  unfold takeMessage3
  split
  · exact ⟨rfl, rfl, rfl, rfl, rfl, .inl ⟨rfl, rfl, houts⟩⟩
  · rename_i hmic
    have hmic : f.mic = some c.data.newPtk := by simpa using hmic
    split
    · exact ⟨rfl, rfl, rfl, rfl, rfl, .inl ⟨rfl, rfl, houts⟩⟩
    · split
      · exact ⟨rfl, rfl, rfl, rfl, rfl, .inl ⟨rfl, rfl, houts⟩⟩
      · rename_i kdes hopen
        obtain ⟨hok, hcommon, -, hdata, hread, hkeys⟩ := c.gtkRead_spec kdes
        rw [houts, List.nil_append] at hread
        cases hr : c.gtkRead kdes with
        | mk ok c' =>
            rw [hr] at hok hcommon hdata hread hkeys
            dsimp only at hok hcommon hdata hread hkeys
            cases hgtkl : kdes.gtkl with
            | none =>
                rw [hgtkl] at hok hkeys
                subst hok
                refine ⟨hcommon, ?_, ?_, ?_, ?_, .inr ⟨kdes, hmic, hopen, .inl ?_⟩⟩
                · show c'.data.newPtk = _
                  rw [hdata]
                · show c'.data.remoteEui64 = _
                  rw [hdata]
                · show c'.data.msg3Received = _
                  rw [hdata]
                · show c'.data.msg3RetryWait = _
                  rw [hdata]
                · exact ⟨rfl, hgtkl, hkeys, hread⟩
            | some gtkl =>
                rw [hgtkl] at hok hkeys
                subst hok
                refine ⟨hcommon, ?_, ?_, ?_, ?_, .inr ⟨kdes, hmic, hopen, .inr ⟨gtkl, ?_⟩⟩⟩
                · show c'.data.newPtk = _
                  rw [hdata]
                · show c'.data.remoteEui64 = _
                  rw [hdata]
                · show c'.data.msg3Received = _
                  rw [hdata]
                · show c'.data.msg3RetryWait = _
                  rw [hdata]
                · refine ⟨rfl, hgtkl, ?_, ?_⟩
                  · show c'.keys.pmkReplayCntSet f.replayCounter = _
                    rw [hkeys]
                  · show c'.outs ++ [.did (.counterRaised f.replayCounter)] = _
                    rw [hread]

/-- A Message 1 that starts the handshake. -/
theorem onMessage1_moves (f : KeyFrame) {c : Call FwhData} (houts : c.outs = [])
    (hstate : c.common.state = .message1) (hnone : c.data.msg3Received = false)
    (hfirst : c.data.msg3RetryWait = false) (recv : Option (FwhMsg × KeyFrame)) :
    Move cfg recv c (onMessage1 local_ remote snonce f c) ∧
      Tidy (onMessage1 local_ remote snonce f c).common
        (onMessage1 local_ remote snonce f c).data := by
  obtain ⟨hcommon, hkeys, hrec, hwait, hcase⟩ := takeMessage1_spec local_ remote snonce f c houts
  unfold onMessage1
  cases hr : takeMessage1 local_ remote snonce f c with
  | mk ok c' =>
      rw [hr] at hcommon hkeys hrec hwait hcase
      dsimp only at hcommon hkeys hrec hwait hcase
      rcases hcase with ⟨rfl, hptk, hout⟩ | ⟨rfl, hout, pmk, hpmk, hder⟩
      · refine ⟨.rest hkeys hptk (by rw [hout]; exact silent_nil), ?_⟩
        exact .waiting (.inl (hcommon ▸ hstate)) (hrec.trans hnone) (hwait.trans hfirst)
      · refine ⟨.derive pmk [.createInd] hpmk hkeys hder ?_ (by simp [silent_nil]), ?_⟩
        · show c'.outs ++ [.createInd] = _
          rw [hout]
          rfl
        · exact .waiting (.inr (.inl rfl)) (hrec.trans hnone) (hwait.trans hfirst)

/-- A Message 1 while Message 3 is awaited. -/
theorem onMessage1Again_moves (f : KeyFrame) {c : Call FwhData} (houts : c.outs = [])
    (hstate : c.common.state = .message3) (hnone : c.data.msg3Received = false)
    (hfirst : c.data.msg3RetryWait = false) (recv : Option (FwhMsg × KeyFrame)) :
    Move cfg recv c (onMessage1Again cfg local_ remote snonce f c) ∧
      Tidy (onMessage1Again cfg local_ remote snonce f c).common
        (onMessage1Again cfg local_ remote snonce f c).data := by
  obtain ⟨hcommon, hkeys, hrec, hwait, hcase⟩ := takeMessage1_spec local_ remote snonce f c houts
  unfold onMessage1Again
  cases hr : takeMessage1 local_ remote snonce f c with
  | mk ok c' =>
      rw [hr] at hcommon hkeys hrec hwait hcase
      dsimp only at hcommon hkeys hrec hwait hcase
      have hstate' : c'.common.state = .message3 := by rw [hcommon, hstate]
      have hkept : Tidy c'.common c'.data :=
        .waiting (.inr (.inr hstate')) (hrec.trans hnone) (hwait.trans hfirst)
      rcases hcase with ⟨rfl, hptk, hout⟩ | ⟨rfl, hout, pmk, hpmk, hder⟩
      · exact ⟨.rest hkeys hptk (by rw [hout]; exact silent_nil), hkept⟩
      · refine ⟨.derive pmk [.send (message2 c'.data)] hpmk hkeys hder ?_
          (by simp [silent_nil]), ?_⟩
        · show c'.outs ++ [.send (message2 c'.data)] = _
          rw [hout]
          rfl
        · exact .waiting (.inr (.inr hstate')) (hrec.trans hnone) (hwait.trans hfirst)

/-- The first Message 3. -/
theorem onMessage3_moves (f : KeyFrame) {c : Call FwhData} (houts : c.outs = [])
    (hstate : c.common.state = .message3) (hnone : c.data.msg3Received = false)
    (hfirst : c.data.msg3RetryWait = false) :
    Move cfg (some (.message3, f)) c (onMessage3 cfg f c) ∧
      Tidy (onMessage3 cfg f c).common (onMessage3 cfg f c).data := by
  obtain ⟨hcommon, hptk, heui, hrec, hwait, hcase⟩ := takeMessage3_spec f c houts
  unfold onMessage3
  cases hr : takeMessage3 f c with
  | mk ok c' =>
      rw [hr] at hcommon hptk heui hrec hwait hcase
      dsimp only at hcommon hptk heui hrec hwait hcase
      have hkept : Tidy c'.common c'.data :=
        .waiting (.inr (.inr (hcommon ▸ hstate))) (hrec.trans hnone) (hwait.trans hfirst)
      rcases hcase with ⟨rfl, hkeys, hout⟩ | ⟨kdes, hmic, hopen,
        ⟨rfl, hgtkl, hkeys, hout⟩ | ⟨gtkl, rfl, hgtkl, hkeys, hout⟩⟩
      · exact ⟨.rest hkeys hptk (by rw [hout]; exact silent_nil), hkept⟩
      · exact ⟨.reject f kdes ⟨rfl, hmic, hopen, .inl hstate⟩ hgtkl hkeys hptk hout, hkept⟩
      · have hopenState : c'.common.state ≠ .finished := by
          rw [hcommon, hstate]
          decide
        have hfirst' : c'.data.msg3RetryWait = false := hwait.trans hfirst
        simp only [Call.stateSetFinish, sendMessage4, Call.out, Call.setTicks, Call.stateSet,
          hopenState, if_false, finish, hfirst', Bool.false_eq_true, if_true]
        refine ⟨.finish f kdes gtkl c'.common.result
          [.send (message4 { c'.data with msg3Received := true })]
          ⟨rfl, hmic, hopen, .inl hstate⟩ hgtkl ?_ hptk (by simp [silent_nil]) ?_,
          .retryWait rfl rfl⟩
        · simp only [hkeys, hptk, heui]
        · simp only [hout, hptk, hfirst', List.append_assoc, List.cons_append, List.nil_append]

/-- A Message 3 that comes again. -/
theorem onMessage3Again_moves (f : KeyFrame) {c : Call FwhData} (houts : c.outs = [])
    (hstate : c.common.state = .message3RetryWait) (hwaiting : c.data.msg3RetryWait = true) :
    Move cfg (some (.message3, f)) c (onMessage3Again f c) ∧
      Tidy (onMessage3Again f c).common (onMessage3Again f c).data := by
  obtain ⟨hcommon, hptk, -, -, hwait, hcase⟩ := takeMessage3_spec f c houts
  unfold onMessage3Again
  cases hr : takeMessage3 f c with
  | mk ok c' =>
      rw [hr] at hcommon hptk hwait hcase
      dsimp only at hcommon hptk hwait hcase
      have hkept : Tidy c'.common c'.data :=
        .retryWait (hcommon ▸ hstate) (hwait.trans hwaiting)
      rcases hcase with ⟨rfl, hkeys, hout⟩ | ⟨kdes, hmic, hopen,
        ⟨rfl, hgtkl, hkeys, hout⟩ | ⟨gtkl, rfl, hgtkl, hkeys, hout⟩⟩
      · exact ⟨.rest hkeys hptk (by rw [hout]; exact silent_nil), hkept⟩
      · exact ⟨.reject f kdes ⟨rfl, hmic, hopen, .inr hstate⟩ hgtkl hkeys hptk hout, hkept⟩
      · refine ⟨.retry f kdes gtkl [.send (message4 c'.data)] ⟨rfl, hmic, hopen, .inr hstate⟩
          hgtkl hkeys hptk (by simp [silent_nil]) ?_, hkept⟩
        show c'.outs ++ [.send (message4 c'.data)] = _
        rw [hout, List.append_assoc]
        rfl

/-- **One call of the machine** is one of its moves, and leaves the instance tidy. -/
theorem machine_moves (cfg : SecCfg) (local_ remote : Eui64) (snonce : Nonce)
    (recv : Option (FwhMsg × KeyFrame)) (c : Call FwhData) (houts : c.outs = []) (htidy : Tidy c.common c.data) :
    Move cfg recv c (stateMachine cfg local_ remote snonce recv c) ∧
      Tidy (stateMachine cfg local_ remote snonce recv c).common
        (stateMachine cfg local_ remote snonce recv c).data := by
  have hstill : Move cfg recv c c ∧ Tidy c.common c.data :=
    ⟨.rest rfl rfl (by rw [houts]; exact silent_nil), htidy⟩
  cases htidy with
  | waiting hstate hnone hfirst =>
      rcases hstate with hstate | hstate | hstate
      · -- Message 1 is awaited
        simp only [stateMachine, hstate]
        split
        · exact onMessage1_moves _ houts hstate hnone hfirst _
        · exact hstill
      · -- the answer of the node is awaited
        simp only [stateMachine, hstate]
        split
        · refine ⟨.rest rfl rfl ?_, .waiting (.inr (.inr rfl)) hnone hfirst⟩
          simp [Call.stateSet, Call.setTicks, sendMessage2, Call.out, houts, silent_nil]
        · exact ⟨.rest rfl rfl (by simp [Call.stateSetFinished, houts, silent_nil]),
            .finished rfl⟩
      · -- Message 3 is awaited
        simp only [stateMachine, hstate]
        split
        · exact onMessage1Again_moves _ houts hstate hnone hfirst _
        · exact onMessage3_moves _ houts hstate hnone hfirst
        · exact hstill
  | retryWait hstate hwaiting =>
      simp only [stateMachine, hstate]
      split
      · exact ⟨.rest rfl rfl (by
          simp [Call.stateSetFinished, Call.resultSet, houts, silent_nil]), .finished rfl⟩
      · split
        · exact onMessage3Again_moves _ houts hstate hwaiting
        · exact hstill
  | finished hstate =>
      simp only [stateMachine, hstate]
      exact ⟨.rest rfl rfl (by simp [Call.finished, Call.out, houts, silent_nil]),
        .finished hstate⟩

/-- Receiving is a call of the machine with the message, if it is one that may be taken. -/
theorem receive_moves (cfg : SecCfg) (local_ remote : Eui64) (snonce : Nonce)
    (pdu : Option KeyFrame) (c : Call FwhData) (houts : c.outs = [])
    (htidy : Tidy c.common c.data) :
    ∃ recv, (∀ msg f, recv = some (msg, f) → pdu = some f ∧
        messageGet c.keys c.data f = some msg) ∧
      Move cfg recv c (receive cfg local_ remote snonce pdu c) ∧
      Tidy (receive cfg local_ remote snonce pdu c).common
        (receive cfg local_ remote snonce pdu c).data := by
  have hstill : Move cfg none c c ∧ Tidy c.common c.data :=
    ⟨.rest rfl rfl (by rw [houts]; exact silent_nil), htidy⟩
  cases pdu with
  | none => exact ⟨none, (fun _ _ h => by cases h), hstill⟩
  | some f =>
      cases hmsg : messageGet c.keys c.data f with
      | none =>
          simp only [receive, hmsg]
          exact ⟨none, (fun _ _ h => by cases h), hstill⟩
      | some msg =>
          simp only [receive, hmsg]
          refine ⟨some (msg, f), ?_, machine_moves cfg local_ remote snonce _ c houts htidy⟩
          rintro msg' f' h
          cases h
          exact ⟨rfl, hmsg⟩

/-- The timer reports no success: it runs out before Message 3, or after everything. -/
theorem timerTimeout_moves (cfg : SecCfg) (ticks : Nat) (c : Call FwhData)
    (houts : c.outs = []) (htidy : Tidy c.common c.data) :
    Move cfg none c (timerTimeout cfg ticks c) ∧
      Tidy (timerTimeout cfg ticks c).common (timerTimeout cfg ticks c).data := by
  unfold timerTimeout Call.timerTimeoutHandle
  split
  · refine ⟨.rest rfl rfl (by simp [Call.setTicks, houts, silent_nil]), ?_⟩
    cases htidy with
    | waiting hstate hnone hfirst => exact .waiting hstate hnone hfirst
    | retryWait hstate hwaiting => exact .retryWait hstate hwaiting
    | finished hstate => exact .finished hstate
  · cases htidy with
    | waiting hstate hnone hfirst =>
        have hstates : c.common.state ≠ .init ∧ c.common.state ≠ .finished := by
          rcases hstate with h | h | h <;> simp [h]
        simp only [Call.setTicks, Call.resultSet, Call.stateSetFinish, Call.stateSet, hstates,
          if_false, finish, hfirst, hnone, Bool.false_eq_true]
        refine ⟨.rest rfl rfl ?_, .finished rfl⟩
        simp [Call.stateSetFinished, Call.out, houts, silent_nil]
    | retryWait hstate hwaiting =>
        simp only [Call.setTicks, Call.resultSet, Call.stateSetFinish, Call.stateSet, hstate,
          reduceCtorEq, if_false, finish, hwaiting, if_true]
        exact ⟨.rest rfl rfl (by simp [Call.stateSetFinished, houts, silent_nil]),
          .finished rfl⟩
    | finished hstate =>
        simp only [Call.setTicks, Call.resultSet, Call.stateSetFinish, hstate, reduceCtorEq,
          if_false, if_true, Call.finished, Call.out, houts]
        exact ⟨.rest rfl rfl (by simp [silent_nil]), .finished rfl⟩

end Fwh

namespace Gkh

/-- The states an instance is in between two calls. -/
def Tidy (common : SecCommon) : Prop :=
  common.state = .message1 ∨ common.state = .createResp ∨ common.state = .finished

theorem tidy_init : Tidy init := .inl rfl

/-- A Message 1 that fits the PTK buffer, and what is wrapped in it. -/
structure Fits (recv : Option KeyFrame) (c : Call Unit) (f : KeyFrame) (kdes : Kdes) : Prop where
  message : recv = some f
  mic : f.mic = some c.keys.ptk
  opened : messageHandle c.keys.ptk f = some kdes
  state : c.common.state = .message1

/-- What one call does: nothing to the keys, or it works in a Message 1 that fits the PTK, or it
reports the success of one that was worked in. -/
inductive Move (recv : Option KeyFrame) (c c' : Call Unit) : Prop
  | rest (hkeys : c'.keys = c.keys) (houts : Silent c'.outs)
      (hstate : c'.common.state = .createResp → c.common.state = .createResp)
  | reject (f : KeyFrame) (kdes : Kdes) (hfits : Fits recv c f kdes) (hgtkl : kdes.gtkl = none)
      (hkeys : c'.keys = c.keys) (houts : c'.outs = gtkStored c.gtks kdes)
      (hstate : c'.common.state ≠ .createResp)
  | accept (f : KeyFrame) (kdes : Kdes) (gtkl : Nat) (outs : List Out)
      (hfits : Fits recv c f kdes) (hgtkl : kdes.gtkl = some gtkl)
      (hkeys : c'.keys = (c.keys.gtklSet gtkl).pmkReplayCntSet f.replayCounter)
      (houts : c'.outs =
        gtkStored c.gtks kdes ++ .did (.counterRaised f.replayCounter) :: outs)
      (hsilent : Silent outs)
  | report (outs : List Out) (hcreated : c.common.state = .createResp)
      (hkeys : c'.keys = c.keys) (hsilent : Silent outs)
      (houts : c'.outs = outs ++ [.finishedInd .ok])
      (hstate : c'.common.state ≠ .createResp)

/-- `GKH_STATE_MESSAGE_1`. -/
theorem onMessage1_moves (f : KeyFrame) {c : Call Unit} (houts : c.outs = [])
    (hstate : c.common.state = .message1) :
    Move (some f) c (onMessage1 f c) ∧ Tidy (onMessage1 f c).common := by
  have hstill : Move (some f) c c ∧ Tidy c.common :=
    ⟨.rest rfl (by rw [houts]; exact silent_nil) id, .inl hstate⟩
  unfold onMessage1
  split
  · exact hstill
  · rename_i hmic
    have hmic : f.mic = some c.keys.ptk := by simpa using hmic
    split
    · exact hstill
    · rename_i kdes hopen
      obtain ⟨hok, hcommon, -, -, hread, hkeys⟩ := c.gtkRead_spec kdes
      rw [houts, List.nil_append] at hread
      cases hr : c.gtkRead kdes with
      | mk ok c' =>
          rw [hr] at hok hcommon hread hkeys
          dsimp only at hok hcommon hread hkeys
          cases hgtkl : kdes.gtkl with
          | none =>
              rw [hgtkl] at hok hkeys
              subst hok
              have hstate' : c'.common.state = .message1 := by rw [hcommon, hstate]
              exact ⟨.reject f kdes ⟨rfl, hmic, hopen, hstate⟩ hgtkl hkeys hread
                (by simp [hstate']), .inl hstate'⟩
          | some gtkl =>
              rw [hgtkl] at hok hkeys
              subst hok
              refine ⟨.accept f kdes gtkl [.createInd] ⟨rfl, hmic, hopen, hstate⟩ hgtkl ?_ ?_
                (by simp [silent_nil]), .inr (.inl rfl)⟩
              · show c'.keys.pmkReplayCntSet f.replayCounter = _
                rw [hkeys]
              · show (c'.outs ++ [.did (.counterRaised f.replayCounter)]) ++ [.createInd] = _
                rw [hread, List.append_assoc]
                rfl

/-- **One call of the machine** is one of its moves, and leaves the instance tidy. -/
theorem machine_moves (recv : Option KeyFrame) (c : Call Unit) (houts : c.outs = [])
    (htidy : Tidy c.common) :
    Move recv c (stateMachine recv c) ∧ Tidy (stateMachine recv c).common := by
  have hstill : Move recv c c ∧ Tidy c.common :=
    ⟨.rest rfl (by rw [houts]; exact silent_nil) id, htidy⟩
  rcases htidy with hstate | hstate | hstate
  · simp only [stateMachine, hstate]
    cases recv with
    | none => exact hstill
    | some f => exact onMessage1_moves f houts hstate
  · simp only [stateMachine, hstate]
    split
    · rename_i hok
      simp only [Call.stateSetFinish, sendMessage2, Call.out, hstate, reduceCtorEq, if_false,
        houts, List.nil_append, Call.setTicks, Call.stateSet, finish, hok]
      exact ⟨.report [.send _] hstate rfl (by simp [silent_nil]) rfl (by
        simp [Call.stateSetFinished]), .inr (.inr rfl)⟩
    · exact ⟨.rest rfl (by simp [Call.stateSetFinished, houts, silent_nil]) (by
        simp [Call.stateSetFinished]), .inr (.inr rfl)⟩
  · simp only [stateMachine, hstate]
    exact ⟨.rest rfl (by simp [Call.finished, Call.out, houts, silent_nil]) (by
      simp [Call.finished, Call.out, hstate]), .inr (.inr hstate)⟩

/-- Receiving is a call of the machine with the message, if it is one that may be taken. -/
theorem receive_moves (pdu : Option KeyFrame) (c : Call Unit) (houts : c.outs = [])
    (htidy : Tidy c.common) :
    ∃ recv, (∀ f, recv = some f → pdu = some f ∧ messageGet c.keys f = true) ∧
      Move recv c (receive pdu c) ∧ Tidy (receive pdu c).common := by
  have hstill : Move none c c ∧ Tidy c.common :=
    ⟨.rest rfl (by rw [houts]; exact silent_nil) id, htidy⟩
  cases pdu with
  | none => exact ⟨none, (fun _ h => by cases h), hstill⟩
  | some f =>
      cases hmsg : messageGet c.keys f with
      | false =>
          simp only [receive, hmsg]
          exact ⟨none, (fun _ h => by cases h), hstill⟩
      | true =>
          simp only [receive, hmsg]
          refine ⟨some f, ?_, machine_moves _ c houts htidy⟩
          rintro f' h
          cases h
          exact ⟨rfl, hmsg⟩

/-- The timer reports no success. -/
theorem timerTimeout_moves (ticks : Nat) (c : Call Unit) (houts : c.outs = [])
    (htidy : Tidy c.common) :
    Move none c (timerTimeout ticks c) ∧ Tidy (timerTimeout ticks c).common := by
  unfold timerTimeout Call.timerTimeoutHandle
  split
  · exact ⟨.rest rfl (by simp [Call.setTicks, houts, silent_nil]) id, htidy⟩
  · by_cases hfin : c.common.state = .finished
    · simp only [Call.setTicks, Call.resultSet, Call.stateSetFinish, hfin, reduceCtorEq,
        if_false, if_true, Call.finished, Call.out, houts]
      exact ⟨.rest rfl (by simp [silent_nil]) (by simp), .inr (.inr rfl)⟩
    · have hinit : c.common.state ≠ .init := by
        rcases htidy with h | h | h <;> simp [h]
      simp only [Call.setTicks, Call.resultSet, Call.stateSetFinish, hfin, hinit, if_false,
        finish, Call.stateSet, Call.out, houts]
      exact ⟨.rest rfl (by simp [Call.stateSetFinished, silent_nil]) (by
        simp [Call.stateSetFinished]), .inr (.inr rfl)⟩

end Gkh

end Pae
