import WisunModem.SuppHandshakes

/-!
# The handshakes of the authenticator

The other ends of the two handshakes (`auth_fwh_sec_prot.c`, `auth_gkh_sec_prot.c`).  Each
message is built anew when it is sent again, under the next replay counter of the PMK; the
answer has to carry the counter of the message sent last.

* `Numbered` — what sending does to the keys: the counter rises, within its block of sixteen
  bits, and every message has the value the counter had when it was sent;
* `AuthFwh.machine_carries`, `AuthGkh.machine_carries` — that is all a call does to the PMK and
  its counter.
-/

namespace Pae

/-- `sec_prot_keys_get_gtk_to_insert` with the lifetime that goes with it. -/
def getGtkToInsert (keys : SecKeys) (gtks : Gtks) : Option (Fin 4 × Gtk × Nat) :=
  match keys.gtkSetIndex with
  | none => none
  | some index => (gtks.gtk index).map fun slot => (index, slot.1, slot.2)

/-- The KDEs of a message that carries a GTK; `gtkl` is `sec_prot_keys_fresh_gtkl_get`. -/
def gtkKdes (keys : SecKeys) (gtks : Gtks) (gtkl : Nat) : Kdes :=
  match getGtkToInsert keys gtks with
  | none => { gtkl := some gtkl }
  | some (index, gtk, lifetime) =>
      { gtk := some (index, gtk), lifetime := some lifetime, gtkl := some gtkl }

/-- `sec_prot_keys_gtkl_from_gtk_insert_index_set`. -/
def SecKeys.gtklFromGtkInsertIndexSet (keys : SecKeys) : SecKeys :=
  match keys.gtkSetIndex with
  | none => keys
  | some index => { keys with gtkl := keys.gtkl ||| 2 ^ index.val, gtkSetIndex := none }

/-- A message is sent only if the counter could be incremented. -/
def Call.sendNext {δ : Type} (c : Call δ) (build : SecKeys → KeyFrame) : Call δ :=
  match c.keys.pmkReplayCntIncrement with
  | (false, keys) => { c with keys := keys }
  | (true, keys) => { c with keys := keys }.out (.send (build keys))

/-! ## The 4-way handshake -/

/-- `fwh_sec_prot_int_t` of the authenticator, and `trickle_running`. -/
structure AuthFwhData where
  nonce : Nonce
  newPtk : Ptk
  remoteEui64 : Eui64
  trickleRunning : Bool
  deriving DecidableEq, Repr

/-- The messages the authenticator takes part in the handshake by. -/
inductive AuthFwhMsg
  | message2 | message4
  deriving DecidableEq, Repr

namespace AuthFwh

/-- `auth_fwh_sec_prot_init`: the machine has passed `FWH_STATE_INIT` when it returns. -/
def init (nonce : Nonce) : SecCommon × AuthFwhData :=
  ({ state := .createReq, result := .ok, ticks := 15 * 10 },
    { nonce := nonce, newPtk := .zero, remoteEui64 := 0, trickleRunning := false })

/-- `auth_fwh_sec_prot_message_get`. -/
def messageGet (keys : SecKeys) (f : KeyFrame) : Option AuthFwhMsg :=
  if !f.pairwiseKey then none
  else
    match f.keyMask with
    | (false, false, true, false) =>
        if f.replayCounter = keys.pmkKeyReplayCnt then some .message2 else none
    | (false, false, true, true) =>
        if f.replayCounter = keys.pmkKeyReplayCnt then some .message4 else none
    | _ => none

/-- `sec_prot_lib_pmkid_generate` of the authenticator. -/
def pmkidGenerate (keys : SecKeys) (local_ remote : Eui64) : Option Pmkid :=
  keys.pmk.map fun pmk => .calc pmk local_ (keys.ptkEui64.getD remote)

def message1 (d : AuthFwhData) (pmkid : Pmkid) (keys : SecKeys) : KeyFrame :=
  messageBuild d.newPtk (some { pmkid := some pmkid })
    { KeyFrame.init with
      pairwiseKey := true, keyAck := true, replayCounter := keys.pmkKeyReplayCnt,
      keyNonce := d.nonce }

def message3 (d : AuthFwhData) (kdes : Kdes) (keys : SecKeys) : KeyFrame :=
  messageBuild d.newPtk (some kdes)
    { KeyFrame.init with
      pairwiseKey := true, install := true, keyAck := true, keyMic := true,
      securedKeyFrame := true, encryptedKeyData := true, replayCounter := keys.pmkKeyReplayCnt,
      keyNonce := d.nonce }

/-- `auth_fwh_sec_prot_message_send` of Message 1. -/
def sendMessage1 (local_ remote : Eui64) (c : Call AuthFwhData) : Call AuthFwhData :=
  match pmkidGenerate c.keys local_ remote with
  | none => c
  | some pmkid => c.sendNext (message1 c.data pmkid)

/-- `auth_fwh_sec_prot_message_send` of Message 3. -/
def sendMessage3 (gtkl : Nat) (c : Call AuthFwhData) : Call AuthFwhData :=
  c.sendNext (message3 c.data (gtkKdes c.keys c.gtks gtkl))

/-- `FWH_STATE_FINISH`. -/
def finish (c : Call AuthFwhData) : Call AuthFwhData :=
  let c := (c.out (.finishedInd c.common.result)).stateSetFinished
  { c with data := { c.data with trickleRunning := false } }

/-- `sec_prot_lib_nonce_generate` and Message 1. -/
def startMessage1 (local_ remote : Eui64) (nonce : Nonce) (c : Call AuthFwhData) :
    Call AuthFwhData :=
  sendMessage1 local_ remote { c with data := { c.data with nonce := nonce } }

/-- `FWH_STATE_CREATE_REQ`. -/
def onCreateReq (local_ remote : Eui64) (nonce : Nonce) (c : Call AuthFwhData) :
    Call AuthFwhData :=
  let c := c.setTicks (30 * 60 * 10)
  match c.keys.pmk with
  | none => c.stateSetFinished
  | some _ =>
      let c := startMessage1 local_ remote nonce c
      { c with data := { c.data with trickleRunning := true } }.stateSet .message2

/-- `FWH_STATE_MESSAGE_2`, Message 2: the PTK is computed first and wiped if the MIC does not
fit.  Without a PMK there is nothing to compute it from. -/
def onMessage2 (local_ remote : Eui64) (gtkl : Nat) (f : KeyFrame) (c : Call AuthFwhData) :
    Call AuthFwhData :=
  match c.keys.pmk with
  | none => c
  | some pmk =>
      let ptk := ptkCalc pmk local_ remote c.data.nonce f.keyNonce
      if !micValidate ptk f then
        { c with data := { c.data with remoteEui64 := remote, newPtk := .zero } }
      else
        let c := sendMessage3 gtkl
          { c with data := { c.data with remoteEui64 := remote, newPtk := ptk } }
        { c with data := { c.data with trickleRunning := true } }.stateSet .message4

/-- `FWH_STATE_MESSAGE_4`, Message 4. -/
def onMessage4 (cfg : SecCfg) (f : KeyFrame) (c : Call AuthFwhData) : Call AuthFwhData :=
  if !micValidate c.data.newPtk f then c
  else
    let keys := c.keys.gtklFromGtkInsertIndexSet
    let keys := (keys.ptkWrite c.data.newPtk cfg.ptkLifetime).ptkEui64Write c.data.remoteEui64
    ({ c with keys := keys }.out (.did (.ptkWritten c.data.newPtk))).stateSetFinish finish

/-- `auth_fwh_sec_prot_state_machine`; a call from the timer or the event queue has no message. -/
def stateMachine (cfg : SecCfg) (local_ remote : Eui64) (nonce : Nonce) (gtkl : Nat)
    (recv : Option (AuthFwhMsg × KeyFrame)) (c : Call AuthFwhData) : Call AuthFwhData :=
  match c.common.state with
  | .createReq => onCreateReq local_ remote nonce c
  | .message2 =>
      if c.common.result = .timeout then startMessage1 local_ remote nonce (c.resultSet .ok)
      else
        match recv with
        | some (.message2, f) => onMessage2 local_ remote gtkl f c
        | _ => c
  | .message4 =>
      if c.common.result = .timeout then sendMessage3 gtkl (c.resultSet .ok)
      else
        match recv with
        | some (.message4, f) => onMessage4 cfg f c
        | _ => c
  | .finish => finish c
  | .finished => c.finished
  | _ => c

/-- `auth_fwh_sec_prot_receive`. -/
def receive (cfg : SecCfg) (local_ remote : Eui64) (nonce : Nonce) (gtkl : Nat)
    (pdu : Option KeyFrame) (c : Call AuthFwhData) : Call AuthFwhData :=
  match pdu with
  | none => c
  | some f =>
      match messageGet c.keys f with
      | none => c
      | some msg => stateMachine cfg local_ remote nonce gtkl (some (msg, f)) c

/-- `sec_prot_timer_timeout_handle` with a trickle timer: `expired` if it fires, `ended` if that
was for the last time. -/
def timerTimeout (cfg : SecCfg) (local_ remote : Eui64) (nonce : Nonce) (gtkl ticks : Nat)
    (expired ended : Bool) (c : Call AuthFwhData) : Call AuthFwhData :=
  let running := c.data.trickleRunning
  let c :=
    if running && expired then
      stateMachine cfg local_ remote nonce gtkl none (c.resultSet .timeout)
    else c
  let c := if running && ended then (c.resultSet .timeout).stateSetFinish finish else c
  c.timerTimeoutHandle finish ticks

end AuthFwh

/-! ## The group key handshake -/

namespace AuthGkh

/-- `auth_gkh_sec_prot_init`. -/
def init : SecCommon := { state := .createReq, result := .ok, ticks := 60 * 10 }

/-- `auth_gkh_sec_prot_message_get`: is it a Message 2? -/
def messageGet (keys : SecKeys) (f : KeyFrame) : Bool :=
  if f.pairwiseKey then false
  else
    match f.keyMask with
    | (false, false, true, true) => decide (f.replayCounter = keys.pmkKeyReplayCnt)
    | _ => false

def message1 (kdes : Kdes) (keys : SecKeys) : KeyFrame :=
  messageBuild keys.ptk (some kdes)
    { KeyFrame.init with
      keyAck := true, keyMic := true, securedKeyFrame := true, encryptedKeyData := true,
      replayCounter := keys.pmkKeyReplayCnt }

/-- `auth_gkh_sec_prot_message_send`; the data of the instance is `trickle_running`. -/
def sendMessage1 (gtkl : Nat) (c : Call Bool) : Call Bool :=
  c.sendNext (message1 (gtkKdes c.keys c.gtks gtkl))

/-- `GKH_STATE_FINISH`. -/
def finish (c : Call Bool) : Call Bool :=
  { (c.out (.finishedInd c.common.result)).stateSetFinished with data := false }

/-- `GKH_STATE_CREATE_REQ`. -/
def onCreateReq (gtkl : Nat) (c : Call Bool) : Call Bool :=
  { sendMessage1 gtkl (c.setTicks (30 * 60 * 10)) with data := true }.stateSet .message2

/-- `GKH_STATE_MESSAGE_2`, Message 2. -/
def onMessage2 (f : KeyFrame) (c : Call Bool) : Call Bool :=
  if !micValidate c.keys.ptk f then c
  else { c with keys := c.keys.gtklFromGtkInsertIndexSet }.stateSetFinish finish

/-- `auth_gkh_sec_prot_state_machine`. -/
def stateMachine (gtkl : Nat) (recv : Option KeyFrame) (c : Call Bool) : Call Bool :=
  match c.common.state with
  | .createReq => onCreateReq gtkl c
  | .message2 =>
      if c.common.result = .timeout then sendMessage1 gtkl (c.resultSet .ok)
      else
        match recv with
        | some f => onMessage2 f c
        | none => c
  | .finish => finish c
  | .finished => c.finished
  | _ => c

/-- `auth_gkh_sec_prot_receive`. -/
def receive (gtkl : Nat) (pdu : Option KeyFrame) (c : Call Bool) : Call Bool :=
  match pdu with
  | none => c
  | some f => if messageGet c.keys f then stateMachine gtkl (some f) c else c

/-- `sec_prot_timer_timeout_handle`, as for the 4-way handshake. -/
def timerTimeout (gtkl ticks : Nat) (expired ended : Bool) (c : Call Bool) : Call Bool :=
  let running := c.data
  let c := if running && expired then stateMachine gtkl none (c.resultSet .timeout) else c
  let c := if running && ended then (c.resultSet .timeout).stateSetFinish finish else c
  c.timerTimeoutHandle finish ticks

end AuthGkh

/-! ## Counters -/

/-- The messages among what a call asks of its caller. -/
def sentBy (outs : List Out) : List KeyFrame :=
  outs.filterMap fun
    | .send f => some f
    | _ => none

/-- The messages `fs`, oldest first, have gone out while the keys changed from one value to the
other. -/
structure Numbered (keys keys' : SecKeys) (fs : List KeyFrame) : Prop where
  pmk : keys'.pmk = keys.pmk
  le : keys.pmkKeyReplayCnt ≤ keys'.pmkKeyReplayCnt
  block : keys'.pmkKeyReplayCnt / 2 ^ 16 = keys.pmkKeyReplayCnt / 2 ^ 16
  set : keys.pmkKeyReplayCntSet = true → keys'.pmkKeyReplayCntSet = true
  sent : ∀ f ∈ fs, keys'.pmkKeyReplayCntSet = true ∧
    keys.pmkKeyReplayCnt ≤ f.replayCounter ∧ f.replayCounter ≤ keys'.pmkKeyReplayCnt ∧
    (keys.pmkKeyReplayCntSet = true → keys.pmkKeyReplayCnt < f.replayCounter)
  rising : fs.Pairwise fun f f' => f.replayCounter < f'.replayCounter

/-- Nothing was sent. -/
theorem Numbered.quiet {keys keys' : SecKeys} (hpmk : keys'.pmk = keys.pmk)
    (hcnt : keys'.pmkKeyReplayCnt = keys.pmkKeyReplayCnt)
    (hset : keys'.pmkKeyReplayCntSet = keys.pmkKeyReplayCntSet) : Numbered keys keys' [] where
  pmk := hpmk
  le := hcnt.ge
  block := by rw [hcnt]
  set := fun h => hset.trans h
  sent := fun _ hmem => by cases hmem
  rising := .nil

theorem Numbered.trans {keys keys' keys'' : SecKeys} {fs fs' : List KeyFrame}
    (h : Numbered keys keys' fs) (h' : Numbered keys' keys'' fs') :
    Numbered keys keys'' (fs ++ fs') where
  pmk := h'.pmk.trans h.pmk
  le := h.le.trans h'.le
  block := h'.block.trans h.block
  set := fun hset => h'.set (h.set hset)
  sent := by
    intro f hmem
    rcases List.mem_append.mp hmem with hmem | hmem
    · obtain ⟨hset, hfrom, hto, hlt⟩ := h.sent f hmem
      exact ⟨h'.set hset, hfrom, hto.trans h'.le, hlt⟩
    · obtain ⟨hset, hfrom, hto, hlt⟩ := h'.sent f hmem
      exact ⟨hset, h.le.trans hfrom, hto, fun hs => lt_of_le_of_lt h.le (hlt (h.set hs))⟩
  rising := by
    refine List.pairwise_append.mpr ⟨h.rising, h'.rising, ?_⟩
    intro f hmem f' hmem'
    obtain ⟨hset, -, hto, -⟩ := h.sent f hmem
    obtain ⟨-, -, -, hlt⟩ := h'.sent f' hmem'
    exact lt_of_le_of_lt hto (hlt hset)

/-- The increment, if it succeeds, is followed by one message under the counter it leaves. -/
theorem numbered_increment {keys keys' : SecKeys} {done : Bool} {f : KeyFrame}
    (h : keys.pmkReplayCntIncrement = (done, keys'))
    (hf : done = true → f.replayCounter = keys'.pmkKeyReplayCnt) :
    Numbered keys keys' (if done then [f] else []) := by
  unfold SecKeys.pmkReplayCntIncrement at h
  split at h
  · rename_i hunset
    cases h
    have hcounter : f.replayCounter = keys.pmkKeyReplayCnt := hf rfl
    refine ⟨rfl, le_rfl, rfl, fun _ => rfl, ?_, List.pairwise_singleton _ _⟩
    rintro f' hmem
    obtain rfl := List.mem_singleton.mp hmem
    exact ⟨rfl, hcounter.ge, hcounter.le, fun hset => by simp [hset] at hunset⟩
  · rename_i hset
    have hset : keys.pmkKeyReplayCntSet = true := by simpa using hset
    split at h
    · cases h
      refine ⟨rfl, ?_, ?_, fun h => h, fun _ hmem => (by cases hmem), .nil⟩
      · dsimp only
        omega
      · dsimp only
        omega
    · cases h
      have hcounter : f.replayCounter = keys.pmkKeyReplayCnt + 1 := hf rfl
      refine ⟨rfl, ?_, ?_, fun h => h, ?_, List.pairwise_singleton _ _⟩
      · dsimp only
        omega
      · dsimp only
        omega
      · rintro f' hmem
        obtain rfl := List.mem_singleton.mp hmem
        exact ⟨hset, by omega, hcounter.le, fun _ => by omega⟩

/-- What a call has sent since, and what that did to the keys. -/
def Carries {δ : Type} (c c' : Call δ) : Prop :=
  ∃ fs, sentBy c'.outs = sentBy c.outs ++ fs ∧ Numbered c.keys c'.keys fs

namespace Carries

variable {δ : Type} {c c' c'' : Call δ}

theorem trans (c' : Call δ) (h : Carries c c') (h' : Carries c' c'') : Carries c c'' := by
  obtain ⟨fs, houts, hnum⟩ := h
  obtain ⟨fs', houts', hnum'⟩ := h'
  exact ⟨fs ++ fs', by rw [houts', houts, List.append_assoc], hnum.trans hnum'⟩

theorem quiet (houts : sentBy c'.outs = sentBy c.outs) (hpmk : c'.keys.pmk = c.keys.pmk)
    (hcnt : c'.keys.pmkKeyReplayCnt = c.keys.pmkKeyReplayCnt)
    (hset : c'.keys.pmkKeyReplayCntSet = c.keys.pmkKeyReplayCntSet) : Carries c c' :=
  ⟨[], by rw [houts, List.append_nil], .quiet hpmk hcnt hset⟩

theorem refl (c : Call δ) : Carries c c := quiet rfl rfl rfl rfl

theorem ite (b : Bool) (h : Carries c c') (h' : Carries c c'') :
    Carries c (if b then c' else c'') := by
  cases b
  · exact h'
  · exact h

theorem sendNext (c : Call δ) (build : SecKeys → KeyFrame)
    (hbuild : ∀ keys, (build keys).replayCounter = keys.pmkKeyReplayCnt) :
    Carries c (c.sendNext build) := by
  unfold Call.sendNext
  split
  · rename_i keys hincrement
    exact ⟨[], by simp, numbered_increment (f := KeyFrame.init) hincrement (by simp)⟩
  · rename_i keys hincrement
    exact ⟨[build keys], by simp [Call.out, sentBy],
      numbered_increment hincrement fun _ => hbuild keys⟩

theorem stateSetFinish {finish : Call δ → Call δ} (hfinish : ∀ c, Carries c (finish c))
    (c : Call δ) : Carries c (c.stateSetFinish finish) := by
  unfold Call.stateSetFinish
  split
  · exact quiet (by simp [Call.finished, Call.out, Call.setTicks, sentBy]) rfl rfl rfl
  · exact trans _ (quiet rfl rfl rfl rfl) (hfinish _)

theorem timerTimeoutHandle {finish : Call δ → Call δ} (hfinish : ∀ c, Carries c (finish c))
    (ticks : Nat) (c : Call δ) : Carries c (c.timerTimeoutHandle finish ticks) := by
  unfold Call.timerTimeoutHandle
  split
  · exact quiet rfl rfl rfl rfl
  · dsimp only
    split
    · exact quiet rfl rfl rfl rfl
    · exact trans _ (quiet rfl rfl rfl rfl) (stateSetFinish hfinish _)

end Carries

theorem gtklFromGtkInsertIndexSet_frame (keys : SecKeys) :
    keys.gtklFromGtkInsertIndexSet.pmk = keys.pmk ∧
      keys.gtklFromGtkInsertIndexSet.pmkKeyReplayCnt = keys.pmkKeyReplayCnt ∧
      keys.gtklFromGtkInsertIndexSet.pmkKeyReplayCntSet = keys.pmkKeyReplayCntSet := by
  unfold SecKeys.gtklFromGtkInsertIndexSet
  split <;> exact ⟨rfl, rfl, rfl⟩

namespace AuthFwh

variable (cfg : SecCfg) (local_ remote : Eui64) (nonce : Nonce) (gtkl : Nat)

theorem finish_carries (c : Call AuthFwhData) : Carries c (finish c) :=
  .quiet (by simp [finish, Call.stateSetFinished, Call.out, sentBy]) rfl rfl rfl

theorem sendMessage1_carries (c : Call AuthFwhData) :
    Carries c (sendMessage1 local_ remote c) := by
  unfold sendMessage1
  split
  · exact .refl c
  · exact .sendNext c _ fun _ => rfl

theorem sendMessage3_carries (c : Call AuthFwhData) : Carries c (sendMessage3 gtkl c) :=
  .sendNext c _ fun _ => rfl

theorem startMessage1_carries (c : Call AuthFwhData) :
    Carries c (startMessage1 local_ remote nonce c) :=
  .trans ({ c with data := { c.data with nonce := nonce } }) (.quiet rfl rfl rfl rfl)
    (sendMessage1_carries local_ remote _)

theorem onCreateReq_carries (c : Call AuthFwhData) :
    Carries c (onCreateReq local_ remote nonce c) := by
  unfold onCreateReq
  dsimp only
  split
  · exact .quiet rfl rfl rfl rfl
  · refine .trans (startMessage1 local_ remote nonce (c.setTicks (30 * 60 * 10))) ?_
      (.quiet rfl rfl rfl rfl)
    exact .trans (c.setTicks (30 * 60 * 10)) (.quiet rfl rfl rfl rfl)
      (startMessage1_carries local_ remote nonce _)

theorem onMessage2_carries (f : KeyFrame) (c : Call AuthFwhData) :
    Carries c (onMessage2 local_ remote gtkl f c) := by
  unfold onMessage2
  split
  · exact .refl c
  · dsimp only
    split
    · exact .quiet rfl rfl rfl rfl
    · refine .trans _ ?_ (.quiet rfl rfl rfl rfl)
      exact .trans _ (.quiet rfl rfl rfl rfl) (sendMessage3_carries gtkl _)

theorem onMessage4_carries (f : KeyFrame) (c : Call AuthFwhData) :
    Carries c (onMessage4 cfg f c) := by
  unfold onMessage4
  split
  · exact .refl c
  · obtain ⟨hpmk, hcnt, hset⟩ := gtklFromGtkInsertIndexSet_frame c.keys
    refine .trans _ ?_ (.stateSetFinish finish_carries _)
    exact .quiet (by simp [Call.out, sentBy]) hpmk hcnt hset

/-- **The 4-way handshake** counts what it sends. -/
theorem machine_carries (recv : Option (AuthFwhMsg × KeyFrame)) (c : Call AuthFwhData) :
    Carries c (stateMachine cfg local_ remote nonce gtkl recv c) := by
  unfold stateMachine
  split
  · exact onCreateReq_carries local_ remote nonce c
  · split
    · exact .trans (c.resultSet .ok) (.quiet rfl rfl rfl rfl)
        (startMessage1_carries local_ remote nonce _)
    · split
      · exact onMessage2_carries local_ remote gtkl _ c
      · exact .refl c
  · split
    · exact .trans (c.resultSet .ok) (.quiet rfl rfl rfl rfl)
        (sendMessage3_carries gtkl _)
    · split
      · exact onMessage4_carries cfg _ c
      · exact .refl c
  · exact finish_carries c
  · exact .quiet (by simp [Call.finished, Call.out, sentBy]) rfl rfl rfl
  · exact .refl c

theorem receive_carries (pdu : Option KeyFrame) (c : Call AuthFwhData) :
    Carries c (receive cfg local_ remote nonce gtkl pdu c) := by
  unfold receive
  split
  · exact .refl c
  · split
    · exact .refl c
    · exact machine_carries cfg local_ remote nonce gtkl _ c

theorem timerTimeout_carries (ticks : Nat) (expired ended : Bool) (c : Call AuthFwhData) :
    Carries c (timerTimeout cfg local_ remote nonce gtkl ticks expired ended c) := by
  unfold timerTimeout
  dsimp only
  refine .trans _ ?_ (.timerTimeoutHandle finish_carries ticks _)
  refine .trans _ (.ite _ ?_ (.refl c)) (.ite _ ?_ (.refl _))
  · exact .trans (c.resultSet .timeout) (.quiet rfl rfl rfl rfl)
      (machine_carries cfg local_ remote nonce gtkl none _)
  · exact .trans _ (.quiet rfl rfl rfl rfl) (.stateSetFinish finish_carries _)

end AuthFwh

namespace AuthGkh

variable (gtkl : Nat)

theorem finish_carries (c : Call Bool) : Carries c (finish c) :=
  .quiet (by simp [finish, Call.stateSetFinished, Call.out, sentBy]) rfl rfl rfl

theorem sendMessage1_carries (c : Call Bool) : Carries c (sendMessage1 gtkl c) :=
  .sendNext c _ fun _ => rfl

theorem onMessage2_carries (f : KeyFrame) (c : Call Bool) : Carries c (onMessage2 f c) := by
  unfold onMessage2
  split
  · exact .refl c
  · obtain ⟨hpmk, hcnt, hset⟩ := gtklFromGtkInsertIndexSet_frame c.keys
    exact .trans { c with keys := c.keys.gtklFromGtkInsertIndexSet } (.quiet rfl hpmk hcnt hset)
      (.stateSetFinish finish_carries _)

/-- **The group key handshake** counts what it sends. -/
theorem machine_carries (recv : Option KeyFrame) (c : Call Bool) :
    Carries c (stateMachine gtkl recv c) := by
  unfold stateMachine
  split
  · refine .trans (sendMessage1 gtkl (c.setTicks (30 * 60 * 10))) ?_
      (.quiet rfl rfl rfl rfl)
    exact .trans _ (.quiet rfl rfl rfl rfl) (sendMessage1_carries gtkl _)
  · split
    · exact .trans (c.resultSet .ok) (.quiet rfl rfl rfl rfl) (sendMessage1_carries gtkl _)
    · split
      · exact onMessage2_carries _ c
      · exact .refl c
  · exact finish_carries c
  · exact .quiet (by simp [Call.finished, Call.out, sentBy]) rfl rfl rfl
  · exact .refl c

theorem receive_carries (pdu : Option KeyFrame) (c : Call Bool) :
    Carries c (receive gtkl pdu c) := by
  unfold receive
  split
  · exact .refl c
  · split
    · exact machine_carries gtkl _ c
    · exact .refl c

theorem timerTimeout_carries (ticks : Nat) (expired ended : Bool) (c : Call Bool) :
    Carries c (timerTimeout gtkl ticks expired ended c) := by
  unfold timerTimeout
  dsimp only
  refine .trans _ ?_ (.timerTimeoutHandle finish_carries ticks _)
  refine .trans _ (.ite _ ?_ (.refl c)) (.ite _ ?_ (.refl _))
  · exact .trans (c.resultSet .timeout) (.quiet rfl rfl rfl rfl)
      (machine_carries gtkl none _)
  · exact .trans _ (.quiet rfl rfl rfl rfl) (.stateSetFinish finish_carries _)

end AuthGkh

end Pae
