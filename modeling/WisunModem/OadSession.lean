import WisunModem.Oad

/-!
# Isolation of OAD sessions

A session runs from an accepted notification to the abort message or to the
reset into the image.  Aborting zeroes the handle, but it neither drains the
event queue nor cancels a timer, so what keeps sessions apart is that nothing
else waits when an abort is processed.

In a run in which block responses and timeouts come in turn, the event queue
and the two timers take one of eight shapes (`Stage`); outside a session there
is nothing in either, so nothing of a finished session is left for a later one.
-/

namespace Oad

open ByteStore Runs

/-! ## Sessions in what the client sends -/

/-- Where the last session stands. -/
inductive Session
  | none
  | running
  | aborted
  deriving DecidableEq, Repr

/-- The response by which a notification is accepted. -/
def OadOut.opens : OadOut → Bool
  | .notifRsp _ status sent => status == 1 && sent
  | _ => false

/-- The outputs of a session: its requests and its two outcomes. -/
def OadOut.ofSession : OadOut → Bool
  | .blockReq _ | .completeReq _ _ | .abortMsg | .reset => true
  | _ => false

def Session.after (session : Session) (o : OadOut) : Session :=
  if o.opens then .running
  else
    match o with
    | .abortMsg => .aborted
    | .reset => .none
    | _ => session

/-- The session a log of outputs ends in. -/
def sessionOf (out : List OadOut) : Session := out.foldl Session.after .none

/-- Every request and every outcome comes in a session still running, and a
notification is accepted only outside one.  So each accepted notification has at
most one outcome, after which nothing is requested until the next one. -/
def Orderly (out : List OadOut) : Prop :=
  ∀ pre o post, out = pre ++ o :: post →
    (o.ofSession = true → sessionOf pre = .running) ∧
      (o.opens = true → sessionOf pre ≠ .running)

/-- Sessions are kept apart: the log is orderly, outside a session no event and
no timer is left, and after an abort the handle is zero. -/
structure Isolated (s : OadState) : Prop where
  orderly : Orderly s.out
  quiet : sessionOf s.out ≠ .running →
    s.queue = [] ∧ s.reqTimer = .idle ∧ s.completeTimer = .idle
  zero : sessionOf s.out = .aborted → s.handle = OadHandle.zero

/-- Callbacks and timeouts come in turn: a block response is accepted only when
neither a received block nor an abort is queued, a block request times out only
when no received block is queued, and after an abort no notification of the
right size is turned down. -/
def InTurn (dev : Device) (s : OadState) : OadAct → Prop
  | .request env _ hdr =>
      sessionOf s.out = .aborted → StoresInfo s hdr → OpensTransfer dev env s hdr
  | .imgRsp hdr => AcceptsRsp s hdr → .blockRecv ∉ s.queue ∧ .abort ∉ s.queue
  | .timerEvent _ .blockReq => .blockRecv ∉ s.queue
  | _ => True

@[simp] theorem sessionOf_snoc (out : List OadOut) (o : OadOut) :
    sessionOf (out ++ [o]) = (sessionOf out).after o := by
  simp [sessionOf]

theorem orderly_nil : Orderly [] := by
  intro pre o post h
  simp at h

theorem orderly_snoc {out : List OadOut} {o : OadOut} (h : Orderly out)
    (hreq : o.ofSession = true → sessionOf out = .running)
    (hopen : o.opens = true → sessionOf out ≠ .running) :
    Orderly (out ++ [o]) := by
  intro pre o' post heq
  rcases List.eq_nil_or_concat post with rfl | ⟨post', last, rfl⟩
  · obtain ⟨rfl, hlast⟩ := List.append_inj' heq rfl
    cases hlast
    exact ⟨hreq, hopen⟩
  · rw [List.concat_eq_append, ← List.cons_append, ← List.append_assoc] at heq
    exact h pre o' post' (List.append_inj' heq rfl).1

/-! ## Stages of a session -/

/-- The shapes the event queue and the timers take. -/
inductive Stage
  | idle
  | requesting
  | waiting
  | received
  | late
  | aborting
  | completing
  | finishing
  deriving DecidableEq, Repr

/-- The events that wait, oldest first. -/
def Stage.queue : Stage → List OadEvt
  | .idle | .waiting | .finishing => []
  | .requesting => [.blockReq]
  | .received => [.blockRecv]
  | .late => [.blockReq, .blockRecv]
  | .aborting => [.abort]
  | .completing => [.complete]

/-- Whether the block request timer runs or its event waits. -/
def Stage.reqLoad : Stage → Nat
  | .waiting | .received => 1
  | _ => 0

def Stage.completeLoad : Stage → Nat
  | .finishing => 1
  | _ => 0

def Stage.isOpen : Stage → Bool
  | .idle => false
  | _ => true

/-- Stages in which a block response may still be taken for the current
block. -/
def Stage.listens : Stage → Bool
  | .idle | .completing | .finishing => false
  | _ => true

def Timer.load (t : Timer) : Nat := t.pending + t.queued

/-- The client is at a stage. -/
structure AtStage (stage : Stage) (s : OadState) : Prop where
  queue : s.queue = stage.queue
  req : s.reqTimer.load = stage.reqLoad
  complete : s.completeTimer.load = stage.completeLoad
  inProgress : s.handle.oadInProgress = stage.isOpen
  silent : stage.listens = false → s.handle.blockReqInProgress = false
  sent : s.completeReqSent = (stage == .finishing)
  session : sessionOf s.out = .running ↔ stage.isOpen = true
  zero : sessionOf s.out = .aborted → s.handle = OadHandle.zero
  orderly : Orderly s.out

theorem Stage.ne_finishing {stage : Stage} (h : stage.completeLoad = 0) :
    (stage == .finishing) = false := by
  cases stage <;> first | rfl | cases h

theorem Timer.eq_idle {t : Timer} (h : t.load = 0) : t = .idle := by
  obtain ⟨pending, queued⟩ := t
  simp only [Timer.load, Nat.add_eq_zero_iff] at h
  obtain ⟨rfl, rfl⟩ := h
  rfl

theorem Timer.load_request {t : Timer} (h : t.load = 0) :
    t.request.load = 1 := by
  simp only [Timer.load, Timer.request] at h ⊢
  omega

theorem Timer.load_cancel {t : Timer} (h : t.load = 1) :
    t.cancel.load = 0 := by
  simp only [Timer.load, Timer.cancel] at h ⊢
  omega

theorem AtStage.isolated {stage : Stage} {s : OadState} (h : AtStage stage s) :
    Isolated s where
  orderly := h.orderly
  quiet := by
    intro hno
    have hidle : stage = .idle := by
      cases stage <;> first | rfl | exact absurd (h.session.mpr rfl) hno
    subst hidle
    exact ⟨h.queue, Timer.eq_idle h.req, Timer.eq_idle h.complete⟩
  zero := h.zero

theorem atStage_boot (mem : Store) : AtStage .idle (.boot mem []) where
  queue := rfl
  req := rfl
  complete := rfl
  inProgress := rfl
  silent := fun _ => rfl
  sent := rfl
  session := by simp [OadState.boot, sessionOf, Stage.isOpen]
  zero := fun h => nomatch h
  orderly := orderly_nil

/-! ## What each action does to the stage -/

variable {stage : Stage} {s t : OadState}

/-- An output which belongs to no session and opens none. -/
theorem AtStage.emit {o : OadOut} (h : AtStage stage s)
    (hreq : o.ofSession = false) (hopen : o.opens = false) :
    AtStage stage (s.emit o) := by
  have hsession : (sessionOf s.out).after o = sessionOf s.out := by
    cases o <;> simp_all [Session.after, OadOut.ofSession]
  exact
    { queue := h.queue
      req := h.req
      complete := h.complete
      inProgress := h.inProgress
      silent := h.silent
      sent := h.sent
      session := by
        simp only [OadState.emit, sessionOf_snoc, hsession]
        exact h.session
      zero := by
        simp only [OadState.emit, sessionOf_snoc, hsession]
        exact h.zero
      orderly := orderly_snoc h.orderly (by simp [hreq]) (by simp [hopen]) }

/-- What there is to show in a session still running. -/
theorem atStage_running (hrun : sessionOf t.out = .running)
    (hord : Orderly t.out) (hopen : stage.isOpen = true)
    (hq : t.queue = stage.queue) (hr : t.reqTimer.load = stage.reqLoad)
    (hc : t.completeTimer.load = stage.completeLoad)
    (hp : t.handle.oadInProgress = true)
    (hb : stage.listens = false → t.handle.blockReqInProgress = false)
    (hs : t.completeReqSent = (stage == .finishing)) : AtStage stage t where
  queue := hq
  req := hr
  complete := hc
  inProgress := hp.trans hopen.symm
  silent := hb
  sent := hs
  session := ⟨fun _ => hopen, fun _ => hrun⟩
  zero := fun habort => by cases hrun.symm.trans habort
  orderly := hord

/-- A notification is accepted outside a session: only the first event of the
new session waits. -/
theorem AtStage.open {env : NotifEnv} {addr : List UInt8} {hdr : CoapHdr}
    (h : AtStage .idle s) :
    ∃ stage', AtStage stage' (startTransfer env addr (s.accepted hdr)).1 := by
  have hnot : sessionOf s.out ≠ .running := by
    rw [ne_eq, h.session]
    decide
  have hrun : sessionOf (s.accepted hdr).out = .running := by
    simp [OadState.accepted, OadState.emit, OadState.setNotifReqInfo,
      Session.after, OadOut.opens]
  have hord : Orderly (s.accepted hdr).out :=
    orderly_snoc h.orderly (fun hof => by cases hof) (fun _ => hnot)
  have hq : ∀ evt, (s.accepted hdr).queue ++ [evt] = [evt] := fun evt =>
    congrArg (· ++ [evt]) h.queue
  have habort : ∀ total, ∀ flash, AtStage .aborting (oadUpdate .abort
      { s.accepted hdr with
        handle := { (s.accepted hdr).handle.restart addr env.malloc with
          totalBlocks := total }
        flash := flash }) := fun total flash =>
    atStage_running hrun hord rfl (hq .abort) h.req h.complete rfl
      (fun _ => rfl) h.sent
  rcases startTransfer_cases env addr (s.accepted hdr) with
    ⟨total, _, heq⟩ | ⟨_, _, evt, ⟨rfl, _⟩ | rfl, heq⟩
  · rw [heq]
    exact ⟨.aborting, habort _ _⟩
  · rw [heq]
    exact ⟨.aborting, habort _ _⟩
  · rw [heq]
    exact ⟨.requesting, atStage_running hrun hord rfl (hq .blockReq) h.req
      h.complete rfl (fun _ => rfl) h.sent⟩

theorem AtStage.eq_idle (h : AtStage stage s)
    (hp : s.handle.oadInProgress = false) : stage = .idle := by
  have hopen := h.inProgress.symm.trans hp
  cases stage <;> first | rfl | cases hopen

theorem AtStage.request {dev : Device} {env : NotifEnv} {addr : List UInt8}
    {hdr : CoapHdr} (h : AtStage stage s)
    (hturn : InTurn dev s (.request env addr hdr)) :
    ∃ stage', AtStage stage' (coapOadCb dev env addr hdr s).1 := by
  rcases coapOadCb_cases dev env addr hdr s with
    ⟨_, heq | ⟨o, ho, heq⟩⟩ | ⟨hstore, hno, status, sent, hst, heq⟩ |
      ⟨hopen, heq⟩
  · rw [heq]
    exact ⟨stage, h⟩
  · rw [heq]
    exact ⟨stage, h.emit (by rcases ho with rfl | rfl <;> rfl)
      (by rcases ho with rfl | rfl <;> rfl)⟩
  · -- turned down: the request info is stored in a handle which no abort left
    have hidle := h.eq_idle hstore.2.1
    subst hidle
    have hnot : sessionOf s.out ≠ .aborted := fun habort =>
      hno (hturn habort hstore)
    rw [heq]
    have hset : AtStage .idle (s.setNotifReqInfo
        (OadNotifReqMsg.ofBytes hdr.payloadPtr)) :=
      { h with
        silent := h.silent
        inProgress := h.inProgress
        zero := fun habort => absurd habort hnot }
    refine ⟨.idle, hset.emit rfl ?_⟩
    simpa [OadOut.opens] using hst
  · have hidle := h.eq_idle hopen.1.2.1
    subst hidle
    rw [heq]
    exact h.open

/-- A block response is turned down, or becomes the one received block. -/
theorem AtStage.rsp {dev : Device} {hdr : CoapHdr} {ret : Int}
    (h : AtStage stage s) (hturn : InTurn dev s (.imgRsp hdr))
    (hcb : oadImgRspCb hdr s = some (t, ret)) :
    ∃ stage', AtStage stage' t := by
  have hopen : s.handle.blockReqInProgress = true → stage.listens = true := by
    intro hb
    by_contra hl
    have hsilent := h.silent (Bool.eq_false_iff.mpr hl)
    exact absurd (hb.symm.trans hsilent) (by decide)
  have hrunning : s.handle.blockReqInProgress = true →
      sessionOf s.out = .running := by
    intro hb
    have hl := hopen hb
    refine h.session.mpr ?_
    cases stage <;> first | rfl | cases hl
  have hkeep : s.handle.blockReqInProgress = true → ∀ block,
      AtStage stage (s.setCurrBlock block) := fun hb block =>
    { h with
      inProgress := h.inProgress
      silent := h.silent
      zero := fun habort => by cases (hrunning hb).symm.trans habort }
  rcases oadImgRspCb_cases hcb with ⟨_, rfl⟩ | ⟨hb, _, imgId, blockNum, rfl⟩ |
      ⟨hcur, _, imgId, blockNum, rfl⟩ | ⟨hacc, imgId, blockNum, data, _, rfl⟩
  · exact ⟨stage, h⟩
  · exact ⟨stage, hkeep hb _⟩
  · exact ⟨stage, hkeep hcur.1 _⟩
  · have hl := hopen hacc.1.1
    have hset := hkeep hacc.1.1
      { imgId, blockNum, data, dataLen := rspDataLen hdr }
    obtain ⟨hnoRecv, hnoAbort⟩ := hturn hacc
    rw [h.queue] at hnoRecv hnoAbort
    cases stage with
    | idle | completing | finishing => cases hl
    | received | late => simp [Stage.queue] at hnoRecv
    | aborting => simp [Stage.queue] at hnoAbort
    | requesting =>
        exact ⟨.late, { hset with
          queue := congrArg (· ++ [OadEvt.blockRecv]) hset.queue
          silent := fun hno => nomatch hno }⟩
    | waiting =>
        exact ⟨.received, { hset with
          queue := congrArg (· ++ [OadEvt.blockRecv]) hset.queue
          silent := fun hno => nomatch hno }⟩

/-- A running session may request. -/
theorem AtStage.asks {o : OadOut} (h : AtStage stage s)
    (hopen : stage.isOpen = true) (hnot : o.opens = false) : Orderly (s.out ++ [o]) :=
  orderly_snoc h.orderly (fun _ => h.session.mpr hopen)
    (fun ho => by simp [hnot] at ho)

/-- The reset ends a running session. -/
theorem AtStage.reset (h : AtStage stage s) (hopen : stage.isOpen = true) :
    AtStage .idle (sysCtrlSystemReset s) where
  queue := rfl
  req := rfl
  complete := rfl
  inProgress := rfl
  silent := fun _ => rfl
  sent := rfl
  session := by
    simp [sysCtrlSystemReset, OadState.boot, Session.after, OadOut.opens,
      Stage.isOpen]
  zero := fun _ => rfl
  orderly := h.asks hopen rfl

/-- The block request is sent and its timer started. -/
theorem AtStage.ask {stage' : Stage} {rest : List OadEvt} (h : AtStage stage s)
    (hreq : stage.reqLoad = 0) (hopen : stage.isOpen = true)
    (hq : stage'.queue = rest) (hreq' : stage'.reqLoad = 1)
    (hopen' : stage'.isOpen = true) (hlisten : stage'.listens = true)
    (hc : stage.completeLoad = 0) (hc' : stage'.completeLoad = 0) :
    AtStage stage' (oadBlockReqEvt { s with queue := rest }) := by
  have hfin : (stage == .finishing) = (stage' == .finishing) :=
    (Stage.ne_finishing hc).trans (Stage.ne_finishing hc').symm
  refine atStage_running ?_ (h.asks hopen rfl) hopen' hq.symm
    ((Timer.load_request (h.req.trans hreq)).trans hreq'.symm)
    (h.complete.trans (hc.trans hc'.symm)) (h.inProgress.trans hopen)
    (fun hno => by cases hno.symm.trans hlisten) (h.sent.trans hfin)
  simp only [oadBlockReqEvt, OadState.emit, sessionOf_snoc,
    h.session.mpr hopen]
  rfl

/-- The received block is processed, with the timer of its request. -/
theorem AtStage.recv {env : TaskletEnv} (h : AtStage .received s) :
    ∃ stage', AtStage stage' (oadBlockRecvEvt env { s with queue := [] }) := by
  have hrun := h.session.mpr rfl
  have htimer := Timer.load_cancel h.req
  -- a received block ends with one event and no timer
  have hend : ∀ (evt : OadEvt) (stage' : Stage) (s' : OadState),
      stage'.queue = [evt] → stage'.isOpen = true → stage'.reqLoad = 0 →
      stage'.completeLoad = 0 → s'.queue = [] → s'.out = s.out →
      s'.reqTimer = s.reqTimer.cancel → s'.completeTimer = s.completeTimer →
      s'.completeReqSent = s.completeReqSent →
      s'.handle.oadInProgress = s.handle.oadInProgress →
      s'.handle.blockReqInProgress = false →
      AtStage stage' (oadUpdate evt s') := by
    intro evt stage' s' hq ho hr hc hq' hout ht hct hs hp hb
    have hsent := Stage.ne_finishing hc
    refine atStage_running ?_ ?_ ho ?_ ?_ ?_ (hp.trans h.inProgress)
      (fun _ => hb) (hs.trans (h.sent.trans hsent.symm))
    · exact (congrArg sessionOf hout).trans hrun
    · exact hout ▸ h.orderly
    · exact (congrArg (· ++ [evt]) hq').trans hq.symm
    · exact (congrArg Timer.load ht).trans (htimer.trans hr.symm)
    · exact (congrArg Timer.load hct).trans (h.complete.trans hc.symm)
  rcases oadBlockRecvEvt_cases env { s with queue := [] } with ⟨flash, _, heq⟩ |
      ⟨flash, _, ⟨_, _, heq⟩ | ⟨_, _, heq⟩ | ⟨_, heq⟩⟩
  · rw [heq]
    exact ⟨.aborting, hend _ _ _ rfl rfl rfl rfl rfl rfl rfl rfl rfl rfl rfl⟩
  · rw [heq]
    exact ⟨.aborting, hend _ _ _ rfl rfl rfl rfl rfl rfl rfl rfl rfl rfl rfl⟩
  · rw [heq]
    obtain ⟨flash', _, _, hdone | ⟨_, hdone⟩⟩ :=
      oadImageDone_cases env (OadState.counted flash { s with queue := [] })
    · rw [hdone]
      exact ⟨.aborting, hend _ _ _ rfl rfl rfl rfl rfl rfl rfl rfl rfl rfl rfl⟩
    · rw [hdone]
      exact ⟨.completing, hend _ _ _ rfl rfl rfl rfl rfl rfl rfl rfl rfl rfl rfl⟩
  · rw [heq]
    exact ⟨.requesting, hend _ _ _ rfl rfl rfl rfl rfl rfl rfl rfl rfl rfl rfl⟩

/-- The oldest event is processed. -/
theorem AtStage.event {dev : Device} {env : TaskletEnv} (h : AtStage stage s)
    (hstep : step dev s (.event env) = some t) :
    ∃ stage', AtStage stage' t := by
  have hq := h.queue
  cases stage with
  | idle | waiting | finishing => simp [step, hq, Stage.queue] at hstep
  | requesting =>
      simp only [step, hq, Stage.queue, Option.some.injEq] at hstep
      subst hstep
      exact ⟨.waiting, h.ask rfl rfl rfl rfl rfl rfl rfl rfl⟩
  | received =>
      simp only [step, hq, Stage.queue, Option.some.injEq] at hstep
      subst hstep
      exact h.recv
  | late =>
      simp only [step, hq, Stage.queue, Option.some.injEq] at hstep
      subst hstep
      exact ⟨.received, h.ask rfl rfl rfl rfl rfl rfl rfl rfl⟩
  | aborting =>
      simp only [step, hq, Stage.queue, Option.some.injEq] at hstep
      subst hstep
      refine ⟨.idle, ?_⟩
      exact
        { queue := rfl
          req := h.req
          complete := h.complete
          inProgress := rfl
          silent := fun _ => rfl
          sent := h.sent
          session := by
            simp [oadTasklet, oadAbortEvt, OadState.emit, Session.after,
              OadOut.opens, Stage.isOpen]
          zero := fun _ => rfl
          orderly := h.asks rfl rfl }
  | completing =>
      simp only [step, hq, Stage.queue, Option.some.injEq] at hstep
      subst hstep
      refine ⟨.finishing, atStage_running ?_ (h.asks rfl rfl) rfl rfl h.req
        (Timer.load_request h.complete) h.inProgress (fun _ => h.silent rfl) rfl⟩
      simp only [oadTasklet, oadCompleteEvt, OadState.emit, sessionOf_snoc,
        h.session.mpr rfl]
      rfl

/-- A timer runs out: its event waits instead of it. -/
theorem AtStage.expire {dev : Device} {id : OadTimerId} (h : AtStage stage s)
    (hstep : step dev s (.expire id) = some t) : AtStage stage t := by
  simp only [step, Option.ite_none_left_eq_some] at hstep
  obtain ⟨hpending, heq⟩ := hstep
  rw [← Option.some.inj heq]
  have hload : ∀ timer : Timer, timer.pending ≠ 0 →
      (Timer.mk (timer.pending - 1) (timer.queued + 1)).load = timer.load := by
    intro timer hne
    simp only [Timer.load]
    omega
  cases id with
  | blockReq => exact { h with req := (hload _ hpending).trans h.req }
  | complete => exact { h with complete := (hload _ hpending).trans h.complete }

/-- A timer event is delivered. -/
theorem AtStage.timerEvent {dev : Device} {env : TaskletEnv} {id : OadTimerId}
    (h : AtStage stage s) (hturn : InTurn dev s (.timerEvent env id))
    (hstep : step dev s (.timerEvent env id) = some t) :
    ∃ stage', AtStage stage' t := by
  simp only [step, Option.ite_none_left_eq_some] at hstep
  obtain ⟨hqueued, heq⟩ := hstep
  rw [← Option.some.inj heq]
  cases id with
  | complete =>
      have hload : s.completeTimer.pending + s.completeTimer.queued =
          stage.completeLoad := h.complete
      have hpos : s.completeTimer.queued ≠ 0 := hqueued
      have hfin : stage = .finishing := by
        cases stage <;> first | rfl | (simp only [Stage.completeLoad] at hload; omega)
      subst hfin
      exact ⟨.idle, h.reset rfl⟩
  | blockReq =>
      have hload : s.reqTimer.pending + s.reqTimer.queued = stage.reqLoad :=
        h.req
      have hpos : s.reqTimer.queued ≠ 0 := hqueued
      have hwait : stage = .waiting := by
        cases stage with
        | waiting => rfl
        | received => exact absurd (h.queue ▸ List.mem_singleton.mpr rfl) hturn
        | idle | requesting | late | aborting | completing | finishing =>
            simp only [Stage.reqLoad] at hload
            omega
      subst hwait
      obtain ⟨evt, count, hevt, heq⟩ := oadBlockReqTimeoutEvt_cases
        (s.setTimer { s.reqTimer with queued := s.reqTimer.queued - 1 } .blockReq)
      have hzero : (Timer.mk s.reqTimer.pending (s.reqTimer.queued - 1)).load =
          0 := by
        simp only [Timer.load, Stage.reqLoad] at hload ⊢
        omega
      have hnext : ∀ stage' : Stage, stage'.queue = [evt] →
          stage'.isOpen = true → stage'.reqLoad = 0 →
          stage'.completeLoad = 0 → stage'.listens = true →
          AtStage stage' (oadTasklet env .blockReqTimeout (s.setTimer
            { s.reqTimer with queued := s.reqTimer.queued - 1 } .blockReq)) := by
        intro stage' hq ho hr hc hl
        rw [oadTasklet, heq]
        exact atStage_running (h.session.mpr rfl) h.orderly ho
          ((congrArg (· ++ [evt]) h.queue).trans hq.symm) (hzero.trans hr.symm)
          (h.complete.trans hc.symm) h.inProgress
          (fun hno => by cases hno.symm.trans hl) (h.sent.trans (Stage.ne_finishing hc).symm)
      rcases hevt with rfl | rfl
      · exact ⟨.requesting, hnext .requesting rfl rfl rfl rfl rfl⟩
      · exact ⟨.aborting, hnext .aborting rfl rfl rfl rfl rfl⟩

/-- **Step lemma.**  In turn, every action leads from a stage to a stage. -/
theorem atStage_step {dev : Device} {a : OadAct} (h : AtStage stage s)
    (hturn : InTurn dev s a) (hstep : step dev s a = some t) :
    ∃ stage', AtStage stage' t := by
  cases a with
  | request env addr hdr =>
      cases hstep
      exact h.request hturn
  | imgRsp hdr =>
      obtain ⟨⟨t', ret⟩, hcb, rfl⟩ := Option.map_eq_some_iff.mp hstep
      exact h.rsp hturn hcb
  | completeRsp =>
      simp only [step, Option.ite_none_right_eq_some] at hstep
      obtain ⟨hsent, heq⟩ := hstep
      have hfin : stage = .finishing := by
        have := h.sent.symm.trans hsent
        simpa using this
      subst hfin
      rw [← Option.some.inj heq]
      exact ⟨.idle, h.reset rfl⟩
  | event env => exact h.event hstep
  | expire id => exact ⟨stage, h.expire hstep⟩
  | timerEvent env id => exact h.timerEvent hturn hstep

/-- **Session isolation.**  In every run whose callbacks and timeouts come in
turn, the sessions are kept apart in the state reached. -/
theorem run_isolated (dev : Device) (mem : Store) (as : List OadAct)
    (s : OadState) (hturn : Meets (step dev) (InTurn dev) (.boot mem []) as)
    (hrun : run (step dev) (.boot mem []) as = some s) : Isolated s := by
  have hinv : ∃ stage, AtStage stage s :=
    run_invariant (fun s => ∃ stage, AtStage stage s)
      (fun s a t ⟨_, h⟩ hok hstep => atStage_step h hok hstep)
      ⟨.idle, atStage_boot mem⟩ hturn hrun
  obtain ⟨_, h⟩ := hinv
  exact h.isolated

/-! ## A session which is not in turn -/

instance (dev : Device) (s : OadState) (a : OadAct) :
    Decidable (InTurn dev s a) :=
  match a with
  | .request _ _ _ => inferInstanceAs (Decidable (_ → _ → _))
  | .imgRsp _ => inferInstanceAs (Decidable (_ → _ ∧ _))
  | .timerEvent _ .blockReq => inferInstanceAs (Decidable (_ ∉ _))
  | .timerEvent _ .complete => isTrue trivial
  | .completeRsp | .event _ | .expire _ => isTrue trivial

/-- The flash takes no block. -/
def TaskletEnv.blockFails : TaskletEnv where
  nvsBlock := .failure fun _ => 0
  nvsMagic := .success

/-- A request repeated after a timeout, a block, and its failing write. -/
def abortedRun : List OadAct :=
  [.request .ok [] sampleNotif, .event .ok, .expire .blockReq,
   .timerEvent .ok .blockReq, .event .ok, sampleRsp 0 1, .event .blockFails,
   .event .ok]

theorem aborted_session_isolated :
    ∃ s, run (step sampleDevice) (.boot (fun _ => 0) []) abortedRun = some s ∧
      sessionOf s.out = .aborted ∧ Isolated s := by
  have hrun : ∃ s, run (step sampleDevice) (.boot (fun _ => 0) []) abortedRun =
      some s ∧ sessionOf s.out = .aborted := by
    decide +kernel
  obtain ⟨s, hs, haborted⟩ := hrun
  exact ⟨s, hs, haborted, run_isolated sampleDevice _ abortedRun s
    (by decide +kernel) hs⟩

/-- The request times out while its block waits to be written, and the write
fails: the repeated request is sent before the abort is processed, and its
timer goes on after it. -/
def straddlingRun : List OadAct :=
  [.request .ok [] sampleNotif, .event .ok, sampleRsp 0 1, .expire .blockReq,
   .timerEvent .ok .blockReq, .event .blockFails, .event .ok, .event .ok,
   .expire .blockReq, .timerEvent .ok .blockReq, .event .ok]

/-- **A timer outlives its session.**  After the abort message a block request
is sent, and its timer runs. -/
theorem straddling_session_not_isolated :
    ∃ s, run (step sampleDevice) (.boot (fun _ => 0) []) straddlingRun =
        some s ∧
      (∃ pre, s.out = pre ++ [.abortMsg, .blockReq
        { imgId := 0, blockNum := 0, totalBlocks := 0 }]) ∧
      s.reqTimer.pending = 1 ∧ ¬Isolated s := by
  have hrun : ∃ s, run (step sampleDevice) (.boot (fun _ => 0) [])
      straddlingRun = some s ∧
        s.out = s.out.take 3 ++ [.abortMsg, .blockReq
          { imgId := 0, blockNum := 0, totalBlocks := 0 }] ∧
        s.reqTimer.pending = 1 ∧ sessionOf s.out = .aborted := by
    decide +kernel
  obtain ⟨s, hs, hout, hpending, haborted⟩ := hrun
  refine ⟨s, hs, ⟨_, hout⟩, hpending, fun h => ?_⟩
  obtain ⟨_, hidle, _⟩ := h.quiet (by simp [haborted])
  rw [hidle] at hpending
  cases hpending

end Oad
