import WisunModem.Runs
import WisunModem.Handlers

/-!
# Notices of received data

A length travels from the callback to the main loop, and from there to the line
`+IPD`: the main loop takes it over when the last one is used up and triggers the
command; the command formats it, and its read handler uses it up.  The trigger
can be lost, the length can be taken over between formatting and use, and
`+CIPCLOSE` forgets the length but not what is still on the way.
-/

namespace Modem

open Runs NsSocket Unsolicited

/-- A line of `+IPD` is being written. -/
def Fsm.writing (fsm : Fsm) : Bool :=
  match fsm.state with
  | .flushIoWriteWait | .flushIoWrite _ => true
  | _ => false

/-- Steps which have to do with neither the notices nor the count of connections. -/
def Pc.silent : Pc → Bool
  | .top | .clearDisconnect | .clearSendFail | .unsolicited | .startOpen | .closeReset
  | .closeSocket => false
  | _ => true

/-- Notes about neither the notices nor the end of a connection. -/
def Note.silent : Note → Bool
  | .line .. | .closed _ => false
  | _ => true

/-- What a silent step leaves as it is. -/
structure Still (s s' : State) : Prop where
  fsm : s'.fsm = s.fsm
  ipd : s'.app.ipdDataLength = s.app.ipdDataLength
  callback : s'.app.ipdDataLengthCallback = s.app.ipdDataLengthCallback
  mark : s'.mark = s.mark
  trace : ∃ notes, s'.trace = s.trace ++ notes ∧ ∀ n ∈ notes, n.silent = true

theorem still_refl (s : State) : Still s s := ⟨rfl, rfl, rfl, rfl, [], by simp, by simp⟩

theorem Still.add {s s' s'' : State} {notes : List Note} (h : Still s s')
    (hfsm : s''.fsm = s'.fsm) (hipd : s''.app.ipdDataLength = s'.app.ipdDataLength)
    (hcallback : s''.app.ipdDataLengthCallback = s'.app.ipdDataLengthCallback)
    (hmark : s''.mark = s'.mark) (htrace : s''.trace = s'.trace ++ notes)
    (hnotes : ∀ n ∈ notes, n.silent = true) : Still s s'' := by
  obtain ⟨notes', htrace', hnotes'⟩ := h.trace
  refine ⟨hfsm.trans h.fsm, hipd.trans h.ipd, hcallback.trans h.callback, hmark.trans h.mark,
    notes' ++ notes, ?_, ?_⟩
  · rw [htrace, htrace', List.append_assoc]
  · intro n hn
    exact (List.mem_append.mp hn).elim (hnotes' n) (hnotes n)

/-- Other fields of the state do not matter. -/
theorem Still.other {s s' s'' : State} (h : Still s s') (hfsm : s''.fsm = s'.fsm)
    (hipd : s''.app.ipdDataLength = s'.app.ipdDataLength)
    (hcallback : s''.app.ipdDataLengthCallback = s'.app.ipdDataLengthCallback)
    (hmark : s''.mark = s'.mark) (htrace : s''.trace = s'.trace) : Still s s'' :=
  h.add hfsm hipd hcallback hmark (htrace.trans (List.append_nil _).symm) (by simp)

theorem silent_answered (cmd : CmdState) (ok flag : Bool) :
    ∀ n ∈ cmd.answered ok flag, n.silent = true := by
  cases cmd <;> simp [CmdState.answered, Note.silent]

theorem Still.answer {s s' : State} (h : Still s s') (ok : Bool) : Still s (s'.answer ok) :=
  h.add rfl rfl rfl rfl rfl (silent_answered _ _ _)

theorem Still.note {s s' : State} {n : Note} (h : Still s s') (hn : n.silent = true) :
    Still s (s'.note n) :=
  h.add rfl rfl rfl rfl rfl (by simpa using hn)

theorem still_close (s : State) (id : Int) : Still s (s.socketClose id) :=
  (still_refl s).add rfl rfl rfl rfl rfl (by simp [Note.silent])

theorem still_sendDone {s s' : State} (h : Still s s') : Still s (sendDone s') := by
  unfold sendDone
  dsimp only
  split
  · exact h.other rfl rfl rfl rfl rfl
  · refine Still.answer ?_ true
    exact h.other rfl rfl rfl rfl rfl

theorem still_sendFailed (s : State) : Still s (sendFailed s) := by
  refine Still.answer ?_ false
  exact (still_refl s).other rfl rfl rfl rfl rfl

theorem still_sendCall (s : State) (data : List UInt8) (i : Input) :
    Still s (sendCall s data i) := by
  unfold sendCall
  split
  · split
    · refine still_sendDone (Still.note ?_ rfl)
      exact (still_refl s).other rfl rfl rfl rfl rfl
    · exact still_sendFailed s
  · split
    · exact still_sendDone (still_refl s)
    · exact still_sendFailed s

theorem still_sendDatagram (s : State) (ready : Bool) : Still s (sendDatagram s ready) := by
  unfold sendDatagram
  split
  · split
    · exact still_sendDone ((still_refl s).other rfl rfl rfl rfl rfl)
    · exact still_sendFailed s
  · split
    · exact still_sendDone (still_refl s)
    · exact still_sendFailed s

theorem still_recvCall (s : State) (i : Input) : Still s (recvCall s i) := by
  unfold recvCall
  split
  · exact (still_refl s).other rfl rfl rfl rfl rfl
  · split
    · exact (still_refl s).answer false
    · split
      · split
        · rename_i so _ _ _ so' _
          have hread : Still s { s with sock := some so' } :=
            (still_refl s).other rfl rfl rfl rfl rfl
          dsimp only
          split
          · exact (hread.note rfl).answer true
          · exact hread.answer false
        · exact (still_refl s).answer false
      · exact (still_refl s).answer _

theorem still_startConn (s : State) (tcp : Option Bool) : Still s (startConn s tcp) := by
  unfold startConn
  split
  · exact (still_refl s).answer false
  · split
    · exact (still_refl s).answer false
    · exact (still_refl s).other rfl rfl rfl rfl rfl

theorem still_startConnect (s : State) (ready : Bool) (mem : Mem) :
    Still s (startConnect s ready mem) := by
  unfold startConnect
  split
  · split
    · exact (still_refl s).other rfl rfl rfl rfl rfl
    · exact (still_refl s).other rfl rfl rfl rfl rfl
  · exact (still_refl s).other rfl rfl rfl rfl rfl

theorem still_startWait {s s' : State} {timeout : Bool} (h : startWait s timeout = some s') :
    Still s s' := by
  unfold startWait at h
  split at h
  · cases h
    split
    · exact (still_refl s).answer true
    · exact (still_refl s).other rfl rfl rfl rfl rfl
  · split at h
    · cases h
      exact (still_refl s).other rfl rfl rfl rfl rfl
    · cases h

theorem still_closeShutdown (s : State) (mem : Mem) (ready : Bool) :
    Still s (closeShutdown s mem ready) := by
  unfold closeShutdown
  split
  · exact (still_refl s).other rfl rfl rfl rfl rfl
  · exact (still_refl s).other rfl rfl rfl rfl rfl

theorem still_command (s : State) (parsed : Option AtCmd) : Still s (command s parsed) := by
  unfold command
  split
  · exact (still_refl s).other rfl rfl rfl rfl rfl
  · rename_i c _
    cases c <;> exact (still_refl s).other rfl rfl rfl rfl rfl
  · exact (still_refl s).other rfl rfl rfl rfl rfl

theorem still_main {s s' : State} {i : Input} (hsilent : s.pc.silent = true)
    (h : mainStep s i = some s') : Still s s' := by
  have hrefl := still_refl s
  unfold mainStep at h
  cases hpc : s.pc with
  | startConn tcp =>
      rw [hpc] at h
      cases h
      exact still_startConn s tcp
  | startClose =>
      rw [hpc] at h
      cases h
      split
      · exact (still_close s _).other rfl rfl rfl rfl rfl
      · exact hrefl.other rfl rfl rfl rfl rfl
  | startConnect =>
      rw [hpc] at h
      cases h
      exact still_startConnect s i.ready i.mem
  | startWait =>
      rw [hpc] at h
      exact still_startWait h
  | startFail =>
      rw [hpc] at h
      cases h
      exact ((still_close s _).note rfl).answer false
  | closeShutdown =>
      rw [hpc] at h
      cases h
      exact still_closeShutdown s i.mem i.ready
  | sendCall data =>
      rw [hpc] at h
      cases h
      exact still_sendCall s data i
  | sendDatagram data =>
      rw [hpc] at h
      cases h
      exact still_sendDatagram s i.ready
  | recvCall =>
      rw [hpc] at h
      cases h
      exact still_recvCall s i
  | command =>
      rw [hpc] at h
      cases h
      exact still_command s i.parsed
  | testDisconnect | testSendFail | startUdp | startClear | closeFlag | sendFlag =>
      rw [hpc] at h
      cases h
      exact hrefl.other rfl rfl rfl rfl rfl
  | startMesh | sendCheck =>
      rw [hpc] at h
      cases h
      split
      · exact hrefl.other rfl rfl rfl rfl rfl
      · exact hrefl.answer false
  | closeWait =>
      rw [hpc] at h
      dsimp only at h
      split at h
      · cases h
        exact hrefl.other rfl rfl rfl rfl rfl
      · cases h
  | sendWait data =>
      rw [hpc] at h
      dsimp only at h
      split at h
      · cases h
      · cases h
        exact hrefl.other rfl rfl rfl rfl rfl
  | sendMesh =>
      rw [hpc] at h
      cases h
      split
      · exact hrefl.answer false
      · split
        · exact hrefl.other rfl rfl rfl rfl rfl
        · exact hrefl.other rfl rfl rfl rfl rfl
  | sendConn =>
      rw [hpc] at h
      cases h
      split
      · exact hrefl.answer false
      · split
        · exact (hrefl.note rfl).other rfl rfl rfl rfl rfl
        · exact hrefl.other rfl rfl rfl rfl rfl
  | sendRead =>
      rw [hpc] at h
      dsimp only at h
      split at h
      · cases h
      · cases h
        exact (hrefl.note rfl).other rfl rfl rfl rfl rfl
  | _ => simp [hpc, Pc.silent] at hsilent

/-! ## What is kept -/

/-- No line of `+IPD` comes behind the end of its connection or of a later one. -/
def Later (n n' : Note) : Prop :=
  ∀ conn, n = .closed conn → ∀ length conn', n' = .line (.ipd length) conn' → conn < conn'

/-- The command `+IPD` is between the ring and its read handler. -/
def Fsm.formatting (fsm : Fsm) : Prop :=
  fsm.cmd = some .ipd ∧ (fsm.state = .formatReadArgs ∨ fsm.state = .readLoop)

/-- A connection that was closed lies behind all that is still to be written. -/
structure Behind (s : State) (conn : Nat) : Prop where
  opened : conn ≤ s.mark.conn
  attached : s.sock ≠ none → conn < s.mark.conn
  callback : s.app.ipdDataLengthCallback ≠ 0 → conn < s.mark.callback
  ipd : s.app.ipdDataLength ≠ 0 → conn < s.mark.ipd
  writing : Fsm.writing s.fsm = true → conn < s.mark.line
  formatted : s.app.ipdDataLength ≠ 0 → s.fsm.state = .readLoop → s.fsm.cmd = some .ipd →
    conn < s.mark.line

/-- What is kept of the notices. -/
structure Noticed (s : State) : Prop where
  staged : Staged s
  writes : s.fsm.state = .formatReadArgs ∨ Fsm.writing s.fsm = true → s.fsm.cmd = some .ipd
  covered : s.app.ipdDataLength ≠ 0 → .ipd ∈ s.fsm.buffer.contents ∨ Fsm.formatting s.fsm
  exact : s.app.ipdDataLength ≠ 0 → s.fsm.state = .readLoop → s.fsm.cmd = some .ipd →
    s.fsm.line = s.app.ipdDataLength
  closing : s.pc = .closeFlag ∨ s.pc = .closeSocket → s.app.ipdDataLength = 0
  behind : ∀ conn, .closed conn ∈ s.trace → Behind s conn
  later : s.trace.Pairwise Later

theorem later_add {trace notes : List Note} (h : trace.Pairwise Later)
    (hnotes : ∀ n ∈ notes, ∀ length conn, n ≠ .line (.ipd length) conn) :
    (trace ++ notes).Pairwise Later := by
  refine List.pairwise_append.mpr ⟨h, ?_, ?_⟩
  · refine List.pairwise_of_forall_mem_list fun n _ n' hn' conn _ length conn' heq => ?_
    exact absurd heq (hnotes n' hn' length conn')
  · intro n _ n' hn' conn _ length conn' heq
    exact absurd heq (hnotes n' hn' length conn')

theorem silent_not_line {n : Note} (h : n.silent = true) (line : Line) (conn : Nat) :
    n ≠ .line line conn := by
  rintro rfl
  cases h

theorem closed_of_add {trace notes : List Note} {conn : Nat} (h : .closed conn ∈ trace ++ notes)
    (hnotes : ∀ n ∈ notes, n.silent = true) : .closed conn ∈ trace := by
  refine (List.mem_append.mp h).resolve_right fun hnew => ?_
  cases hnotes _ hnew

/-- A step which has to do with the socket at most. -/
theorem Noticed.still {s s' : State} (hs : Noticed s) (hstaged : Staged s') (h : Still s s')
    (hsock : s'.sock ≠ none → s.sock ≠ none)
    (hclosing : s'.pc = .closeFlag ∨ s'.pc = .closeSocket → s.app.ipdDataLength = 0) :
    Noticed s' := by
  obtain ⟨notes, htrace, hnotes⟩ := h.trace
  refine ⟨hstaged, ?_, ?_, ?_, ?_, fun conn hmem => ?_, ?_⟩
  · rw [h.fsm]
    exact hs.writes
  · rw [h.fsm, h.ipd]
    exact hs.covered
  · rw [h.fsm, h.ipd]
    exact hs.exact
  · rw [h.ipd]
    exact hclosing
  · rw [htrace] at hmem
    obtain ⟨hopened, hattached, hcallback, hipd, hwriting, hformatted⟩ :=
      hs.behind conn (closed_of_add hmem hnotes)
    refine ⟨?_, ?_, ?_, ?_, ?_, ?_⟩
    · rw [h.mark]
      exact hopened
    · rw [h.mark]
      exact fun hsome => hattached (hsock hsome)
    · rw [h.mark, h.callback]
      exact hcallback
    · rw [h.mark, h.ipd]
      exact hipd
    · rw [h.mark, h.fsm]
      exact hwriting
    · rw [h.mark, h.fsm, h.ipd]
      exact hformatted
  · rw [htrace]
    exact later_add hs.later fun n hn length conn => silent_not_line (hnotes n hn) _ conn

/-! ### The ring -/

theorem push_fsm (fsm : Fsm) (cmd : Cmd) :
    (pushUnsolicitedCmd fsm cmd).cmd = fsm.cmd ∧
      (pushUnsolicitedCmd fsm cmd).state = fsm.state ∧
      (pushUnsolicitedCmd fsm cmd).line = fsm.line ∧
      ∀ c ∈ fsm.buffer.contents, c ∈ (pushUnsolicitedCmd fsm cmd).buffer.contents := by
  unfold pushUnsolicitedCmd
  cases hpush : fsm.buffer.push cmd with
  | none => exact ⟨rfl, rfl, rfl, fun c hc => hc⟩
  | some buffer =>
      refine ⟨rfl, rfl, rfl, fun c hc => ?_⟩
      dsimp only
      rw [RingBuffer.contents_push hpush]
      exact List.mem_append_left _ hc

/-- A ring with room takes the command. -/
theorem push_taken {fsm : Fsm} {cmd : Cmd} (h : isUnsolicitedBufferFull fsm = false) :
    cmd ∈ (pushUnsolicitedCmd fsm cmd).buffer.contents := by
  unfold pushUnsolicitedCmd
  cases hpush : fsm.buffer.push cmd with
  | none =>
      have hfull := (RingBuffer.push_eq_none_iff _ _).mp hpush
      rw [← RingBuffer.isFull_iff] at hfull
      unfold isUnsolicitedBufferFull at h
      rw [hfull] at h
      cases h
  | some buffer =>
      dsimp only
      rw [RingBuffer.contents_push hpush]
      exact List.mem_append_right _ List.mem_cons_self

/-! ### The main loop -/

theorem noticed_takeIpd {s : State} (hs : Noticed s) (hpc : s.pc = .top)
    (hroom : s.app.ipdDataLength = 0 → s.app.ipdDataLengthCallback ≠ 0 →
      isUnsolicitedBufferFull s.fsm = false ∧
        ¬(s.fsm.state = .readLoop ∧ s.fsm.cmd = some .ipd)) :
    Noticed ((takeIpd s).goto .testDisconnect) := by
  have hstaged : Staged ((takeIpd s).goto .testDisconnect) :=
    hs.staged.quiet ((quiet_takeIpd s).goto (by rw [hpc]; rfl))
  unfold takeIpd at hstaged ⊢
  by_cases hpos : s.app.ipdDataLength ≠ 0
  · rw [if_pos hpos] at hstaged ⊢
    exact hs.still hstaged ((still_refl s).other rfl rfl rfl rfl rfl) id
      fun hc => hc.elim (fun hc => nomatch hc) (fun hc => nomatch hc)
  · rw [if_neg hpos] at hstaged ⊢
    have hzero : s.app.ipdDataLength = 0 := by simpa using hpos
    dsimp only at hstaged ⊢
    by_cases hnew : s.app.ipdDataLengthCallback > 0
    · obtain ⟨hfull, hbusy⟩ := hroom hzero (by omega)
      obtain ⟨hcmd, hstate, hline, -⟩ := push_fsm s.fsm .ipd
      rw [if_pos hnew] at hstaged ⊢
      refine ⟨hstaged, ?_, fun _ => .inl (push_taken hfull), fun _ hread hipd => ?_,
        fun hc => hc.elim (fun hc => nomatch hc) (fun hc => nomatch hc), fun conn hmem => ?_, ?_⟩
      · simpa [hcmd, hstate, Fsm.writing] using hs.writes
      · exact absurd ⟨hstate ▸ hread, hcmd ▸ hipd⟩ hbusy
      · have hb := hs.behind conn (by simpa using hmem)
        refine ⟨hb.opened, hb.attached, fun hc => absurd rfl hc, fun _ => hb.callback (by omega),
          ?_, fun _ hread hipd => absurd ⟨hstate ▸ hread, hcmd ▸ hipd⟩ hbusy⟩
        simpa [Fsm.writing, hstate] using hb.writing
      · exact later_add hs.later (by simp)
    · have hnone : s.app.ipdDataLengthCallback = 0 := by omega
      rw [if_neg hnew] at hstaged ⊢
      refine ⟨hstaged, hs.writes, fun hc => absurd hnone hc, fun hc => absurd hnone hc,
        fun hc => hc.elim (fun hc => nomatch hc) (fun hc => nomatch hc), fun conn hmem => ?_,
        hs.later⟩
      have hb := hs.behind conn hmem
      exact ⟨hb.opened, hb.attached, fun hc => absurd rfl hc, fun hc => absurd hnone hc,
        hb.writing, fun hc => absurd hnone hc⟩

theorem noticed_trigger {s : State} {cmd : Cmd} {app : App} {pc : Pc} (hs : Noticed s)
    (hstaged : Staged (({ s with app }.trigger cmd).goto pc))
    (hipd : app.ipdDataLength = s.app.ipdDataLength)
    (hcallback : app.ipdDataLengthCallback = s.app.ipdDataLengthCallback)
    (hpc : pc ≠ .closeFlag ∧ pc ≠ .closeSocket) :
    Noticed (({ s with app }.trigger cmd).goto pc) := by
  obtain ⟨hcmd, hstate, hline, hmem⟩ := push_fsm s.fsm cmd
  refine ⟨hstaged, ?_, ?_, ?_, fun hc => (hc.elim hpc.1 hpc.2).elim, fun conn hclosed => ?_, ?_⟩
  · simpa [hcmd, hstate, Fsm.writing] using hs.writes
  · simp only [State.goto_app, State.trigger_app, State.goto_fsm, State.trigger_fsm, hipd,
      Fsm.formatting, hcmd, hstate]
    exact fun hpos => (hs.covered hpos).imp_left (hmem _)
  · simpa [hcmd, hstate, hline, hipd] using hs.exact
  · have hb := hs.behind conn (by simpa using hclosed)
    refine ⟨hb.opened, hb.attached, ?_, ?_, ?_, ?_⟩
    · simpa [hcallback] using hb.callback
    · simpa [hipd] using hb.ipd
    · simpa [Fsm.writing, hstate] using hb.writing
    · simpa [hipd, hstate, hcmd] using hb.formatted
  · exact later_add hs.later (by simp)

/-- What one call of the state machine does to the notices.  `line` is the mark of
the number formatted last. -/
structure ServedOk (s : State) (r : Served) (line : Nat) : Prop where
  ipd : r.ipd ≠ 0 → r.ipd = s.app.ipdDataLength
  writes : r.fsm.state = .formatReadArgs ∨ Fsm.writing r.fsm = true → r.fsm.cmd = some .ipd
  covered : r.ipd ≠ 0 → .ipd ∈ r.fsm.buffer.contents ∨ Fsm.formatting r.fsm
  exact : r.ipd ≠ 0 → r.fsm.state = .readLoop → r.fsm.cmd = some .ipd → r.fsm.line = r.ipd
  writing : ∀ conn, .closed conn ∈ s.trace → Fsm.writing r.fsm = true → conn < line
  formatted : ∀ conn, .closed conn ∈ s.trace → r.ipd ≠ 0 → r.fsm.state = .readLoop →
    r.fsm.cmd = some .ipd → conn < line
  later : ∀ conn, .closed conn ∈ s.trace → ∀ n, r.line = some (.ipd n) → conn < line

/-- Outside the two states before the read handler a length is covered by the ring. -/
theorem Noticed.inRing {s : State} (hs : Noticed s) (hpos : s.app.ipdDataLength ≠ 0)
    (h : ¬Fsm.formatting s.fsm) : .ipd ∈ s.fsm.buffer.contents :=
  (hs.covered hpos).resolve_right h

theorem servedOk_check {s : State} (hs : Noticed s) (hstate : s.fsm.state = .idle) :
    ServedOk s ⟨checkUnsolicitedBuffers s.fsm, s.app.ipdDataLength, none⟩ s.mark.line := by
  unfold checkUnsolicitedBuffers
  cases hpop : s.fsm.buffer.pop with
  | none =>
      exact ⟨fun _ => rfl, hs.writes, hs.covered, hs.exact,
        fun conn hmem => (hs.behind conn hmem).writing,
        fun conn hmem => (hs.behind conn hmem).formatted, fun _ _ n hn => nomatch hn⟩
  | some r =>
      obtain ⟨cmd, buffer⟩ := r
      have hcontents := RingBuffer.contents_pop hpop
      unfold startProcessingFormatReadArgs
      by_cases hcmd : cmd = .ipd
      · rw [hcmd]
        exact ⟨fun _ => rfl, fun _ => rfl, fun _ => .inr ⟨rfl, .inl rfl⟩, (fun _ h => nomatch h),
          (fun _ _ h => nomatch h), (fun _ _ _ h => nomatch h), (fun _ _ _ h => nomatch h)⟩
      · simp only [hcmd, if_false]
        refine ⟨fun _ => rfl, fun h => ?_, fun hpos => .inl ?_,
          fun _ _ h => absurd (Option.some.inj h) hcmd, (fun _ _ h => nomatch h),
          fun _ _ _ _ h => absurd (Option.some.inj h) hcmd, (fun _ _ _ h => nomatch h)⟩
        · rcases h with h | h <;> cases h
        · have hin := hs.inRing hpos (by
            rintro ⟨-, h | h⟩ <;> rw [hstate] at h <;> cases h)
          rw [hcontents] at hin
          exact (List.mem_cons.mp hin).resolve_left fun heq => hcmd heq.symm

theorem servedOk_readLoop {s : State} (hs : Noticed s) (hstate : s.fsm.state = .readLoop) :
    ServedOk s (processReadLoop s.fsm s.app.ipdDataLength) s.mark.line := by
  have hreset (line : Option Line) (hline : ∀ n, line ≠ some (.ipd n))
      (hcmd : s.app.ipdDataLength ≠ 0 → s.fsm.cmd ≠ some .ipd) :
      ServedOk s ⟨unsolicitedResetState s.fsm, s.app.ipdDataLength, line⟩ s.mark.line := by
    refine ⟨fun _ => rfl, fun h => ?_, fun hpos => .inl ?_, (fun _ h => nomatch h),
      (fun _ _ h => nomatch h), (fun _ _ _ h => nomatch h), fun _ _ n h => absurd h (hline n)⟩
    · rcases h with h | h <;> cases h
    · exact hs.inRing hpos fun h => hcmd hpos h.1
  unfold processReadLoop
  split
  · rename_i hcmd
    split
    · rename_i hzero
      exact hreset none (by simp) fun hpos => absurd hzero hpos
    · rename_i hpos
      exact ⟨fun h => absurd rfl h, fun _ => hcmd, fun h => absurd rfl h, fun h => absurd rfl h,
        fun conn hmem _ => (hs.behind conn hmem).formatted hpos hstate hcmd,
        fun _ _ h => absurd rfl h, (fun _ _ _ h => nomatch h)⟩
  · rename_i hcmd
    exact hreset _ (by simp) fun _ h => by simp [hcmd] at h
  · rename_i hcmd
    exact hreset _ (by simp) fun _ h => by simp [hcmd] at h
  · rename_i hcmd
    exact hreset none (by simp) fun _ h => by simp [hcmd] at h

theorem servedOk_service {s : State} (hs : Noticed s) (free cr : Bool) :
    ServedOk s (unsolicitedEventsService s.fsm s.app.ipdDataLength free cr)
      (if s.fsm.state = .formatReadArgs then s.mark.ipd else s.mark.line) := by
  unfold unsolicitedEventsService
  cases hstate : s.fsm.state with
  | idle => exact servedOk_check hs hstate
  | readLoop => exact servedOk_readLoop hs hstate
  | formatReadArgs =>
      have hcmd := hs.writes (.inl hstate)
      exact ⟨fun _ => rfl, fun _ => hcmd, fun _ => .inr ⟨hcmd, .inr rfl⟩, fun _ _ _ => rfl,
        (fun _ _ h => nomatch h), fun conn hmem hpos _ _ => (hs.behind conn hmem).ipd hpos,
        (fun _ _ _ h => nomatch h)⟩
  | flushIoWriteWait =>
      have hwriting : Fsm.writing s.fsm = true := by simp [Fsm.writing, hstate]
      have hcmd := hs.writes (.inr hwriting)
      have hin (hpos : s.app.ipdDataLength ≠ 0) : .ipd ∈ s.fsm.buffer.contents := by
        refine hs.inRing hpos ?_
        rintro ⟨-, h | h⟩ <;> rw [hstate] at h <;> cases h
      dsimp only
      split
      · exact ⟨fun _ => rfl, fun _ => hcmd, fun hpos => .inl (hin hpos), (fun _ h => nomatch h),
          fun conn hmem _ => (hs.behind conn hmem).writing hwriting,
          (fun _ _ _ h => nomatch h), (fun _ _ _ h => nomatch h)⟩
      · exact ⟨fun _ => rfl, fun _ => hcmd, hs.covered, hs.exact,
          fun conn hmem => (hs.behind conn hmem).writing,
          fun conn hmem => (hs.behind conn hmem).formatted, (fun _ _ _ h => nomatch h)⟩
  | flushIoWrite left =>
      have hwriting : Fsm.writing s.fsm = true := by simp [Fsm.writing, hstate]
      have hcmd := hs.writes (.inr hwriting)
      have hin (hpos : s.app.ipdDataLength ≠ 0) : .ipd ∈ s.fsm.buffer.contents := by
        refine hs.inRing hpos ?_
        rintro ⟨-, h | h⟩ <;> rw [hstate] at h <;> cases h
      dsimp only
      split
      · exact ⟨fun _ => rfl, fun _ => hcmd, hs.covered, hs.exact,
          fun conn hmem => (hs.behind conn hmem).writing,
          fun conn hmem => (hs.behind conn hmem).formatted, (fun _ _ _ h => nomatch h)⟩
      · split
        · exact ⟨fun _ => rfl, fun _ => hcmd, fun hpos => .inl (hin hpos),
            (fun _ h => nomatch h), fun conn hmem _ => (hs.behind conn hmem).writing hwriting,
            (fun _ _ _ h => nomatch h), (fun _ _ _ h => nomatch h)⟩
        · exact ⟨fun _ => rfl, fun _ => hcmd, fun hpos => .inl (hin hpos),
            (fun _ h => nomatch h), (fun _ _ h => nomatch h), (fun _ _ _ h => nomatch h),
            fun conn hmem _ _ => (hs.behind conn hmem).writing hwriting⟩
  | afterFlushOk =>
      have hin (hpos : s.app.ipdDataLength ≠ 0) : .ipd ∈ s.fsm.buffer.contents := by
        refine hs.inRing hpos ?_
        rintro ⟨-, h | h⟩ <;> rw [hstate] at h <;> cases h
      refine ⟨fun _ => rfl, fun h => ?_, fun hpos => .inl (hin hpos), (fun _ h => nomatch h),
        (fun _ _ h => nomatch h), (fun _ _ _ h => nomatch h), (fun _ _ _ h => nomatch h)⟩
      rcases h with h | h <;> cases h

/-- The notes of a line written. -/
theorem noteLine_trace (s : State) (line : Option Line) :
    (noteLine s line).trace = s.trace ++ line.toList.map (Note.line · s.mark.line) := by
  cases line <;> simp [noteLine]

theorem noteLine_same (s : State) (line : Option Line) :
    noteLine s line = { s with trace := (noteLine s line).trace } := by
  cases line <;> rfl

theorem noticed_serve {s : State} (hs : Noticed s) (hpc : s.pc = .unsolicited) (free cr : Bool) :
    Noticed ((serve s free cr).goto .command) := by
  have hstaged : Staged ((serve s free cr).goto .command) :=
    hs.staged.quiet ((quiet_serve s free cr).goto (by rw [hpc]; rfl))
  have hserved := servedOk_service hs free cr
  unfold serve at hstaged ⊢
  dsimp only at hstaged ⊢
  generalize unsolicitedEventsService s.fsm s.app.ipdDataLength free cr = r at hstaged hserved ⊢
  generalize (if s.fsm.state = .formatReadArgs then s.mark.ipd else s.mark.line) = line
    at hstaged hserved ⊢
  have htrace := noteLine_trace { s with
    fsm := r.fsm
    app := { s.app with ipdDataLength := r.ipd }
    mark := { s.mark with line := line } } r.line
  rw [noteLine_same] at hstaged ⊢
  refine ⟨hstaged, hserved.writes, hserved.covered, hserved.exact,
    fun hc => hc.elim (fun hc => nomatch hc) (fun hc => nomatch hc), fun conn hmem => ?_, ?_⟩
  · have hmem : .closed conn ∈ s.trace := by
      rw [State.goto_trace, htrace] at hmem
      refine (List.mem_append.mp hmem).resolve_right ?_
      simp
    have hb := hs.behind conn hmem
    exact ⟨hb.opened, hb.attached, hb.callback,
      fun hpos => hb.ipd (hserved.ipd hpos ▸ hpos), hserved.writing conn hmem,
      hserved.formatted conn hmem⟩
  · rw [State.goto_trace, htrace]
    refine List.pairwise_append.mpr ⟨hs.later, ?_, fun n hn n' hn' => ?_⟩
    · cases r.line <;> simp
    · rintro conn rfl length conn' rfl
      simp only [List.mem_map, Option.mem_toList, Note.line.injEq] at hn'
      obtain ⟨a, ha, rfl, rfl⟩ := hn'
      exact hserved.later conn hn length ha

/-! ### The handlers -/

theorem startOpen_cases (s : State) (ready : Bool) :
    (∃ id : Nat, startOpen s ready =
      { s with
        app := { s.app with socketId := id }
        sock := some (socketOpen id s.app.isTcp netBufSize)
        lastAllocated := id
        mark := { s.mark with conn := s.mark.conn + 1 }
        pc := .startConnect
        trace := s.trace ++ [.opened] }) ∨
      startOpen s ready = (({ s with app := { s.app with socketId := -1 } } : State).note
        (.failed s.app.ipConnectedFlg)).answer false := by
  unfold startOpen
  split
  · exact .inl ⟨_, rfl⟩
  · exact .inr rfl

theorem noticed_startOpen {s : State} (hs : Noticed s) (hpc : s.pc = .startOpen) (ready : Bool) :
    Noticed (startOpen s ready) := by
  have hstaged := staged_startOpen hs.staged hpc ready
  rcases startOpen_cases s ready with ⟨id, heq⟩ | heq
  · rw [heq] at hstaged ⊢
    refine ⟨hstaged, hs.writes, hs.covered, hs.exact,
      fun hc => hc.elim (fun hc => nomatch hc) (fun hc => nomatch hc), fun conn hmem => ?_,
      later_add hs.later (by simp)⟩
    have hb := hs.behind conn (by simpa using hmem)
    exact ⟨Nat.le_succ_of_le hb.opened, fun _ => Nat.lt_succ_of_le hb.opened, hb.callback,
      hb.ipd, hb.writing, hb.formatted⟩
  · rw [heq] at hstaged ⊢
    have hstill : Still s ((({ s with app := { s.app with socketId := -1 } } : State).note
        (.failed s.app.ipConnectedFlg)).answer false) := by
      refine Still.answer (Still.note ?_ rfl) false
      exact (still_refl s).other rfl rfl rfl rfl rfl
    exact hs.still hstaged hstill id
      fun hc => hc.elim (fun hc => nomatch hc) (fun hc => nomatch hc)

theorem noticed_closeReset {s : State} (hs : Noticed s) (hpc : s.pc = .closeReset) :
    Noticed { s with
      app := { s.app with ipdDataLength := 0, recvDataLength := 0, txPendingFlg := false }
      pc := .closeFlag } := by
  have hstaged : Staged { s with
      app := { s.app with ipdDataLength := 0, recvDataLength := 0, txPendingFlg := false }
      pc := .closeFlag } := hs.staged.move rfl rfl rfl id (by rw [hpc]; rfl)
  refine ⟨hstaged, hs.writes, fun hc => absurd rfl hc, fun hc => absurd rfl hc, fun _ => rfl,
    fun conn hmem => ?_, hs.later⟩
  have hb := hs.behind conn hmem
  exact ⟨hb.opened, hb.attached, hb.callback, fun hc => absurd rfl hc, hb.writing,
    fun hc => absurd rfl hc⟩

theorem noticed_closeSocket {s : State} (hs : Noticed s) (hpc : s.pc = .closeSocket)
    (hcallback : s.app.ipdDataLengthCallback = 0) (hwriting : Fsm.writing s.fsm = false) :
    Noticed (closeSocket s) := by
  have hzero := hs.closing (.inr hpc)
  have hnone : (closeSocket s).sock = none := hs.staged.closed
  have hstaged : Staged (closeSocket s) := .nothing hnone rfl
  have htrace : (closeSocket s).trace = s.trace ++
      [.closeCall s.app.socketId (s.target s.app.socketId), .closed s.mark.conn] ++
        s.cmd.answered true s.app.ipConnectedFlg := by
    simp [closeSocket]
  refine ⟨hstaged, hs.writes, fun hc => absurd hzero hc, fun hc => absurd hzero hc,
    fun hc => hc.elim (fun hc => nomatch hc) (fun hc => nomatch hc), fun conn hmem => ?_, ?_⟩
  · have hle : conn ≤ s.mark.conn := by
      rw [htrace] at hmem
      have hmem := closed_of_add hmem (silent_answered _ _ _)
      rcases List.mem_append.mp hmem with hold | hnew
      · exact (hs.behind conn hold).opened
      · have hconn : conn = s.mark.conn := by simpa using hnew
        exact Nat.le_of_eq hconn
    refine ⟨hle, fun hsome => absurd hnone hsome, fun hc => absurd hcallback hc,
      fun hc => absurd hzero hc, fun hw => ?_, fun hc => absurd hzero hc⟩
    have hw : Fsm.writing s.fsm = true := hw
    rw [hwriting] at hw
    cases hw
  · rw [htrace]
    refine later_add (later_add hs.later (by simp)) fun n hn length conn =>
      silent_not_line (silent_answered _ _ _ n hn) _ conn

/-- A length is taken over only when the ring takes the command and the last one is not
between formatting and its handler; `+CIPCLOSE` ends with no length left in the
callback and no line being written. -/
def Notifies (s : State) : Act → Prop
  | .main _ =>
      (s.pc = .top ∧ s.app.ipdDataLength = 0 ∧ s.app.ipdDataLengthCallback ≠ 0 →
        isUnsolicitedBufferFull s.fsm = false ∧
          ¬(s.fsm.state = .readLoop ∧ s.fsm.cmd = some .ipd)) ∧
      (s.pc = .closeSocket →
        s.app.ipdDataLengthCallback = 0 ∧ Fsm.writing s.fsm = false)
  | _ => True

theorem noticed_main {s s' : State} {i : Input} (hs : Noticed s) (hok : Notifies s (.main i))
    (h : mainStep s i = some s') : Noticed s' := by
  have hstaged := staged_main hs.staged h
  obtain ⟨hroom, hclose⟩ := hok
  by_cases hsilent : s.pc.silent = true
  · refine hs.still hstaged (still_main hsilent h) ?_ fun hc => ?_
    · intro hsome
      refine ((handled_main hs.staged h).effect.attached hsome).resolve_right fun hpc => ?_
      rw [hpc] at hsilent
      cases hsilent
    · have hafter := after_main h
      rcases hc with hc | hc
      · rw [hc] at hafter
        have hpc : s.pc = .closeReset := hafter
        rw [hpc] at hsilent
        cases hsilent
      · rw [hc] at hafter
        exact hs.closing (.inl hafter)
  · unfold mainStep at h
    cases hpc : s.pc with
    | top =>
        rw [hpc] at h
        cases h
        exact noticed_takeIpd hs hpc fun hzero hnew => hroom ⟨hpc, hzero, hnew⟩
    | clearDisconnect | clearSendFail =>
        rw [hpc] at h
        cases h
        exact noticed_trigger hs hstaged rfl rfl ⟨by simp, by simp⟩
    | unsolicited =>
        rw [hpc] at h
        cases h
        exact noticed_serve hs hpc i.free i.cr
    | startOpen =>
        rw [hpc] at h
        cases h
        exact noticed_startOpen hs hpc i.ready
    | closeReset =>
        rw [hpc] at h
        cases h
        exact noticed_closeReset hs hpc
    | closeSocket =>
        rw [hpc] at h
        cases h
        exact noticed_closeSocket hs hpc (hclose hpc).1 (hclose hpc).2
    | _ => simp [hpc, Pc.silent] at hsilent

/-- Only a `SOCKET_DATA` event with data leaves a length. -/
theorem socketCallback_keeps (app : App) {event : SocketEvent} {dLen : Nat}
    (h : ¬(event = .data ∧ acceptsData dLen = true)) :
    (socketCallback app event dLen).ipdDataLengthCallback = app.ipdDataLengthCallback := by
  unfold socketCallback
  cases event with
  | data =>
      have hend : acceptsData dLen = false := by simpa using h
      simp [hend]
  | _ => rfl

theorem noticed_deliver {s s' : State} (hs : Noticed s) (h : deliver s = some s') :
    Noticed s' := by
  have hstaged := hs.staged.deliver h
  obtain ⟨so, msg, rest, hso, -, rfl⟩ := deliver_cases h
  have hipd : (deliverMsg s so msg rest).app.ipdDataLength = s.app.ipdDataLength := by
    rw [deliverMsg_app]
    unfold socketCallback
    split <;> try rfl
    split <;> rfl
  have hsilent : ∀ n ∈ callbackNotes s so (delivered so msg).1 (delivered so msg).2,
      n.silent = true := by
    intro n hn
    unfold callbackNotes at hn
    rcases List.mem_append.mp hn with hl | hr
    · split at hl <;> simp_all [Note.silent]
    · split at hr <;> simp_all [Note.silent]
  refine ⟨hstaged, hs.writes, ?_, ?_, ?_, fun conn hmem => ?_, ?_⟩
  · rw [hipd]
    exact hs.covered
  · rw [hipd]
    exact hs.exact
  · rw [hipd]
    exact hs.closing
  · rw [deliverMsg_trace] at hmem
    have hb := hs.behind conn (closed_of_add hmem hsilent)
    have hattached := hb.attached (by rw [hso]; exact Option.some_ne_none so)
    by_cases haccepted : (delivered so msg).1 = .data ∧ acceptsData (delivered so msg).2 = true
    · have hmark : (deliverMsg s so msg rest).mark = { s.mark with callback := s.mark.conn } := by
        rw [deliverMsg_mark, if_pos haccepted]
      constructor
      · rw [hmark]
        exact hb.opened
      · rw [hmark]
        exact fun _ => hattached
      · rw [hmark]
        exact fun _ => hattached
      · rw [hmark, hipd]
        exact hb.ipd
      · rw [hmark]
        exact hb.writing
      · rw [hmark, hipd]
        exact hb.formatted
    · have hmark : (deliverMsg s so msg rest).mark = s.mark := by
        rw [deliverMsg_mark, if_neg haccepted]
      have hcallback : (deliverMsg s so msg rest).app.ipdDataLengthCallback =
          s.app.ipdDataLengthCallback := by
        rw [deliverMsg_app]
        exact socketCallback_keeps s.app haccepted
      constructor
      · rw [hmark]
        exact hb.opened
      · rw [hmark]
        exact fun _ => hattached
      · rw [hmark, hcallback]
        exact hb.callback
      · rw [hmark, hipd]
        exact hb.ipd
      · rw [hmark]
        exact hb.writing
      · rw [hmark, hipd]
        exact hb.formatted
  · rw [deliverMsg_trace]
    exact later_add hs.later fun n hn length conn => silent_not_line (hsilent n hn) _ conn

theorem noticed_step {s s' : State} {a : Act} (hs : Noticed s) (hok : Notifies s a)
    (h : step s a = some s') : Noticed s' := by
  have hstaged := staged_step hs.staged h
  have hsocket {so so' : Socket} (hso : s.sock = some so)
      (hstaged : Staged { s with sock := some so' }) : Noticed { s with sock := some so' } :=
    hs.still hstaged ((still_refl s).other rfl rfl rfl rfl rfl)
      (fun _ => by rw [hso]; exact Option.some_ne_none so) hs.closing
  cases a with
  | main i => exact noticed_main hs hok h
  | mesh up =>
      cases h
      exact hs.still hstaged ((still_refl s).other rfl rfl rfl rfl rfl) id hs.closing
  | deliver => exact noticed_deliver hs h
  | segment mem seg =>
      obtain ⟨so, t, hso, -, rfl⟩ := onSession_cases h
      exact hsocket hso hstaged
  | timer mem =>
      obtain ⟨so, t, hso, -, rfl⟩ := onSession_cases h
      exact hsocket hso hstaged
  | datagram mem limited buf =>
      obtain ⟨so, hso, -, rfl⟩ := datagram_cases h
      exact hsocket hso hstaged
  | txBuffer mem event length =>
      obtain ⟨so, hso, -, rfl⟩ := txBuffer_cases h
      exact hsocket hso hstaged
  | otherOpen =>
      unfold step at h
      dsimp only at h
      split at h
      · cases h
      · cases h
        exact hs.still hstaged ((still_refl s).other rfl rfl rfl rfl rfl) id hs.closing
  | otherClose id =>
      unfold step at h
      dsimp only at h
      split at h
      · cases h
        exact hs.still hstaged ((still_refl s).other rfl rfl rfl rfl rfl) (fun hsome => hsome)
          hs.closing
      · cases h

theorem noticed_init : Noticed .init where
  staged := staged_init
  writes h := by rcases h with h | h <;> cases h
  covered h := absurd rfl h
  exact h := absurd rfl h
  closing _ := rfl
  behind _ hmem := nomatch hmem
  later := .nil

/-- **The notices.**  Where the trigger always finds room, no length waits without its
command being queued or on its way to the read handler, and what the handler is about
to write is that length; where `+CIPCLOSE` ends with nothing on its way, no line
behind it is about the connection closed or an earlier one. -/
theorem ipd_noticed {s : State} {as : List Act} (hok : Meets step Notifies .init as)
    (hrun : run step .init as = some s) :
    (s.app.ipdDataLength ≠ 0 → .ipd ∈ s.fsm.buffer.contents ∨
      s.fsm.cmd = some .ipd ∧ (s.fsm.state = .formatReadArgs ∨
        s.fsm.state = .readLoop ∧ s.fsm.line = s.app.ipdDataLength)) ∧
      s.trace.Pairwise Later := by
  have hs : Noticed s :=
    run_invariant Noticed (fun _ _ _ h hok hstep => noticed_step h hok hstep) noticed_init hok
      hrun
  refine ⟨fun hpos => (hs.covered hpos).imp_right ?_, hs.later⟩
  rintro ⟨hcmd, hformat | hread⟩
  · exact ⟨hcmd, .inl hformat⟩
  · exact ⟨hcmd, .inr ⟨hread, hs.exact hpos hread hcmd⟩⟩

instance decidableNotifies (s : State) : ∀ a, Decidable (Notifies s a)
  | .main _ => inferInstanceAs (Decidable (_ ∧ _))
  | .mesh _ | .deliver | .segment .. | .timer _ | .datagram .. | .txBuffer .. | .otherOpen
  | .otherClose _ => inferInstanceAs (Decidable True)

/-- Each of two connections receives a datagram, and the first is closed between. -/
def orderlyNotices : List Act :=
  udpSession ++ [datagramOf [1, 2], .deliver] ++ idleTurns 20 ++ commandLine .cipclose ++
    goOn 3 ++ commandLine (.cipstart (some false)) ++ goOn 7 ++ [datagramOf [3], .deliver] ++
    idleTurns 20

theorem orderlyNotices_noticed :
    ∃ s, run step .init orderlyNotices = some s ∧
      .line (.ipd 2) 1 ∈ s.trace ∧ .closed 1 ∈ s.trace ∧ .line (.ipd 1) 2 ∈ s.trace ∧
      s.trace.Pairwise Later := by
  have hrun : ∃ s, run step .init orderlyNotices = some s ∧
      .line (.ipd 2) 1 ∈ s.trace ∧ .closed 1 ∈ s.trace ∧ .line (.ipd 1) 2 ∈ s.trace := by
    decide +kernel
  obtain ⟨s, hs, hfirst, hclosed, hsecond⟩ := hrun
  exact ⟨s, hs, hfirst, hclosed, hsecond, (ipd_noticed (by decide +kernel) hs).2⟩

/-- The main loop turns round, with a command to trigger, while no character can be
written. -/
def stalledTurn : List Act := List.replicate 6 (.main { Input.idle with free := false })

/-- `+CIPSEND` of one byte on a UDP socket. -/
def sendByte : List Act :=
  commandLine (.cipsend 1) ++ goOn 2 ++ [.main { Input.idle with chars := [0] }] ++ goOn 1

/-- Four datagrams are sent; a line of `+IPD` gets stuck, and meanwhile the four come back
as failed and another one is received.  Then everything is written. -/
def fullRing : List Act :=
  udpSession ++ (List.replicate 4 sendByte).flatten ++ [datagramOf [1], .deliver] ++
    idleTurns 3 ++
    (List.replicate 4 ([.txBuffer .ample .txFail 1, .deliver] ++ stalledTurn)).flatten ++
    [datagramOf [2, 3], .deliver] ++ stalledTurn ++ idleTurns 40

/-- A datagram is announced after `+CIPCLOSE` has been called. -/
def lateNotice : List Act :=
  udpSession ++ commandLine .cipclose ++ [datagramOf [1], .deliver] ++ goOn 3 ++ idleTurns 20

/-- **Lost and late notices.**  A full ring leaves a length waiting with no command to
write it, for good; a length the callback takes during `+CIPCLOSE` is written behind it. -/
theorem ipd_not_noticed :
    (∃ s, run step .init fullRing = some s ∧ s.app.ipdDataLength = 3 ∧
      s.fsm.buffer.contents = [] ∧ s.fsm.state = .idle) ∧
    ∃ s, run step .init lateNotice = some s ∧
      ∃ rest ∈ s.trace.tails, rest.head? = some (.closed 1) ∧ .line (.ipd 1) 1 ∈ rest := by
  decide +kernel

end Modem
