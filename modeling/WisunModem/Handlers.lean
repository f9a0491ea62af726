import WisunModem.Connection

/-!
# What a handler does to the connection

A step of the main thread does one of ten things to the socket and to
`txPendingFlg`.  Where it comes from is said with each: the invariants of the
connection are proved from this, and none of them takes the handlers apart again.
-/

namespace Modem

open NsSocket Unsolicited

/-- The socket and `txPendingFlg` behind a step of the main thread. -/
inductive Effect (s : State) (i : Input) : Option Socket → Bool → Prop
  | same : Effect s i s.sock s.app.txPendingFlg
  | flagged (data : List UInt8) (hpc : s.pc = .sendFlag data) : Effect s i s.sock true
  | cleared : Effect s i s.sock false
  | gone (hpc : s.pc = .startClose ∨ s.pc = .startFail ∨ s.pc = .closeSocket) :
      Effect s i none s.app.txPendingFlg
  | opened (id : Nat) (hpc : s.pc = .startOpen) :
      Effect s i (some (socketOpen id s.app.isTcp netBufSize)) s.app.txPendingFlg
  | connected (so : Socket) (hpc : s.pc = .startConnect) (hso : s.sock = some so) :
      Effect s i (some (socketConnect i.mem so i.ready).1) s.app.txPendingFlg
  | shutdown (so : Socket) (hpc : s.pc = .closeShutdown) (hso : s.sock = some so) :
      Effect s i (some (socketShutdown i.mem so).2) s.app.txPendingFlg
  | sent (data : List UInt8) (so so' : Socket) (hpc : s.pc = .sendCall data)
      (hso : s.sock = some so) (hsend : socketSend i.mem so i.header data = .ok so') :
      Effect s i (some so') s.app.txPendingFlg
  | datagram (data : List UInt8) (so : Socket) (hpc : s.pc = .sendDatagram data)
      (hso : s.sock = some so) :
      Effect s i (some { so with carried := so.carried + 1 }) s.app.txPendingFlg
  | received (data : List UInt8) (so so' : Socket) (hpc : s.pc = .recvCall)
      (hidle : s.fsm.state = .idle) (hlen : s.app.recvDataLength ≠ 0) (hso : s.sock = some so)
      (hrecv : socketRecv so (min s.app.recvDataLength netBufSize) = some (data, so')) :
      Effect s i (some so') s.app.txPendingFlg

/-- Only `socket_open` makes a socket. -/
theorem Effect.attached {s : State} {i : Input} {sock : Option Socket} {tx : Bool}
    (h : Effect s i sock tx) (hsome : sock ≠ none) : s.sock ≠ none ∨ s.pc = .startOpen := by
  cases h with
  | same | flagged | cleared => exact .inl hsome
  | gone => exact absurd rfl hsome
  | opened id hpc => exact .inr hpc
  | connected so _ hso | shutdown so _ hso | sent _ so _ _ hso | datagram _ so _ hso
  | received _ so _ _ _ _ hso => exact .inl (by rw [hso]; exact Option.some_ne_none so)

/-- Notes the main thread makes. -/
def Note.ofMain : Note → Bool
  | .dataEnd _ | .lost .. => false
  | _ => true

/-- What a step of the main thread does to the connection. -/
structure Handled (s : State) (i : Input) (s' : State) : Prop where
  effect : Effect s i s'.sock s'.app.txPendingFlg
  raised : s'.app.ipConnectedFlg = true → s.app.ipConnectedFlg = true ∨ ∃ b, s.pc = .startUdp b
  lowered : s.app.ipConnectedFlg = true → s'.app.ipConnectedFlg = true ∨ s.pc = .closeFlag
  trace : ∃ notes, s'.trace = s.trace ++ notes ∧ ∀ n ∈ notes, n.ofMain = true

theorem Note.ofMain_of_quiet {n : Note} (h : n.quiet = true) : n.ofMain = true := by
  cases n with
  | dataEnd | lost => cases h
  | _ => rfl

theorem ofMain_answered (cmd : CmdState) (ok flag : Bool) :
    ∀ n ∈ cmd.answered ok flag, n.ofMain = true := by
  cases cmd <;> simp [CmdState.answered, Note.ofMain]

theorem handled_quiet {s s' : State} {i : Input} (h : Quiet s s') : Handled s i s' := by
  obtain ⟨notes, htrace, hnotes⟩ := h.trace
  refine ⟨?_, fun hf => .inl (h.ipConnectedFlg ▸ hf),
    fun hf => .inl (h.ipConnectedFlg.trans hf), notes, htrace,
    fun n hn => Note.ofMain_of_quiet (hnotes n hn)⟩
  rw [h.sock, h.txPendingFlg]
  exact .same

/-- The answer to a command adds nothing. -/
theorem Handled.answer {s s' : State} {i : Input} (h : Handled s i s') (ok : Bool) :
    Handled s i (s'.answer ok) := by
  obtain ⟨notes, htrace, hnotes⟩ := h.trace
  refine ⟨h.effect, h.raised, h.lowered,
    notes ++ s'.cmd.answered ok s'.app.ipConnectedFlg, ?_, ?_⟩
  · rw [State.answer_trace, htrace, List.append_assoc]
  · intro n hn
    rcases List.mem_append.mp hn with hl | hr
    · exact hnotes n hl
    · exact ofMain_answered _ _ _ n hr

theorem Handled.note {s s' : State} {i : Input} {n : Note} (h : Handled s i s')
    (hn : n.ofMain = true) : Handled s i (s'.note n) := by
  obtain ⟨notes, htrace, hnotes⟩ := h.trace
  refine ⟨h.effect, h.raised, h.lowered, notes ++ [n], ?_, ?_⟩
  · rw [State.note_trace, htrace, List.append_assoc]
  · intro m hm
    rcases List.mem_append.mp hm with hl | hr
    · exact hnotes m hl
    · rw [List.mem_singleton.mp hr, hn]

/-- Other fields of the state do not matter. -/
theorem Handled.other {s s' s'' : State} {i : Input} (h : Handled s i s')
    (hsock : s''.sock = s'.sock) (htx : s''.app.txPendingFlg = s'.app.txPendingFlg)
    (hflag : s''.app.ipConnectedFlg = s'.app.ipConnectedFlg) (htrace : s''.trace = s'.trace) :
    Handled s i s'' := by
  refine ⟨?_, ?_, ?_, ?_⟩
  · rw [hsock, htx]
    exact h.effect
  · rw [hflag]
    exact h.raised
  · rw [hflag]
    exact h.lowered
  · rw [htrace]
    exact h.trace

theorem handled_refl (s : State) (i : Input) : Handled s i s :=
  ⟨.same, .inl, .inl, [], by simp, by simp⟩

/-- Only the socket changes. -/
theorem handled_sock {s : State} {i : Input} {sock : Option Socket}
    (h : Effect s i sock s.app.txPendingFlg) : Handled s i { s with sock } :=
  ⟨h, .inl, .inl, [], by simp, by simp⟩

theorem Handled.sendDone {s s' : State} {i : Input} (h : Handled s i s') :
    Handled s i (sendDone s') := by
  unfold Modem.sendDone
  dsimp only
  split
  · exact h.other rfl rfl rfl rfl
  · refine Handled.answer ?_ true
    exact h.other rfl rfl rfl rfl

theorem handled_sendFailed (s : State) (i : Input) : Handled s i (sendFailed s) := by
  have hcleared : Handled s i { s with app := { s.app with txPendingFlg := false } } :=
    ⟨.cleared, .inl, .inl, [], by simp, by simp⟩
  exact hcleared.answer false

theorem handled_sendCall {s : State} {data : List UInt8} {i : Input} (hs : Staged s)
    (hpc : s.pc = .sendCall data) : Handled s i (sendCall s data i) := by
  unfold sendCall
  rw [hs.own]
  cases hso : s.sock with
  | none =>
      dsimp only
      split
      · exact (handled_refl s i).sendDone
      · exact handled_sendFailed s i
  | some so =>
      dsimp only
      cases hsend : socketSend i.mem so i.header data with
      | error => exact handled_sendFailed s i
      | ok so' =>
          have hsent : Effect s i (some so') s.app.txPendingFlg :=
            .sent data so so' hpc hso hsend
          exact ((handled_sock hsent).note rfl).sendDone

theorem handled_sendDatagram {s : State} {data : List UInt8} {i : Input} (hs : Staged s)
    (hpc : s.pc = .sendDatagram data) : Handled s i (sendDatagram s i.ready) := by
  unfold sendDatagram
  rw [hs.own]
  cases hso : s.sock with
  | none =>
      dsimp only
      split
      · exact (handled_refl s i).sendDone
      · exact handled_sendFailed s i
  | some so =>
      dsimp only
      split
      · exact (handled_sock (.datagram data so hpc hso)).sendDone
      · exact handled_sendFailed s i

theorem handled_recvCall {s : State} {i : Input} (hs : Staged s) (hpc : s.pc = .recvCall) :
    Handled s i (recvCall s i) := by
  unfold recvCall
  split
  · exact (handled_refl s i).other rfl rfl rfl rfl
  · rename_i hidle
    split
    · exact (handled_refl s i).answer false
    · rename_i hlen
      rw [hs.own]
      cases hso : s.sock with
      | none => exact (handled_refl s i).answer _
      | some so =>
          dsimp only
          cases hrecv : socketRecv so (min s.app.recvDataLength netBufSize) with
          | none => exact (handled_refl s i).answer false
          | some r =>
              obtain ⟨data, so'⟩ := r
              have hread : Handled s i { s with sock := some so' } :=
                handled_sock (.received data so so' hpc (by simpa using hidle) hlen hso hrecv)
              dsimp only
              split
              · exact (hread.note rfl).answer true
              · exact hread.answer false

theorem handled_startConn (s : State) (i : Input) (tcp : Option Bool) :
    Handled s i (startConn s tcp) := by
  unfold startConn
  split
  · exact (handled_refl s i).answer false
  · cases tcp with
    | none => exact (handled_refl s i).answer false
    | some tcp => exact (handled_refl s i).other rfl rfl rfl rfl

/-- `socket_close` of the handle. -/
theorem handled_close {s : State} {i : Input} (hs : Staged s)
    (hpc : s.pc = .startClose ∨ s.pc = .startFail ∨ s.pc = .closeSocket) :
    Handled s i (s.socketClose s.app.socketId) := by
  refine ⟨?_, .inl, .inl, _, rfl, by simp [Note.ofMain]⟩
  rw [hs.closed]
  exact .gone hpc

theorem handled_startOpen {s : State} {i : Input} (hpc : s.pc = .startOpen) :
    Handled s i (startOpen s i.ready) := by
  unfold startOpen
  split
  · exact ⟨.opened _ hpc, .inl, .inl, _, rfl, by simp [Note.ofMain]⟩
  · refine Handled.answer (Handled.note ?_ rfl) false
    exact (handled_refl s i).other rfl rfl rfl rfl

theorem handled_startConnect {s : State} {i : Input} (hs : Staged s)
    (hpc : s.pc = .startConnect) : Handled s i (startConnect s i.ready i.mem) := by
  unfold startConnect
  split
  · rw [hs.own]
    cases hso : s.sock with
    | none => exact (handled_refl s i).other rfl rfl rfl rfl
    | some so =>
        have hconnected : Handled s i
            { s with sock := some (socketConnect i.mem so i.ready).1 } :=
          handled_sock (.connected so hpc hso)
        exact hconnected.other rfl rfl rfl rfl
  · exact (handled_refl s i).other rfl rfl rfl rfl

theorem handled_startWait {s s' : State} {i : Input} {timeout : Bool}
    (h : startWait s timeout = some s') : Handled s i s' := by
  unfold startWait at h
  split at h
  · cases h
    split
    · exact (handled_refl s i).answer true
    · exact (handled_refl s i).other rfl rfl rfl rfl
  · split at h
    · cases h
      exact (handled_refl s i).other rfl rfl rfl rfl
    · cases h

theorem handled_closeShutdown {s : State} {i : Input} (hs : Staged s)
    (hpc : s.pc = .closeShutdown) : Handled s i (closeShutdown s i.mem i.ready) := by
  unfold closeShutdown
  rw [hs.own]
  cases hso : s.sock with
  | none => exact (handled_refl s i).other rfl rfl rfl rfl
  | some so =>
      have hshut : Handled s i { s with sock := some (socketShutdown i.mem so).2 } :=
        handled_sock (.shutdown so hpc hso)
      exact hshut.other rfl rfl rfl rfl

/-- **A step of the main thread.** -/
theorem handled_main {s s' : State} {i : Input} (hs : Staged s)
    (h : mainStep s i = some s') : Handled s i s' := by
  by_cases hq : s.pc.quiet = true
  · exact handled_quiet (quiet_main hq h)
  · unfold mainStep at h
    cases hpc : s.pc with
    | startConn tcp =>
        rw [hpc] at h
        cases h
        exact handled_startConn s i tcp
    | startClose =>
        rw [hpc] at h
        cases h
        split
        · exact (handled_close hs (.inl hpc)).other rfl rfl rfl rfl
        · exact (handled_refl s i).other rfl rfl rfl rfl
    | startOpen =>
        rw [hpc] at h
        cases h
        exact handled_startOpen hpc
    | startConnect =>
        rw [hpc] at h
        cases h
        exact handled_startConnect hs hpc
    | startUdp bound =>
        rw [hpc] at h
        cases h
        exact ⟨.same, fun _ => .inr ⟨bound, hpc⟩, fun _ => .inl rfl, [], by simp, by simp⟩
    | startWait =>
        rw [hpc] at h
        exact handled_startWait h
    | startFail =>
        rw [hpc] at h
        cases h
        exact ((handled_close hs (.inr (.inl hpc))).note rfl).answer false
    | closeShutdown =>
        rw [hpc] at h
        cases h
        exact handled_closeShutdown hs hpc
    | closeReset =>
        rw [hpc] at h
        cases h
        exact ⟨.cleared, .inl, .inl, [], by simp, by simp⟩
    | closeFlag =>
        rw [hpc] at h
        cases h
        exact ⟨.same, (fun hf => nomatch hf), fun _ => .inr hpc, [], by simp, by simp⟩
    | closeSocket =>
        rw [hpc] at h
        cases h
        have hclosed : Handled s i
            ((s.socketClose s.app.socketId).note (.closed s.mark.conn)) :=
          (handled_close hs (.inr (.inr hpc))).note rfl
        refine Handled.answer ?_ true
        exact hclosed.other rfl rfl rfl rfl
    | sendFlag data =>
        rw [hpc] at h
        cases h
        exact ⟨.flagged data hpc, .inl, .inl, [], by simp, by simp⟩
    | sendCall data =>
        rw [hpc] at h
        cases h
        exact handled_sendCall hs hpc
    | sendDatagram data =>
        rw [hpc] at h
        cases h
        exact handled_sendDatagram hs hpc
    | recvCall =>
        rw [hpc] at h
        cases h
        exact handled_recvCall hs hpc
    | _ => simp [hpc, Pc.quiet] at hq

/-! ## Where a step comes from -/

/-- The places between the steps of one call, with the place before each. -/
def Pc.after : Pc → Pc → Prop
  | .startOpen, pc => pc = .startClose
  | .startConnect, pc => pc = .startOpen
  | .startUdp _, pc => pc = .startConnect
  | .startWait, pc | .startFail, pc =>
      pc = .startConnect ∨ (∃ b, pc = .startUdp b) ∨ pc = .startWait
  | .closeFlag, pc => pc = .closeReset
  | .closeSocket, pc => pc = .closeFlag
  | .sendCall data, pc => pc = .sendFlag data
  | _, _ => True

theorem after_quiet {s s' : State} {i : Input} (hq : s.pc.quiet = true)
    (h : mainStep s i = some s') : s'.pc.after s.pc := by
  have hphase := (quiet_main hq h).phase
  have hinner := inner_main hq h
  cases hpc : s'.pc with
  | startOpen | startConnect | startUdp | startWait | startFail =>
      rw [hpc] at hphase
      cases hpc' : s.pc <;> simp_all [Pc.phase, Pc.quiet]
  | closeFlag | closeSocket | sendCall =>
      rw [hpc] at hinner
      cases hinner
  | _ => trivial

theorem sendDone_pc (s : State) : (sendDone s).pc = .top := by
  unfold sendDone
  dsimp only
  split <;> rfl

theorem sendCall_pc (s : State) (data : List UInt8) (i : Input) : (sendCall s data i).pc = .top := by
  unfold sendCall
  split
  · split
    · exact sendDone_pc _
    · rfl
  · split
    · exact sendDone_pc _
    · rfl

theorem sendDatagram_pc (s : State) (ready : Bool) : (sendDatagram s ready).pc = .top := by
  unfold sendDatagram
  split
  · split
    · exact sendDone_pc _
    · rfl
  · split
    · exact sendDone_pc _
    · rfl

theorem recvCall_pc (s : State) (i : Input) : (recvCall s i).pc = .top := by
  unfold recvCall
  split
  · rfl
  · split
    · rfl
    · split
      · split
        · dsimp only
          split <;> rfl
        · rfl
      · rfl

/-- **Each step comes from the place before it.** -/
theorem after_main {s s' : State} {i : Input} (h : mainStep s i = some s') :
    s'.pc.after s.pc := by
  by_cases hq : s.pc.quiet = true
  · exact after_quiet hq h
  · unfold mainStep at h
    cases hpc : s.pc with
    | startConn tcp =>
        rw [hpc] at h
        cases h
        unfold startConn
        split
        · trivial
        · cases tcp <;> trivial
    | startClose =>
        rw [hpc] at h
        cases h
        rfl
    | startOpen =>
        rw [hpc] at h
        cases h
        unfold startOpen
        split
        · rfl
        · trivial
    | startConnect =>
        rw [hpc] at h
        cases h
        unfold startConnect
        split
        · split
          · exact .inl rfl
          · dsimp only
            split <;> exact .inl rfl
        · rfl
    | startUdp bound =>
        rw [hpc] at h
        cases h
        cases bound <;> exact .inr (.inl ⟨_, rfl⟩)
    | startWait =>
        rw [hpc] at h
        dsimp only at h
        unfold startWait at h
        split at h
        · cases h
          split
          · trivial
          · exact .inr (.inr rfl)
        · split at h
          · cases h
            exact .inr (.inr rfl)
          · cases h
    | startFail =>
        rw [hpc] at h
        cases h
        trivial
    | closeShutdown =>
        rw [hpc] at h
        cases h
        unfold closeShutdown
        split
        · dsimp only
          split <;> trivial
        · rw [State.goto_pc]
          split <;> trivial
    | closeReset | closeFlag | sendFlag =>
        rw [hpc] at h
        cases h
        rfl
    | closeSocket =>
        rw [hpc] at h
        cases h
        trivial
    | sendCall data =>
        rw [hpc] at h
        cases h
        rw [sendCall_pc]
        trivial
    | sendDatagram data =>
        rw [hpc] at h
        cases h
        rw [sendDatagram_pc]
        trivial
    | recvCall =>
        rw [hpc] at h
        cases h
        rw [recvCall_pc]
        trivial
    | _ => simp [hpc, Pc.quiet] at hq

end Modem
