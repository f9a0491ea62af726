import WisunModem.Runs
import WisunModem.Connection

/-!
# Who owns the socket handle

`socket_id` is closed by `+CIPSTART` before it opens a socket and when it fails,
and by `+CIPCLOSE`.  The error path of `+CIPSTART` closes the socket without
forgetting its id, and does not look at the connected flag.  Runs which come to
neither of the two keep the books straight: there is one close for each open, no
close hits a socket of another owner, and the flag is set only while the socket
is open.
-/

namespace Modem

open Runs NsSocket Unsolicited

/-- The error path of `+CIPSTART` is entered with the flag clear, and an id it left
behind is not closed again. -/
def Orderly (s : State) : Act → Prop
  | .main _ =>
      (s.pc = .startFail → s.app.ipConnectedFlg = false) ∧
        (s.pc = .startClose ∨ s.pc = .closeSocket → s.sock.isNone = true → s.app.socketId < 0)
  | _ => True

instance decidableOrderly (s : State) : ∀ a, Decidable (Orderly s a)
  | .main _ => inferInstanceAs (Decidable (_ ∧ _))
  | .mesh _ | .deliver | .segment .. | .timer _ | .datagram .. | .txBuffer .. | .otherOpen
  | .otherClose _ => inferInstanceAs (Decidable True)

/-- Notes which are no entries in the books of open sockets. -/
def Note.aside : Note → Bool
  | .opened | .closeCall .. | .failed _ => false
  | _ => true

/-- The calls of `socket_close` which closed the own socket. -/
def ownCloses (trace : List Note) : Nat :=
  trace.countP fun n => match n with
    | .closeCall _ .own => true
    | _ => false

def opens (trace : List Note) : Nat := trace.count .opened

/-- The books of open sockets.  `attached` counts the socket still open. -/
structure Ledger (trace : List Note) (attached : Nat) : Prop where
  balance : opens trace = ownCloses trace + attached
  calls : ∀ id target, .closeCall id target ∈ trace → target = .own ∨ id < 0
  failed : ∀ flag, .failed flag ∈ trace → flag = false

theorem Note.aside_of_quiet {n : Note} (h : n.quiet = true) : n.aside = true := by
  cases n with
  | opened | closeCall | failed => cases h
  | _ => rfl

theorem Ledger.add {trace notes : List Note} {attached : Nat} (h : Ledger trace attached)
    (hnotes : ∀ n ∈ notes, n.aside = true) : Ledger (trace ++ notes) attached := by
  have hopens : opens notes = 0 := by
    refine List.count_eq_zero.mpr fun hmem => ?_
    cases hnotes _ hmem
  have hcloses : ownCloses notes = 0 := by
    refine List.countP_eq_zero.mpr fun n hmem => ?_
    have hn := hnotes n hmem
    cases n with
    | opened | closeCall | failed => cases hn
    | _ => simp
  refine ⟨?_, fun id target hmem => ?_, fun flag hmem => ?_⟩
  · have hbalance := h.balance
    simp only [opens, ownCloses, List.count_append, List.countP_append] at *
    omega
  · refine (List.mem_append.mp hmem).elim (h.calls id target) fun hr => ?_
    cases hnotes _ hr
  · refine (List.mem_append.mp hmem).elim (h.failed flag) fun hr => ?_
    cases hnotes _ hr

/-- What is kept by an orderly run. -/
structure Owned (s : State) : Prop where
  staged : Staged s
  flag : s.app.ipConnectedFlg = true → s.sock ≠ none
  closing : s.pc = .closeSocket → s.app.ipConnectedFlg = false
  ledger : Ledger s.trace s.sock.toList.length

theorem aside_answered (cmd : CmdState) (ok flag : Bool) :
    ∀ n ∈ cmd.answered ok flag, n.aside = true := by
  cases cmd <;> simp [CmdState.answered, Note.aside]

/-- A step that opens and closes nothing and does not set the flag. -/
theorem Owned.keep {s s' : State} {notes : List Note} (h : Owned s) (hstaged : Staged s')
    (hsock : s'.sock.isSome = s.sock.isSome)
    (hflag : s'.app.ipConnectedFlg = true → s.app.ipConnectedFlg = true)
    (hclosing : s'.pc = .closeSocket → s'.app.ipConnectedFlg = false)
    (htrace : s'.trace = s.trace ++ notes) (hnotes : ∀ n ∈ notes, n.aside = true) :
    Owned s' := by
  have hlen : s'.sock.toList.length = s.sock.toList.length := by
    cases hs : s.sock <;> cases hs' : s'.sock <;> simp_all
  refine ⟨hstaged, fun hf => ?_, hclosing, ?_⟩
  · have hsome := h.flag (hflag hf)
    cases hs : s.sock <;> cases hs' : s'.sock <;> simp_all
  · rw [htrace, hlen]
    exact h.ledger.add hnotes

theorem Owned.quiet {s s' : State} (h : Owned s) (hq : Quiet s s')
    (hinner : s'.pc.inner = false) : Owned s' := by
  obtain ⟨notes, htrace, hnotes⟩ := hq.trace
  refine h.keep (h.staged.quiet hq) (by rw [hq.sock]) (fun hf => hq.ipConnectedFlg ▸ hf)
    (fun hpc => ?_) htrace fun n hn => Note.aside_of_quiet (hnotes n hn)
  rw [hpc] at hinner
  cases hinner

/-- `socket_close` of the handle, when it is orderly. -/
theorem Ledger.close {s : State} (h : Ledger s.trace s.sock.toList.length) (hs : Staged s)
    (hok : s.sock.isNone = true → s.app.socketId < 0) :
    Ledger (s.socketClose s.app.socketId).trace 0 := by
  rw [State.socketClose_trace]
  cases hso : s.sock with
  | none =>
      have htarget : s.target s.app.socketId = .nothing := by
        have := hok (by rw [hso]; rfl)
        unfold State.target
        rw [hs.own, hso, if_neg (by simp), if_neg (by omega)]
      have hbalance := h.balance
      rw [hso] at hbalance
      rw [htarget]
      refine ⟨?_, fun id target hmem => ?_, fun flag hmem => ?_⟩
      · simpa [opens, ownCloses, List.count_append, List.countP_append] using hbalance
      · rcases List.mem_append.mp hmem with hl | hr
        · exact h.calls id target hl
        · simp only [List.mem_singleton, Note.closeCall.injEq] at hr
          exact .inr (hr.1 ▸ hok (by rw [hso]; rfl))
      · exact h.failed flag (by simpa using hmem)
  | some so =>
      have hbalance := h.balance
      rw [hso] at hbalance
      rw [hs.target hso]
      refine ⟨?_, fun id target hmem => ?_, fun flag hmem => ?_⟩
      · simpa [opens, ownCloses, List.count_append, List.countP_append] using hbalance
      · rcases List.mem_append.mp hmem with hl | hr
        · exact h.calls id target hl
        · simp only [List.mem_singleton, Note.closeCall.injEq] at hr
          exact .inl hr.2
      · exact h.failed flag (by simpa using hmem)

theorem Ledger.fail {trace : List Note} {attached : Nat} {flag : Bool}
    (h : Ledger trace attached) (hflag : flag = false) :
    Ledger (trace ++ [.failed flag]) attached := by
  refine ⟨?_, fun id target hmem => h.calls id target (by simpa using hmem), fun b hmem => ?_⟩
  · simpa [opens, ownCloses, List.count_append, List.countP_append] using h.balance
  · rcases List.mem_append.mp hmem with hl | hr
    · exact h.failed b hl
    · simp only [List.mem_singleton, Note.failed.injEq] at hr
      rw [hr, hflag]

theorem Ledger.open {trace : List Note} (h : Ledger trace 0) :
    Ledger (trace ++ [.opened]) 1 := by
  refine ⟨?_, fun id target hmem => h.calls id target (by simpa using hmem),
    fun b hmem => h.failed b (by simpa using hmem)⟩
  simpa [opens, ownCloses, List.count_append, List.countP_append] using h.balance

theorem owned_startConn {s : State} {tcp : Option Bool} (h : Owned s)
    (hstaged : Staged (startConn s tcp)) : Owned (startConn s tcp) := by
  unfold startConn at hstaged ⊢
  split
  · rename_i hflag
    rw [if_pos hflag] at hstaged
    exact h.keep hstaged rfl id (fun hpc => nomatch hpc) rfl (aside_answered _ _ _)
  · rename_i hflag
    rw [if_neg hflag] at hstaged
    cases tcp with
    | none => exact h.keep hstaged rfl id (fun hpc => nomatch hpc) rfl (aside_answered _ _ _)
    | some tcp =>
        exact h.keep hstaged rfl id (fun hpc => nomatch hpc) (List.append_nil s.trace).symm
          (by simp)

theorem owned_startClose {s : State} (h : Owned s) (hpc : s.pc = .startClose)
    (hok : s.sock.isNone = true → s.app.socketId < 0) :
    Owned ((if s.app.socketId ≥ 0 then s.socketClose s.app.socketId else s).goto
      .startOpen) := by
  have hstaged := staged_startClose h.staged hpc
  have hnone := hstaged.stage.2
  have hflag := hstaged.stage.1
  refine ⟨hstaged, fun hf => ?_, fun hpc => (nomatch hpc), ?_⟩
  · rw [hflag] at hf
    cases hf
  · rw [hnone, State.goto_trace]
    split
    · exact h.ledger.close h.staged hok
    · rename_i hneg
      have hsock : s.sock = none := by
        rw [State.goto_sock, if_neg hneg] at hnone
        exact hnone
      have hledger := h.ledger
      rw [hsock] at hledger
      exact hledger

theorem owned_startOpen {s : State} (h : Owned s) (hpc : s.pc = .startOpen) (ready : Bool) :
    Owned (startOpen s ready) := by
  have hstage := h.staged.stage
  rw [hpc] at hstage
  obtain ⟨hflag, hnone⟩ := hstage
  have hstaged := staged_startOpen h.staged hpc ready
  have hledger := h.ledger
  rw [hnone] at hledger
  have hbooks : Ledger (startOpen s ready).trace (startOpen s ready).sock.toList.length ∧
      (startOpen s ready).app.ipConnectedFlg = false ∧
      (startOpen s ready).pc ≠ .closeSocket := by
    unfold startOpen
    split
    · exact ⟨hledger.open, hflag, (fun hpc => nomatch hpc)⟩
    · refine ⟨?_, hflag, (fun hpc => nomatch hpc)⟩
      rw [State.answer_sock, State.note_sock, hnone]
      exact (hledger.fail hflag).add (aside_answered _ _ _)
  refine ⟨hstaged, fun hf => ?_, fun hpc => absurd hpc hbooks.2.2, hbooks.1⟩
  rw [hbooks.2.1] at hf
  cases hf

theorem owned_startFail {s : State} (h : Owned s) (hpc : s.pc = .startFail)
    (hflag : s.app.ipConnectedFlg = false) :
    Owned (((s.socketClose s.app.socketId).note (.failed s.app.ipConnectedFlg)).answer
      false) := by
  have hnone := h.staged.closed
  have hstage := h.staged.stage
  rw [hpc] at hstage
  obtain ⟨so, hso, -⟩ := hstage
  have hledger := h.ledger.close h.staged fun hno => by simp [hso] at hno
  refine ⟨.nothing hnone rfl, fun hf => ?_, (fun hpc => nomatch hpc), ?_⟩
  · have hf : s.app.ipConnectedFlg = true := hf
    rw [hflag] at hf
    cases hf
  · rw [State.answer_sock, State.note_sock, hnone]
    exact (hledger.fail hflag).add (aside_answered _ _ _)

theorem owned_closeSocket {s : State} (h : Owned s) (hpc : s.pc = .closeSocket)
    (hok : s.sock.isNone = true → s.app.socketId < 0) : Owned (closeSocket s) := by
  have hnone := h.staged.closed
  have hledger := h.ledger.close h.staged hok
  have hstaged : Staged (closeSocket s) := .nothing hnone rfl
  refine ⟨hstaged, fun hf => ?_, (fun hpc => nomatch hpc), ?_⟩
  · have hf : s.app.ipConnectedFlg = true := hf
    rw [h.closing hpc] at hf
    cases hf
  · have hsock : (closeSocket s).sock = none := hnone
    rw [hsock]
    have hnotes : ∀ n ∈ [Note.closed s.mark.conn], n.aside = true := by simp [Note.aside]
    exact (hledger.add hnotes).add (aside_answered _ _ _)

/-- A step of the stack, or of the main thread, which only changes the socket. -/
theorem Owned.stored {s : State} {so so' : Socket} (h : Owned s) (hso : s.sock = some so)
    (hstaged : Staged { s with sock := some so' }) : Owned { s with sock := some so' } :=
  h.keep hstaged (by rw [hso]; rfl) id h.closing (List.append_nil s.trace).symm (by simp)

theorem owned_startConnect {s : State} (h : Owned s) (hpc : s.pc = .startConnect)
    (ready : Bool) (mem : Mem) : Owned (startConnect s ready mem) := by
  have hstage := h.staged.stage
  rw [hpc] at hstage
  obtain ⟨-, so, hso, -⟩ := hstage
  have hkept : (startConnect s ready mem).sock.isSome = s.sock.isSome ∧
      (startConnect s ready mem).app = s.app ∧
      (startConnect s ready mem).pc ≠ .closeSocket ∧
      (startConnect s ready mem).trace = s.trace := by
    unfold startConnect
    rw [h.staged.own, hso]
    split
    · refine ⟨rfl, rfl, ?_, rfl⟩
      dsimp only
      split <;> exact fun hpc => nomatch hpc
    · exact ⟨by rw [State.goto_sock, hso], rfl, (fun hpc => nomatch hpc), rfl⟩
  obtain ⟨hsock, happ, hpc', htrace⟩ := hkept
  exact h.keep (staged_startConnect h.staged hpc ready mem) hsock (fun hf => happ ▸ hf)
    (fun hclosing => absurd hclosing hpc') (htrace.trans (List.append_nil _).symm) (by simp)

theorem owned_startUdp {s : State} {bound : Bool} (h : Owned s) (hpc : s.pc = .startUdp bound) :
    Owned { s with
      app := { s.app with ipConnectedFlg := true }
      pc := if bound then .startWait else .startFail } := by
  have hstage := h.staged.stage
  rw [hpc] at hstage
  obtain ⟨so, hso, -⟩ := hstage
  refine ⟨staged_startUdp h.staged hpc, fun _ hno => ?_, fun hclosing => ?_, h.ledger⟩
  · rw [hso] at hno
    cases hno
  · dsimp only at hclosing
    split at hclosing <;> cases hclosing

theorem owned_startWait {s s' : State} {timeout : Bool} (hs : Owned s) (hpc : s.pc = .startWait)
    (h : startWait s timeout = some s') : Owned s' := by
  have hstaged := staged_startWait hs.staged hpc h
  have hfail : s' = s.goto .startFail → Owned s' := by
    intro heq
    rw [heq] at hstaged ⊢
    exact hs.keep hstaged rfl id (fun hpc => nomatch hpc) (List.append_nil s.trace).symm (by simp)
  unfold startWait at h
  split at h
  · split at h
    · cases h
      exact hs.keep hstaged rfl id (fun hpc => nomatch hpc) rfl (aside_answered _ _ _)
    · cases h
      exact hfail rfl
  · split at h
    · cases h
      exact hfail rfl
    · cases h

theorem owned_closeShutdown {s : State} (h : Owned s) (hpc : s.pc = .closeShutdown) (mem : Mem)
    (ready : Bool) : Owned (closeShutdown s mem ready) := by
  have hkept : (closeShutdown s mem ready).sock.isSome = s.sock.isSome ∧
      (closeShutdown s mem ready).app = s.app ∧
      (closeShutdown s mem ready).pc ≠ .closeSocket ∧
      (closeShutdown s mem ready).trace = s.trace := by
    unfold closeShutdown
    rw [h.staged.own]
    cases hso : s.sock with
    | none =>
        refine ⟨by rw [State.goto_sock, hso], rfl, ?_, rfl⟩
        rw [State.goto_pc]
        split <;> exact fun hpc => nomatch hpc
    | some so =>
        refine ⟨rfl, rfl, ?_, rfl⟩
        dsimp only
        split <;> exact fun hpc => nomatch hpc
  obtain ⟨hsock, happ, hpc', htrace⟩ := hkept
  exact h.keep (staged_closeShutdown h.staged hpc mem ready) hsock (fun hf => happ ▸ hf)
    (fun hclosing => absurd hclosing hpc') (htrace.trans (List.append_nil _).symm) (by simp)

theorem owned_answer {s : State} (h : Owned s) (hphase : s.pc.phase = .settled) (ok : Bool) :
    Owned (s.answer ok) :=
  h.keep (staged_answer h.staged hphase ok) rfl id (fun hpc => nomatch hpc) rfl
    (aside_answered _ _ _)

theorem owned_sendDone {s : State} (h : Owned s) (hphase : s.pc.phase = .settled) :
    Owned (sendDone s) := by
  have hstaged := staged_sendDone h.staged hphase
  unfold sendDone at hstaged ⊢
  dsimp only at hstaged ⊢
  split
  · rename_i hleft
    rw [if_pos hleft] at hstaged
    exact h.keep hstaged rfl id (fun hpc => nomatch hpc) (List.append_nil s.trace).symm (by simp)
  · rename_i hleft
    rw [if_neg hleft] at hstaged
    exact h.keep hstaged rfl id (fun hpc => nomatch hpc) rfl (aside_answered _ _ _)

theorem owned_sendFailed {s : State} (h : Owned s) (hphase : s.pc.phase = .settled) :
    Owned (sendFailed s) :=
  h.keep (staged_sendFailed h.staged hphase) rfl id (fun hpc => nomatch hpc) rfl
    (aside_answered _ _ _)

theorem Owned.note {s : State} {n : Note} (h : Owned s) (hn : n.aside = true) :
    Owned (s.note n) := by
  have hstaged : Staged (s.note n) := h.staged.move rfl rfl rfl id rfl
  exact h.keep hstaged rfl id h.closing rfl (by simpa using hn)

theorem owned_sendCall {s : State} {data : List UInt8} (h : Owned s)
    (hpc : s.pc = .sendCall data) (i : Input) : Owned (sendCall s data i) := by
  have hphase : s.pc.phase = .settled := by rw [hpc]; rfl
  unfold sendCall
  rw [h.staged.own]
  cases hso : s.sock with
  | none =>
      dsimp only
      split
      · exact owned_sendDone h hphase
      · exact owned_sendFailed h hphase
  | some so =>
      dsimp only
      cases hsend : socketSend i.mem so i.header data with
      | error => exact owned_sendFailed h hphase
      | ok so' =>
          have hstored := h.stored hso
            (h.staged.stored hso hphase (kept_send (h.staged.kept so hso) hsend))
          have hnoted : Owned (({ s with sock := some so' } : State).note (.queued data)) :=
            hstored.note rfl
          exact owned_sendDone hnoted hphase

theorem owned_sendDatagram {s : State} {data : List UInt8} (h : Owned s)
    (hpc : s.pc = .sendDatagram data) (ready : Bool) : Owned (sendDatagram s ready) := by
  have hphase : s.pc.phase = .settled := by rw [hpc]; rfl
  unfold sendDatagram
  rw [h.staged.own]
  cases hso : s.sock with
  | none =>
      dsimp only
      split
      · exact owned_sendDone h hphase
      · exact owned_sendFailed h hphase
  | some so =>
      dsimp only
      split
      · have hkept : Kept s.app { so with carried := so.carried + 1 } :=
          (h.staged.kept so hso).queues rfl rfl rfl rfl rfl rfl (Nat.le_refl _)
        have hstored := h.stored hso
          (h.staged.stored hso hphase ⟨hkept, ⟨rfl, rfl, id, fun _ => rfl⟩⟩)
        exact owned_sendDone hstored hphase
      · exact owned_sendFailed h hphase

theorem owned_recvCall {s : State} (h : Owned s) (hpc : s.pc = .recvCall) (i : Input) :
    Owned (recvCall s i) := by
  have hphase : s.pc.phase = .settled := by rw [hpc]; rfl
  unfold recvCall
  split
  · have hstaged : Staged (s.goto .top) := h.staged.move rfl rfl rfl id hphase.symm
    exact h.keep hstaged rfl id (fun hpc => nomatch hpc) (List.append_nil s.trace).symm (by simp)
  · split
    · exact owned_answer h hphase false
    · rw [h.staged.own]
      cases hso : s.sock with
      | none => exact owned_answer h hphase _
      | some so =>
          dsimp only
          cases hrecv : socketRecv so (min s.app.recvDataLength netBufSize) with
          | none => exact owned_answer h hphase false
          | some r =>
              obtain ⟨data, so'⟩ := r
              have hstored := h.stored hso
                (h.staged.stored hso hphase (kept_recv (h.staged.kept so hso) hrecv))
              dsimp only
              split
              · have hnoted : Owned (({ s with sock := some so' } : State).note
                    (.received data)) := hstored.note rfl
                exact owned_answer hnoted hphase true
              · exact owned_answer hstored hphase false

theorem owned_main {s s' : State} {i : Input} (hs : Owned s) (hok : Orderly s (.main i))
    (h : mainStep s i = some s') : Owned s' := by
  by_cases hq : s.pc.quiet = true
  · exact hs.quiet (quiet_main hq h) (inner_main hq h)
  · have hstaged := staged_main hs.staged h
    unfold mainStep at h
    obtain ⟨hfail, hclose⟩ := hok
    cases hpc : s.pc with
    | startConn tcp =>
        rw [hpc] at h
        cases h
        exact owned_startConn hs hstaged
    | startClose =>
        rw [hpc] at h
        cases h
        exact owned_startClose hs hpc (hclose (.inl hpc))
    | startOpen =>
        rw [hpc] at h
        cases h
        exact owned_startOpen hs hpc i.ready
    | startConnect =>
        rw [hpc] at h
        cases h
        exact owned_startConnect hs hpc i.ready i.mem
    | startUdp bound =>
        rw [hpc] at h
        cases h
        exact owned_startUdp hs hpc
    | startWait =>
        rw [hpc] at h
        exact owned_startWait hs hpc h
    | startFail =>
        rw [hpc] at h
        cases h
        exact owned_startFail hs hpc (hfail hpc)
    | closeShutdown =>
        rw [hpc] at h
        cases h
        exact owned_closeShutdown hs hpc i.mem i.ready
    | closeReset =>
        rw [hpc] at h
        cases h
        exact hs.keep hstaged rfl id (fun hpc => nomatch hpc) (List.append_nil s.trace).symm
          (by simp)
    | closeFlag =>
        rw [hpc] at h
        cases h
        exact hs.keep hstaged rfl (fun hf => nomatch hf) (fun _ => rfl)
          (List.append_nil s.trace).symm (by simp)
    | closeSocket =>
        rw [hpc] at h
        cases h
        exact owned_closeSocket hs hpc (hclose (.inr hpc))
    | sendFlag data =>
        rw [hpc] at h
        cases h
        exact hs.keep hstaged rfl id (fun hpc => nomatch hpc) (List.append_nil s.trace).symm
          (by simp)
    | sendCall data =>
        rw [hpc] at h
        cases h
        exact owned_sendCall hs hpc i
    | sendDatagram data =>
        rw [hpc] at h
        cases h
        exact owned_sendDatagram hs hpc i.ready
    | recvCall =>
        rw [hpc] at h
        cases h
        exact owned_recvCall hs hpc i
    | _ => simp [hpc, Pc.quiet] at hq

theorem aside_callback (s : State) (so : Socket) (event : SocketEvent) (dLen : Nat) :
    ∀ n ∈ callbackNotes s so event dLen, n.aside = true := by
  intro n hn
  unfold callbackNotes at hn
  rcases List.mem_append.mp hn with hl | hr
  · split at hl <;> simp_all [Note.aside]
  · split at hr <;> simp_all [Note.aside]

theorem owned_deliver {s s' : State} (hs : Owned s) (h : deliver s = some s') : Owned s' := by
  have hstaged := hs.staged.deliver h
  obtain ⟨so, msg, rest, hso, hevents, rfl⟩ := deliver_cases h
  refine ⟨hstaged, fun _ hno => (nomatch hno), fun hpc => ?_, ?_⟩
  · have hstage := hs.staged.stage
    have hpc : s.pc = .closeSocket := hpc
    rw [hpc, hso] at hstage
    have hclear := hs.closing hpc
    rw [deliverMsg_app]
    cases hset : (socketCallback s.app (delivered so msg).1 (delivered so msg).2).ipConnectedFlg with
    | false => rfl
    | true =>
        rcases socketCallback_sets _ _ _ hset with hflag | hdone
        · rw [hclear] at hflag
          cases hflag
        · -- no announcement is on its way in this phase
          have hpos : so.doneEvents ≠ 0 := by
            unfold Socket.doneEvents
            rw [hevents, List.countP_cons, if_pos (delivered_connectDone hdone)]
            exact Nat.succ_ne_zero _
          obtain ⟨hphase, -⟩ := hstage.done (hs.staged.kept so hso) hpos
          cases hphase
  · have hledger := hs.ledger
    rw [hso] at hledger
    exact hledger.add (aside_callback s so _ _)

theorem owned_step {s s' : State} {a : Act} (hs : Owned s) (hok : Orderly s a)
    (h : step s a = some s') : Owned s' := by
  have hstaged := staged_step hs.staged h
  cases a with
  | main i => exact owned_main hs hok h
  | mesh up =>
      cases h
      exact hs.keep hstaged rfl id hs.closing (List.append_nil s.trace).symm (by simp)
  | deliver => exact owned_deliver hs h
  | segment mem seg =>
      obtain ⟨so, t, hso, -, rfl⟩ := onSession_cases h
      exact hs.stored hso hstaged
  | timer mem =>
      obtain ⟨so, t, hso, -, rfl⟩ := onSession_cases h
      exact hs.stored hso hstaged
  | datagram mem limited buf =>
      obtain ⟨so, hso, -, rfl⟩ := datagram_cases h
      exact hs.stored hso hstaged
  | txBuffer mem event length =>
      obtain ⟨so, hso, -, rfl⟩ := txBuffer_cases h
      exact hs.stored hso hstaged
  | otherOpen =>
      unfold step at h
      dsimp only at h
      split at h
      · cases h
      · cases h
        exact hs.keep hstaged rfl id hs.closing (List.append_nil s.trace).symm (by simp)
  | otherClose id =>
      unfold step at h
      dsimp only at h
      split at h
      · cases h
        exact hs.keep hstaged rfl (fun hflag => hflag) hs.closing (List.append_nil s.trace).symm
          (by simp)
      · cases h

theorem owned_init : Owned .init where
  staged := staged_init
  flag hf := nomatch hf
  closing _ := rfl
  ledger := ⟨rfl, fun _ _ hmem => (nomatch hmem), fun _ hmem => (nomatch hmem)⟩

/-- A refused `+CIPSTART` changes nothing but where the main thread is. -/
theorem refused_start {s s' : State} {i : Input} {tcp : Option Bool}
    (hpc : s.pc = .startMesh tcp ∨ s.pc = .startConn tcp) (h : mainStep s i = some s')
    (hend : s'.pc = .top) : s'.app = s.app ∧ s'.sock = s.sock ∧ s'.others = s.others := by
  unfold mainStep at h
  rcases hpc with hpc | hpc
  · rw [hpc] at h
    cases h
    split at hend
    · cases hend
    · rename_i hmesh
      rw [if_neg hmesh]
      exact ⟨rfl, rfl, rfl⟩
  · rw [hpc] at h
    cases h
    unfold startConn at hend ⊢
    split
    · exact ⟨rfl, rfl, rfl⟩
    · rename_i hflag
      rw [if_neg hflag] at hend
      cases tcp with
      | none => exact ⟨rfl, rfl, rfl⟩
      | some tcp => cases hend

/-- A UDP socket is opened and closed, and then a TCP connection is tried which gets
no answer. -/
def orderlySession : List Act :=
  [.mesh true] ++ commandLine (.cipstart (some false)) ++ goOn 8 ++ commandLine .cipclose ++
    goOn 3 ++ commandLine (.cipstart (some true)) ++ goOn 6 ++
    [.main { Input.idle with timeout := true }, .main .idle]

/-- `+CIPSTART` once more on an open UDP socket. -/
def refusedStart : List Act :=
  [.mesh true] ++ commandLine (.cipstart (some false)) ++ goOn 8 ++
    commandLine (.cipstart (some false)) ++ goOn 2

/-- `socket_bind` fails. -/
def failedBind : List Act :=
  [.mesh true] ++ commandLine (.cipstart (some false)) ++ goOn 5 ++
    [.main { Input.idle with ready := false }] ++ goOn 2

/-- `socket_connect` fails; before the next `+CIPSTART` the stack goes once round its
table of sockets, and the id is given to another owner. -/
def failedConnect : List Act :=
  [.mesh true] ++ commandLine (.cipstart (some true)) ++ goOn 5 ++
    [.main { Input.idle with ready := false }] ++ goOn 1 ++
    (List.range 15).flatMap (fun n => [.otherOpen, .otherClose (n + 1)]) ++ [.otherOpen] ++
    commandLine (.cipstart (some true)) ++ goOn 4

end Modem
