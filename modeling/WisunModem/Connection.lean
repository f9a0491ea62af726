import WisunModem.SocketMoves
import WisunModem.Modem

/-!
# The stages of a connection

Invariants of the modem which hold in every run, whatever the network and the
host do.  `Sane` says what the flags of a socket have to do with its session, and
`Staged` where the main thread may be with which kind of socket.  The connected
flag of the application is not mentioned without the socket's own: an event
`CONNECT_DONE` on its way is the only thing that sets the flag of a TCP
connection.
-/

namespace NsSocket

def SocketMsg.isConnectDone : SocketMsg → Bool
  | .event .connectDone _ => true
  | _ => false

/-- The events `CONNECT_DONE` on their way. -/
def Socket.doneEvents (so : Socket) : Nat := so.events.countP SocketMsg.isConnectDone

/-- What the flags of a stream socket have to do with its session. -/
structure Sane (so : Socket) : Prop where
  live : ∀ t, so.session = some t → t.state.hasSyn = true ∨ t.state.synchronized = true
  syn : ∀ t, so.session = some t → t.state.hasSyn = true →
    so.connecting = true ∧ so.connected = false
  early : so.connected = false → so.sndq.dataBytes = 0 ∧ so.doneEvents = 0
  once : so.doneEvents ≤ 1

/-- What the stack does to a socket from outside: it stays the same socket, a
connection made is not unmade, and only a connection being made announces itself. -/
structure Same (so so' : Socket) : Prop where
  id : so'.id = so.id
  stream : so'.stream = so.stream
  connected : so.connected = true → so'.connected = true
  doneEvents : so.connected = true → so'.doneEvents = so.doneEvents

theorem Same.refl (so : Socket) : Same so so := ⟨rfl, rfl, fun h => h, fun _ => rfl⟩

theorem Same.trans {so so' so'' : Socket} (h : Same so so') (h' : Same so' so'') :
    Same so so'' where
  id := h'.id.trans h.id
  stream := h'.stream.trans h.stream
  connected hc := h'.connected (h.connected hc)
  doneEvents hc := (h'.doneEvents (h.connected hc)).trans (h.doneEvents hc)

variable {mem : Mem} {allowed : Option SocketEvent → Prop} {sound : Prop}

theorem doneEvents_push (so : Socket) {msg : SocketMsg} (h : msg.isConnectDone = false) :
    (socketEventPush mem so msg).doneEvents = so.doneEvents := by
  unfold Socket.doneEvents
  rw [push_events]
  split <;> simp [h]

theorem doneEvents_push_le (so : Socket) (msg : SocketMsg) :
    (socketEventPush mem so msg).doneEvents ≤ so.doneEvents + 1 := by
  unfold Socket.doneEvents
  rw [push_events, List.countP_append]
  have hle : (if mem.keeps msg then [msg] else []).countP SocketMsg.isConnectDone ≤ 1 := by
    refine Nat.le_trans List.countP_le_length ?_
    split <;> simp
  omega

/-- A session is not deleted with a `CONNECT_DONE`. -/
theorem doneEvents_delete (so : Socket) {reason : Option SocketEvent}
    (h : reason ≠ some .connectDone) :
    (tcpSessionDeleteWithError mem so reason).doneEvents = so.doneEvents := by
  unfold Socket.doneEvents
  rw [delete_events, List.countP_append]
  have hend : (endEvent mem so reason).countP SocketMsg.isConnectDone = 0 := by
    unfold endEvent
    cases reason with
    | none => rfl
    | some ev =>
        dsimp only
        split
        · split
          · cases ev <;> first | rfl | exact absurd rfl h
          · rfl
        · rfl
  omega

theorem doneEvents_fin (so : Socket) (t : Tcp) :
    (tcpFin mem so t).1.doneEvents = so.doneEvents := by
  unfold tcpFin socketCantRecvMore
  split <;> simp only [doneEvents_push _ (show SocketMsg.isConnectDone (.event .data 0) = false from rfl),
    doneEvents_push _ (show SocketMsg.isConnectDone (.event .connectClosed 0) = false from rfl)] <;> rfl

theorem doneEvents_take (so : Socket) (push : Bool) (buf : Buffer) :
    (so.events ++ takeEvents mem so push buf).countP SocketMsg.isConnectDone =
      so.doneEvents := by
  unfold takeEvents Socket.doneEvents
  split <;> simp [SocketMsg.isConnectDone]

theorem fin_same (mem : Mem) (so : Socket) (t : Tcp) :
    (tcpFin mem so t).1.id = so.id ∧ (tcpFin mem so t).1.stream = so.stream ∧
      (tcpFin mem so t).1.connecting = so.connecting ∧
      (tcpFin mem so t).1.connected = so.connected ∧ (tcpFin mem so t).1.sndq = so.sndq := by
  unfold tcpFin socketCantRecvMore
  split <;> simp

theorem fin_hasSyn (so : Socket) (t : Tcp) (h : (tcpFin mem so t).2.state.hasSyn = true) :
    t.state.hasSyn = true := by
  unfold tcpFin at h
  split at h
  · exact absurd h (by simp [TcpState.hasSyn])
  · exact absurd h (by simp [TcpState.hasSyn])
  · dsimp only at h
    split at h <;> exact absurd h (by simp [TcpState.hasSyn])
  · exact absurd h (by simp [TcpState.hasSyn])
  · exact h

theorem Silent.live {st st' : TcpState} (h : Silent st st')
    (hlive : st.hasSyn = true ∨ st.synchronized = true) :
    st'.hasSyn = true ∨ st'.synchronized = true := by
  cases h with
  | same => exact hlive
  | synReceived => exact .inl rfl
  | finAcked | closingAcked | close | lastAck => exact .inr rfl

theorem fin_live (so : Socket) (t : Tcp)
    (hlive : t.state.hasSyn = true ∨ t.state.synchronized = true) :
    (tcpFin mem so t).2.state.hasSyn = true ∨ (tcpFin mem so t).2.state.synchronized = true := by
  unfold tcpFin
  split
  · exact .inr rfl
  · exact .inr rfl
  · dsimp only
    split <;> exact .inr rfl
  · exact .inr rfl
  · exact hlive

theorem Silent.hasSyn {st st' : TcpState} (h : Silent st st') (hsyn : st'.hasSyn = true) :
    st.hasSyn = true := by
  cases h with
  | same => exact hsyn
  | synReceived => rfl
  | finAcked | closingAcked | close | lastAck => exact absurd hsyn (by simp [TcpState.hasSyn])

/-- The announcement of a connection being made. -/
theorem Sane.complete {so : Socket} {t : Tcp} (h : Sane so) (hs : so.session = some t)
    (hsyn : t.state.hasSyn = true) :
    socketConnectionComplete mem so =
      socketEventPush mem { so with connecting := false, connected := true }
        (.event .connectDone 0) := by
  obtain ⟨hconnecting, hconnected⟩ := h.syn t hs hsyn
  simp [socketConnectionComplete, hconnecting, hconnected]

theorem same_move {so so' : Socket} (hno : ¬allowed (some .connectDone)) (hso : Sane so)
    (h : Move mem allowed sound so so') : Same so so' := by
  cases h with
  | tune => exact ⟨rfl, rfl, fun h => h, fun _ => rfl⟩
  | acked len =>
      split
      · exact ⟨by simp, by simp, by simp, fun _ => doneEvents_push _ rfl⟩
      · exact ⟨rfl, rfl, fun h => h, fun _ => rfl⟩
  | problem => exact ⟨by simp, by simp, by simp, fun _ => doneEvents_push _ rfl⟩
  | complete hs hsyn =>
      have hconnected := (hso.syn _ hs hsyn).2
      rw [hso.complete hs hsyn]
      exact ⟨by simp, by simp, by simp, fun hc => by simp [hconnected] at hc⟩
  | take push =>
      rw [takeData_eq]
      exact ⟨rfl, rfl, fun h => h, fun _ => doneEvents_take so push _⟩
  | fin hs =>
      rename_i t
      have hfin := fin_same mem so t
      exact ⟨hfin.1, hfin.2.1, fun hc => by simp [hfin, hc], fun _ => doneEvents_fin so t⟩
  | delete reason hs hallowed =>
      refine ⟨by simp, by simp, fun hc => by simp [hc], fun _ => doneEvents_delete so ?_⟩
      intro heq
      exact hno (heq ▸ hallowed)
  | finished =>
      refine ⟨by simp, by simp, fun hc => by simp [hc], fun _ => ?_⟩
      rw [doneEvents_delete _ (by simp), doneEvents_push _ rfl]

theorem Sane.liven {so : Socket} {t t' : Tcp} (h : Sane so) (hs : so.session = some t)
    (himp : t.state.hasSyn = true ∨ t.state.synchronized = true →
      t'.state.hasSyn = true ∨ t'.state.synchronized = true) (u : Tcp) (hu : some t' = some u) :
    u.state.hasSyn = true ∨ u.state.synchronized = true := by
  cases hu
  exact himp (h.live t hs)

/-- A state given by the stack to a session which had one without SYN has none. -/
theorem Sane.restate {so : Socket} {t t' : Tcp} (h : Sane so) (hs : so.session = some t)
    (himp : t'.state.hasSyn = true → t.state.hasSyn = true) (u : Tcp)
    (hu : some t' = some u) (hsyn : u.state.hasSyn = true) :
    so.connecting = true ∧ so.connected = false := by
  cases hu
  exact h.syn t hs (himp hsyn)

theorem Sane.push {so : Socket} {msg : SocketMsg} (h : Sane so)
    (hmsg : msg.isConnectDone = false) : Sane (socketEventPush mem so msg) where
  live u hu := h.live u (by simpa using hu)
  syn u hu := by simpa using h.syn u (by simpa using hu)
  early hc := by
    rw [doneEvents_push so hmsg]
    simpa using h.early (by simpa using hc)
  once := by
    rw [doneEvents_push so hmsg]
    exact h.once

theorem Sane.drop {so : Socket} (h : Sane so) (len : Nat) :
    Sane { so with sndq := so.sndq.drop len } where
  live := h.live
  syn := h.syn
  early hc := by
    refine ⟨?_, (h.early hc).2⟩
    rw [Sockbuf.dataBytes_drop, (h.early hc).1, Nat.zero_sub]
  once := h.once

theorem Sane.delete {so : Socket} {reason : Option SocketEvent} (h : Sane so)
    (hreason : reason ≠ some .connectDone) :
    Sane (tcpSessionDeleteWithError mem so reason) where
  live u hu := by cases hu
  syn u hu := by cases hu
  early hc := by
    rw [doneEvents_delete so hreason]
    have hc : so.connecting = false ∧ so.connected = false := by simpa using hc
    simpa [hc] using h.early hc.2
  once := by
    rw [doneEvents_delete so hreason]
    exact h.once

theorem sane_move {so so' : Socket} (hno : ¬allowed (some .connectDone)) (hso : Sane so)
    (h : Move mem allowed sound so so') : Sane so' := by
  cases h with
  | tune _ hs hstate =>
      exact ⟨hso.liven hs hstate.live, hso.restate hs hstate.hasSyn, hso.early, hso.once⟩
  | acked len hs =>
      split
      · exact (hso.drop len).push rfl
      · exact hso.drop len
  | problem => exact hso.push rfl
  | complete hs hsyn hstate =>
      rw [hso.complete hs hsyn]
      refine ⟨fun u hu => .inr ?_, fun u hu hsyn' => ?_, fun hc => by simp at hc, ?_⟩
      · cases hu
        rw [hstate]
        rfl
      · cases hu
        rw [hstate] at hsyn'
        cases hsyn'
      · have hzero : so.doneEvents = 0 := (hso.early (hso.syn _ hs hsyn).2).2
        refine Nat.le_trans (doneEvents_push_le _ _) ?_
        exact Nat.succ_le_succ (Nat.le_of_eq hzero)
  | take push hs =>
      rw [takeData_eq]
      refine ⟨hso.liven hs id, hso.restate hs id, fun hc => ?_, ?_⟩
      · exact ⟨(hso.early hc).1, (doneEvents_take so push _).trans (hso.early hc).2⟩
      · exact Nat.le_trans (Nat.le_of_eq (doneEvents_take so push _)) hso.once
  | fin hs =>
      rename_i t
      obtain ⟨-, -, hconnecting, hconnected, hsndq⟩ := fin_same mem so t
      have hdone : (tcpFin mem so t).1.doneEvents = so.doneEvents := doneEvents_fin so t
      refine ⟨hso.liven hs (fin_live so t), fun u hu hsyn => ?_, fun hc => ?_, ?_⟩
      · simpa [hconnecting, hconnected] using hso.restate hs (fin_hasSyn so t) u hu hsyn
      · have hearly := hso.early (by simpa [hconnected] using hc)
        exact ⟨by simpa [hsndq] using hearly.1, hdone.trans hearly.2⟩
      · exact Nat.le_trans (Nat.le_of_eq hdone) hso.once
  | delete reason hs hallowed => exact hso.delete fun heq => hno (heq ▸ hallowed)
  | finished => exact (hso.push rfl).delete (by simp)

/-- **The stack keeps a socket sane.** -/
theorem sane_moves {so so' : Socket} (hno : ¬allowed (some .connectDone)) (hso : Sane so)
    (h : Moves mem allowed sound so so') : Sane so' ∧ Same so so' :=
  h.keep (fun s => Sane s ∧ Same so s)
    (fun _ _ hs hmove => ⟨sane_move hno hs.1 hmove, hs.2.trans (same_move hno hs.1 hmove)⟩)
    ⟨hso, .refl so⟩

end NsSocket

namespace Modem

open NsSocket Unsolicited

/-- A TCP socket whose connection was made, or has failed, and has been announced. -/
def Settled (so : Socket) : Prop :=
  so.stream = true → so.connected = true ∧ so.doneEvents = 0

/-- How far `cipstart_write` has come with a new socket. -/
inductive Phase
  | settled
  | reopening
  | opening
  | connecting
  | binding
  | waiting
  deriving DecidableEq

def Pc.phase : Pc → Phase
  | .startClear | .startClose => .reopening
  | .startOpen => .opening
  | .startConnect => .connecting
  | .startUdp _ => .binding
  | .startWait | .startFail => .waiting
  | _ => .settled

/-- Which socket the main thread has in a phase. -/
def Stage (app : App) (sock : Option Socket) : Phase → Prop
  | .settled => ∀ so, sock = some so → Settled so ∧ so.stream = app.isTcp
  | .reopening => app.ipConnectedFlg = false ∧ ∀ so, sock = some so → Settled so
  | .opening => app.ipConnectedFlg = false ∧ sock = none
  | .connecting =>
      app.ipConnectedFlg = false ∧ ∃ so, sock = some so ∧ so.stream = app.isTcp ∧
        so.session = none ∧ so.connected = false
  | .binding => ∃ so, sock = some so ∧ so.stream = false ∧ app.isTcp = false
  | .waiting =>
      ∃ so, sock = some so ∧ so.stream = app.isTcp ∧ (app.ipConnectedFlg = true → Settled so)

/-- What holds of the socket wherever the main thread is. -/
structure Kept (app : App) (so : Socket) : Prop where
  handle : (so.id : Int) = app.socketId
  sane : Sane so
  dgram : so.stream = false → so.session = none ∧ so.connected = false

structure Staged (s : State) : Prop where
  kept : ∀ so, s.sock = some so → Kept s.app so
  stage : Stage s.app s.sock s.pc.phase

theorem Settled.same {so so' : Socket} (h : Settled so) (hsame : Same so so') : Settled so' := by
  intro hstream
  obtain ⟨hconnected, hdone⟩ := h (hsame.stream ▸ hstream)
  exact ⟨hsame.connected hconnected, (hsame.doneEvents hconnected).trans hdone⟩

/-- The stage is that of the same socket, as long as no session comes out of nothing. -/
theorem Stage.same {app : App} {so so' : Socket} {phase : Phase}
    (h : Stage app (some so) phase) (hsame : Same so so')
    (hnone : so.session = none → so'.session = none ∧ so'.connected = so.connected) :
    Stage app (some so') phase := by
  cases phase with
  | settled =>
      intro so₁ h₁
      cases h₁
      exact ⟨(h so rfl).1.same hsame, hsame.stream.trans (h so rfl).2⟩
  | reopening =>
      refine ⟨h.1, fun so₁ h₁ => ?_⟩
      cases h₁
      exact (h.2 so rfl).same hsame
  | opening => exact absurd h.2 (by simp)
  | connecting =>
      obtain ⟨hflag, so₁, h₁, hstream, hsession, hconnected⟩ := h
      cases h₁
      obtain ⟨hsession', hconnected'⟩ := hnone hsession
      exact ⟨hflag, so', rfl, hsame.stream.trans hstream, hsession', hconnected'.trans hconnected⟩
  | binding =>
      obtain ⟨so₁, h₁, hstream, htcp⟩ := h
      cases h₁
      exact ⟨so', rfl, hsame.stream.trans hstream, htcp⟩
  | waiting =>
      obtain ⟨so₁, h₁, hstream, hflag⟩ := h
      cases h₁
      exact ⟨so', rfl, hsame.stream.trans hstream, fun hf => (hflag hf).same hsame⟩

/-- Another record of the application in which the flag is not newly set. -/
theorem Stage.app {app app' : App} {sock : Option Socket} {phase : Phase}
    (h : Stage app sock phase) (htcp : app'.isTcp = app.isTcp)
    (hflag : app'.ipConnectedFlg = true → app.ipConnectedFlg = true) :
    Stage app' sock phase := by
  have hclear (hf : app.ipConnectedFlg = false) : app'.ipConnectedFlg = false := by grind
  cases phase with
  | settled => exact fun so hso => htcp ▸ h so hso
  | reopening => exact ⟨hclear h.1, h.2⟩
  | opening => exact ⟨hclear h.1, h.2⟩
  | connecting => exact ⟨hclear h.1, htcp ▸ h.2⟩
  | binding =>
      obtain ⟨so, hso, hstream, hudp⟩ := h
      exact ⟨so, hso, hstream, htcp.trans hudp⟩
  | waiting =>
      obtain ⟨so, hso, hstream, hsettled⟩ := h
      exact ⟨so, hso, hstream.trans htcp.symm, fun hf => hsettled (hflag hf)⟩

/-- A socket with another queue of received data and other events on their way. -/
theorem Kept.queues {app : App} {so so' : Socket} (h : Kept app so) (hid : so'.id = so.id)
    (hstream : so'.stream = so.stream) (hsession : so'.session = so.session)
    (hconnecting : so'.connecting = so.connecting) (hconnected : so'.connected = so.connected)
    (hsndq : so'.sndq = so.sndq) (hdone : so'.doneEvents ≤ so.doneEvents) : Kept app so' where
  handle := by rw [hid, h.handle]
  sane :=
    { live := by rw [hsession]; exact h.sane.live
      syn := by rw [hsession, hconnecting, hconnected]; exact h.sane.syn
      early := by
        rw [hconnected, hsndq]
        intro hc
        obtain ⟨hempty, hzero⟩ := h.sane.early hc
        exact ⟨hempty, Nat.le_zero.mp (hzero ▸ hdone)⟩
      once := Nat.le_trans hdone h.sane.once }
  dgram := by rw [hstream, hsession, hconnected]; exact h.dgram

theorem Staged.socket {s : State} {so so' : Socket} (h : Staged s) (hso : s.sock = some so)
    (hkept : Kept s.app so') (hsame : Same so so')
    (hnone : so.session = none → so'.session = none ∧ so'.connected = so.connected) :
    Staged { s with sock := some so' } := by
  have hstage := h.stage
  rw [hso] at hstage
  refine ⟨fun so₁ h₁ => ?_, hstage.same hsame hnone⟩
  cases h₁
  exact hkept

/-- What a session does to its socket keeps the stage. -/
theorem Staged.session {s : State} {so so' : Socket} {mem : Mem}
    {allowed : Option SocketEvent → Prop} {sound : Prop} {t : Tcp} (h : Staged s)
    (hso : s.sock = some so) (ht : so.session = some t) (hno : ¬allowed (some .connectDone))
    (hmoves : Moves mem allowed sound so so') : Staged { s with sock := some so' } := by
  have hkept := h.kept so hso
  obtain ⟨hsane, hsame⟩ := sane_moves hno hkept.sane hmoves
  refine h.socket hso ⟨hsame.id ▸ hkept.handle, hsane, fun hstream => ?_⟩ hsame fun hnone => ?_
  · have hnone := (hkept.dgram (hsame.stream ▸ hstream)).1
    rw [ht] at hnone
    cases hnone
  · rw [ht] at hnone
    cases hnone

/-- Received data, or the fate of a buffer, is announced. -/
theorem Staged.announce {s : State} {so : Socket} {rcvq : Sockbuf} {more : List SocketMsg}
    {carried : Nat} (h : Staged s) (hso : s.sock = some so)
    (hmore : more.countP SocketMsg.isConnectDone = 0) :
    Staged { s with sock := some { so with rcvq, events := so.events ++ more, carried } } := by
  have hdone : (so.events ++ more).countP SocketMsg.isConnectDone = so.doneEvents := by
    rw [List.countP_append, hmore]
    rfl
  exact h.socket hso ((h.kept so hso).queues rfl rfl rfl rfl rfl rfl (Nat.le_of_eq hdone))
    ⟨rfl, rfl, id, fun _ => hdone⟩ fun hnone => ⟨hnone, rfl⟩

/-! ## The callback -/

@[simp] theorem socketCallback_socketId (app : App) (event : SocketEvent) (dLen : Nat) :
    (socketCallback app event dLen).socketId = app.socketId := by
  unfold socketCallback
  split <;> try rfl
  split <;> rfl

@[simp] theorem socketCallback_isTcp (app : App) (event : SocketEvent) (dLen : Nat) :
    (socketCallback app event dLen).isTcp = app.isTcp := by
  unfold socketCallback
  split <;> try rfl
  split <;> rfl

/-- Only `CONNECT_DONE` sets the flag. -/
theorem socketCallback_sets (app : App) (event : SocketEvent) (dLen : Nat)
    (h : (socketCallback app event dLen).ipConnectedFlg = true) :
    app.ipConnectedFlg = true ∨ event = .connectDone := by
  unfold socketCallback at h
  cases event <;> dsimp only at h <;> grind

theorem deliver_cases {s s' : State} (h : deliver s = some s') :
    ∃ so msg rest, s.sock = some so ∧ so.events = msg :: rest ∧
      s' = deliverMsg s so msg rest := by
  unfold deliver at h
  cases hso : s.sock with
  | none => simp [hso] at h
  | some so =>
      cases hevents : so.events with
      | nil => simp [hso, hevents] at h
      | cons msg rest => exact ⟨so, msg, rest, rfl, hevents, by simpa [hso, hevents] using h.symm⟩

theorem delivered_connectDone {so : Socket} {msg : SocketMsg}
    (h : (delivered so msg).1 = .connectDone) : msg.isConnectDone = true := by
  cases msg with
  | event type length =>
      have htype : type = .connectDone := h
      rw [htype]
      rfl
  | dataQueued => cases h

theorem datagram_cases {s s' : State} {mem : Mem} {limited : Bool} {buf : Buffer}
    (h : step s (.datagram mem limited buf) = some s') :
    ∃ so, s.sock = some so ∧ so.stream = false ∧
      s' = { s with sock := some (socketUp mem so limited buf) } := by
  unfold step at h
  cases hso : s.sock with
  | none => simp [hso] at h
  | some so =>
      cases hstream : so.stream with
      | true => simp [hso, hstream] at h
      | false => exact ⟨so, rfl, hstream, by simpa [hso, hstream] using h.symm⟩

theorem txBuffer_cases {s s' : State} {mem : Mem} {event : SocketEvent} {length : Nat}
    (h : step s (.txBuffer mem event length) = some s') :
    ∃ so, s.sock = some so ∧ event.ofBuffer = true ∧
      s' = { s with sock := some (socketTxBufferEvent mem so event length) } := by
  unfold step at h
  cases hso : s.sock with
  | none => simp [hso] at h
  | some so =>
      simp only [hso] at h
      split at h
      · rename_i hcarried
        simp only [Bool.and_eq_true] at hcarried
        exact ⟨so, rfl, hcarried.1, by simpa using h.symm⟩
      · cases h

theorem onSession_cases {s s' : State} {f : Socket → Tcp → Socket}
    (h : onSession s f = some s') :
    ∃ so t, s.sock = some so ∧ so.session = some t ∧ s' = { s with sock := some (f so t) } := by
  unfold onSession at h
  cases hso : s.sock with
  | none => simp [hso] at h
  | some so =>
      cases ht : so.session with
      | none => simp [hso, ht] at h
      | some t => exact ⟨so, t, rfl, ht, by simpa [hso, ht] using h.symm⟩

/-- A `CONNECT_DONE` on its way is waited for. -/
theorem Stage.done {app : App} {so : Socket} {phase : Phase} (h : Stage app (some so) phase)
    (hkept : Kept app so) (hdone : so.doneEvents ≠ 0) : phase = .waiting ∧ so.connected = true := by
  have hconnected : so.connected = true := by
    cases hc : so.connected with
    | false => exact absurd (hkept.sane.early hc).2 hdone
    | true => rfl
  have hstream : so.stream = true := by
    cases hst : so.stream with
    | false => simp [(hkept.dgram hst).2] at hconnected
    | true => rfl
  refine ⟨?_, hconnected⟩
  cases phase with
  | settled => exact absurd ((h so rfl).1 hstream).2 hdone
  | reopening => exact absurd (h.2 so rfl hstream).2 hdone
  | opening => exact absurd h.2 (by simp)
  | connecting =>
      obtain ⟨-, so₁, h₁, -, -, hnot⟩ := h
      cases h₁
      simp [hnot] at hconnected
  | binding =>
      obtain ⟨so₁, h₁, hnot, -⟩ := h
      cases h₁
      simp [hnot] at hstream
  | waiting => rfl

theorem Staged.deliver {s s' : State} (hs : Staged s) (h : deliver s = some s') : Staged s' := by
  obtain ⟨so, msg, rest, hso, hevents, rfl⟩ := deliver_cases h
  have hkept := hs.kept so hso
  have hstage := hs.stage
  rw [hso] at hstage
  have hsplit : so.doneEvents = rest.countP SocketMsg.isConnectDone +
      if msg.isConnectDone then 1 else 0 := by
    unfold Socket.doneEvents
    rw [hevents, List.countP_cons]
  have hkept' : Kept s.app { so with events := rest } :=
    hkept.queues rfl rfl rfl rfl rfl rfl (by rw [hsplit]; exact Nat.le_add_right _ _)
  refine ⟨fun so₁ h₁ => ?_, ?_⟩
  · cases h₁
    exact ⟨by simpa using hkept'.handle, hkept'.sane, hkept'.dgram⟩
  · by_cases hmsg : msg.isConnectDone = true
    · have hpos : so.doneEvents ≠ 0 := by rw [hsplit, if_pos hmsg]; exact Nat.succ_ne_zero _
      obtain ⟨hphase, hconnected⟩ := hstage.done hkept hpos
      have hrest : rest.countP SocketMsg.isConnectDone = 0 := by
        have := hkept.sane.once
        rw [hsplit, if_pos hmsg] at this
        omega
      rw [hphase] at hstage
      obtain ⟨so₁, h₁, hstream, -⟩ := hstage
      cases h₁
      rw [deliverMsg_pc, hphase]
      exact ⟨_, rfl, by simpa using hstream, fun _ _ => ⟨hconnected, hrest⟩⟩
    · rw [if_neg hmsg] at hsplit
      refine Stage.app (Stage.same hstage ⟨rfl, rfl, id, fun _ => hsplit.symm⟩
        fun hnone => ⟨hnone, rfl⟩) (by simp) fun hflag => ?_
      refine (socketCallback_sets _ _ _ hflag).resolve_right fun hdone => ?_
      exact hmsg (delivered_connectDone hdone)

/-! ## The main thread -/

/-- The handle names the socket attached, if there is one. -/
theorem Staged.own {s : State} (h : Staged s) : s.own s.app.socketId = s.sock := by
  unfold State.own
  cases hso : s.sock with
  | none => rfl
  | some so => simp [Option.filter, (h.kept so hso).handle]

theorem Staged.target {s : State} {so : Socket} (h : Staged s) (hso : s.sock = some so) :
    s.target s.app.socketId = .own := by
  unfold State.target
  rw [h.own, hso]
  rfl

/-- `socket_close` of the handle leaves no socket attached. -/
theorem Staged.closed {s : State} (h : Staged s) :
    (s.socketClose s.app.socketId).sock = none := by
  rw [State.socketClose_sock]
  cases hso : s.sock with
  | none => simp
  | some so => rw [if_pos (h.target hso)]

/-- Where the socket is the one before and the flag is not newly set, only the phase
matters. -/
theorem Staged.move {s s' : State} (h : Staged s) (hsock : s'.sock = s.sock)
    (hid : s'.app.socketId = s.app.socketId) (htcp : s'.app.isTcp = s.app.isTcp)
    (hflag : s'.app.ipConnectedFlg = true → s.app.ipConnectedFlg = true)
    (hphase : s'.pc.phase = s.pc.phase) : Staged s' := by
  refine ⟨fun so hso => ?_, ?_⟩
  · have hkept := h.kept so (hsock ▸ hso)
    exact ⟨by rw [hid]; exact hkept.handle, hkept.sane, hkept.dgram⟩
  · rw [hsock, hphase]
    exact h.stage.app htcp hflag

/-- With no socket, every phase but those with a new one is fine. -/
theorem Staged.nothing {s : State} (hsock : s.sock = none)
    (hphase : s.pc.phase = .settled) : Staged s := by
  refine ⟨fun so hso => ?_, ?_⟩
  · rw [hsock] at hso
    cases hso
  · rw [hphase]
    intro so hso
    rw [hsock] at hso
    cases hso

theorem phase_handler (app : App) (c : AtCmd) : (handler app c).phase = .settled := by
  cases c with
  | cipclose =>
      dsimp only [handler]
      split <;> rfl
  | cipstart | cipsend | ciprecvdata => rfl

/-- Steps which have to do with neither the socket nor the flags of the connection. -/
def Pc.quiet : Pc → Bool
  | .startConn _ | .startClose | .startOpen | .startConnect | .startUdp _ | .startWait
  | .startFail | .closeShutdown | .closeReset | .closeFlag | .closeSocket | .sendFlag _
  | .sendCall _ | .sendDatagram _ | .recvCall => false
  | _ => true

/-- Notes about neither the socket nor the flags of the connection. -/
def Note.quiet : Note → Bool
  | .answered .. | .prompt | .payload _ | .triggered .. | .line .. => true
  | _ => false

/-- What a quiet step leaves as it is. -/
structure Quiet (s s' : State) : Prop where
  sock : s'.sock = s.sock
  others : s'.others = s.others
  socketId : s'.app.socketId = s.app.socketId
  isTcp : s'.app.isTcp = s.app.isTcp
  ipConnectedFlg : s'.app.ipConnectedFlg = s.app.ipConnectedFlg
  txPendingFlg : s'.app.txPendingFlg = s.app.txPendingFlg
  phase : s'.pc.phase = s.pc.phase
  trace : ∃ notes, s'.trace = s.trace ++ notes ∧ ∀ n ∈ notes, n.quiet = true

theorem quiet_goto (s : State) {pc : Pc} (h : pc.phase = s.pc.phase) : Quiet s (s.goto pc) :=
  ⟨rfl, rfl, rfl, rfl, rfl, rfl, h, [], by simp⟩

theorem quiet_answer (s : State) (ok : Bool) (h : s.pc.phase = .settled) :
    Quiet s (s.answer ok) := by
  refine ⟨rfl, rfl, rfl, rfl, rfl, rfl, h.symm, _, rfl, ?_⟩
  unfold CmdState.answered
  cases s.cmd <;> simp [Note.quiet]

theorem Quiet.trans {s s' s'' : State} (h : Quiet s s') (h' : Quiet s' s'') : Quiet s s'' := by
  obtain ⟨notes, hnotes, hquiet⟩ := h.trace
  obtain ⟨notes', hnotes', hquiet'⟩ := h'.trace
  refine ⟨h'.sock.trans h.sock, h'.others.trans h.others, h'.socketId.trans h.socketId,
    h'.isTcp.trans h.isTcp, h'.ipConnectedFlg.trans h.ipConnectedFlg,
    h'.txPendingFlg.trans h.txPendingFlg, h'.phase.trans h.phase, notes ++ notes', ?_, ?_⟩
  · rw [hnotes', hnotes, List.append_assoc]
  · intro n hn
    rcases List.mem_append.mp hn with hl | hr
    · exact hquiet n hl
    · exact hquiet' n hr

theorem quiet_note (s : State) (n : Note) (h : n.quiet = true) : Quiet s (s.note n) :=
  ⟨rfl, rfl, rfl, rfl, rfl, rfl, rfl, [n], rfl, by simpa using h⟩

theorem quiet_takeIpd (s : State) : Quiet s (takeIpd s) := by
  unfold takeIpd
  split
  · exact quiet_goto s rfl
  · dsimp only
    split
    · exact ⟨rfl, rfl, rfl, rfl, rfl, rfl, rfl, _, rfl, by simp [Note.quiet]⟩
    · exact ⟨rfl, rfl, rfl, rfl, rfl, rfl, rfl, [], by simp⟩

theorem quiet_serve (s : State) (free cr : Bool) : Quiet s (serve s free cr) := by
  unfold serve noteLine
  dsimp only
  split
  · exact ⟨rfl, rfl, rfl, rfl, rfl, rfl, rfl, [], by simp⟩
  · exact ⟨rfl, rfl, rfl, rfl, rfl, rfl, rfl, _, rfl, by simp [Note.quiet]⟩

theorem quiet_command (s : State) (parsed : Option AtCmd) (h : s.pc = .command) :
    Quiet s (command s parsed) := by
  unfold command
  split
  · exact quiet_goto s (by rw [h]; rfl)
  · rename_i c _
    refine ⟨rfl, rfl, ?_, ?_, ?_, ?_, by rw [h]; rfl, [], by simp⟩ <;>
      (unfold parseWriteArgs; split <;> rfl)
  · exact quiet_goto s (by rw [phase_handler, h]; rfl)

/-- A quiet piece of work, and on to the next step of the same phase. -/
theorem Quiet.goto {s s' : State} {pc : Pc} (h : Quiet s s') (hphase : pc.phase = s.pc.phase) :
    Quiet s (s'.goto pc) :=
  h.trans (quiet_goto s' (hphase.trans h.phase.symm))

/-- **The quiet steps.** -/
theorem quiet_main {s s' : State} {i : Input} (hq : s.pc.quiet = true)
    (h : mainStep s i = some s') : Quiet s s' := by
  have hrefl : Quiet s s := quiet_goto s rfl
  unfold mainStep at h
  cases hpc : s.pc with
  | top =>
      rw [hpc] at h
      cases h
      exact (quiet_takeIpd s).goto (by rw [hpc]; rfl)
  | testDisconnect | testSendFail =>
      rw [hpc] at h
      cases h
      exact hrefl.goto (by split <;> rw [hpc] <;> rfl)
  | clearDisconnect | clearSendFail =>
      rw [hpc] at h
      cases h
      exact ⟨rfl, rfl, rfl, rfl, rfl, rfl, by rw [hpc]; rfl, _, rfl, by simp [Note.quiet]⟩
  | unsolicited =>
      rw [hpc] at h
      cases h
      exact (quiet_serve s i.free i.cr).goto (by rw [hpc]; rfl)
  | command =>
      rw [hpc] at h
      cases h
      exact quiet_command s i.parsed hpc
  | startMesh tcp =>
      rw [hpc] at h
      cases h
      split
      · exact hrefl.goto (by rw [hpc]; rfl)
      · exact quiet_answer s false (by rw [hpc]; rfl)
  | startClear =>
      rw [hpc] at h
      cases h
      exact ⟨rfl, rfl, rfl, rfl, rfl, rfl, by rw [hpc]; rfl, [], by simp⟩
  | closeWait =>
      rw [hpc] at h
      dsimp only at h
      split at h
      · cases h
        exact hrefl.goto (by rw [hpc]; rfl)
      · cases h
  | sendMesh =>
      rw [hpc] at h
      cases h
      split
      · exact quiet_answer s false (by rw [hpc]; rfl)
      · split
        · exact hrefl.goto (by rw [hpc]; rfl)
        · exact hrefl.goto (by rw [hpc]; rfl)
  | sendConn =>
      rw [hpc] at h
      cases h
      split
      · exact quiet_answer s false (by rw [hpc]; rfl)
      · split
        · exact (quiet_note s _ rfl).goto (by rw [hpc]; rfl)
        · exact hrefl.goto (by rw [hpc]; rfl)
  | sendRead =>
      rw [hpc] at h
      dsimp only at h
      split at h
      · cases h
      · cases h
        exact (quiet_note s _ rfl).goto (by split <;> rw [hpc] <;> rfl)
  | sendWait data =>
      rw [hpc] at h
      dsimp only at h
      split at h
      · cases h
      · cases h
        exact hrefl.goto (by rw [hpc]; rfl)
  | sendCheck data =>
      rw [hpc] at h
      cases h
      split
      · exact hrefl.goto (by rw [hpc]; rfl)
      · exact quiet_answer s false (by rw [hpc]; rfl)
  | startConn | startClose | startOpen | startConnect | startUdp | startWait | startFail
  | closeShutdown | closeReset | closeFlag | closeSocket | sendFlag | sendCall
  | sendDatagram | recvCall =>
      rw [hpc] at hq
      cases hq

/-- Places of the main thread which only a step that is not quiet leads to. -/
def Pc.inner : Pc → Bool
  | .closeFlag | .closeSocket | .sendCall _ => true
  | _ => false

theorem inner_handler (app : App) (c : AtCmd) : (handler app c).inner = false := by
  cases c with
  | cipclose =>
      dsimp only [handler]
      split <;> rfl
  | cipstart | cipsend | ciprecvdata => rfl

theorem inner_main {s s' : State} {i : Input} (hq : s.pc.quiet = true)
    (h : mainStep s i = some s') : s'.pc.inner = false := by
  unfold mainStep at h
  cases hpc : s.pc with
  | top | clearDisconnect | clearSendFail | unsolicited | startClear =>
      rw [hpc] at h
      cases h
      rfl
  | testDisconnect | testSendFail | startMesh | sendMesh | sendCheck =>
      rw [hpc] at h
      cases h
      grind [Pc.inner, State.goto_pc, State.answer_pc]
  | command =>
      rw [hpc] at h
      cases h
      unfold command
      split
      · rfl
      · rfl
      · exact inner_handler _ _
  | closeWait | sendConn | sendRead | sendWait =>
      rw [hpc] at h
      dsimp only at h
      grind [Pc.inner, State.goto_pc, State.answer_pc]
  | _ => simp [hpc, Pc.quiet] at hq

theorem Staged.quiet {s s' : State} (hs : Staged s) (h : Quiet s s') : Staged s' :=
  hs.move h.sock h.socketId h.isTcp (fun hflag => h.ipConnectedFlg ▸ hflag) h.phase

theorem staged_answer {s : State} (h : Staged s) (hphase : s.pc.phase = .settled) (ok : Bool) :
    Staged (s.answer ok) :=
  h.move rfl rfl rfl id hphase.symm

/-- Where nothing is being opened, only the socket itself matters. -/
theorem Staged.settled {s' : State} {so' : Socket} (hsock : s'.sock = some so')
    (hphase : s'.pc.phase = .settled) (hkept : Kept s'.app so') (hsettled : Settled so')
    (htcp : so'.stream = s'.app.isTcp) : Staged s' := by
  refine ⟨fun so hso => ?_, ?_⟩
  · rw [hsock] at hso
    cases hso
    exact hkept
  · rw [hphase]
    intro so hso
    rw [hsock] at hso
    cases hso
    exact ⟨hsettled, htcp⟩

theorem staged_startConn {s : State} {tcp : Option Bool} (h : Staged s)
    (hpc : s.pc = .startConn tcp) :
    Staged (startConn s tcp) := by
  have hphase : s.pc.phase = .settled := by rw [hpc]; rfl
  unfold startConn
  split
  · exact staged_answer h hphase false
  · rename_i hflag
    cases tcp with
    | none => exact staged_answer h hphase false
    | some tcp =>
        have hstage := h.stage
        rw [hphase] at hstage
        refine ⟨fun so hso => ?_, by simpa using hflag, fun so hso => (hstage so hso).1⟩
        have hkept := h.kept so hso
        exact ⟨hkept.handle, hkept.sane, hkept.dgram⟩

theorem staged_startClose {s : State} (h : Staged s) (hpc : s.pc = .startClose) :
    Staged ((if s.app.socketId ≥ 0 then s.socketClose s.app.socketId else s).goto
      .startOpen) := by
  have hstage := h.stage
  rw [hpc] at hstage
  have hnone : (if s.app.socketId ≥ 0 then s.socketClose s.app.socketId else s).sock = none := by
    split
    · exact h.closed
    · cases hso : s.sock with
      | none => rfl
      | some so =>
          have := (h.kept so hso).handle
          omega
  refine ⟨fun so hso => ?_, ?_, hnone⟩
  · rw [State.goto_sock, hnone] at hso
    cases hso
  · rw [State.goto_app]
    split <;> exact hstage.1

theorem kept_socketOpen (app : App) (id : Nat) :
    Kept { app with socketId := id } (socketOpen id app.isTcp netBufSize) where
  handle := rfl
  sane :=
    { live := fun t ht => by cases ht
      syn := fun t ht => by cases ht
      early := fun _ => by
        refine ⟨?_, rfl⟩
        rw [Sockbuf.dataBytes_eq]
        unfold socketOpen
        dsimp only
        split <;> simp only [Sockbuf.content_reserve] <;> rfl
      once := Nat.zero_le 1 }
  dgram _ := ⟨rfl, rfl⟩

theorem staged_startOpen {s : State} (h : Staged s) (hpc : s.pc = .startOpen) (ready : Bool) :
    Staged (startOpen s ready) := by
  have hstage := h.stage
  rw [hpc] at hstage
  unfold startOpen
  split
  · refine ⟨fun so hso => ?_, hstage.1, _, rfl, rfl, rfl, rfl⟩
    cases hso
    exact kept_socketOpen s.app _
  · exact .nothing hstage.2 rfl

theorem staged_startConnect {s : State} (h : Staged s) (hpc : s.pc = .startConnect)
    (ready : Bool) (mem : Mem) : Staged (startConnect s ready mem) := by
  have hstage := h.stage
  rw [hpc] at hstage
  obtain ⟨hflag, so, hso, hstream, hsession, hconnected⟩ := hstage
  have hkept := h.kept so hso
  unfold startConnect
  split
  · rename_i htcp
    rw [h.own, hso]
    cases ready with
    | false =>
        refine ⟨fun so₁ h₁ => ?_, so, rfl, hstream, fun hf => ?_⟩
        · cases h₁
          exact hkept
        · simp [hflag] at hf
    | true =>
        refine ⟨fun so₁ h₁ => ?_, _, rfl, hstream, fun hf => ?_⟩
        · cases h₁
          have hsyn : (tcpSessionOpen mem so).state = .synSent := (tuned_build mem so _ 0).state
          refine ⟨hkept.handle, ⟨fun t ht => .inl ?_, fun _ _ _ => ⟨rfl, hconnected⟩,
            hkept.sane.early, hkept.sane.once⟩, fun hdgram => ?_⟩
          · cases ht
            rw [hsyn]
            rfl
          simp [socketConnect, hstream, htcp] at hdgram
        · simp [hflag] at hf
  · rename_i hudp
    refine ⟨fun so₁ h₁ => ?_, so, hso, ?_, by simpa using hudp⟩
    · exact h.kept so₁ h₁
    · simpa [hstream] using hudp

theorem staged_startUdp {s : State} {bound : Bool} (h : Staged s)
    (hpc : s.pc = .startUdp bound) :
    Staged { s with
      app := { s.app with ipConnectedFlg := true }
      pc := if bound then .startWait else .startFail } := by
  have hstage := h.stage
  rw [hpc] at hstage
  obtain ⟨so, hso, hstream, hudp⟩ := hstage
  refine ⟨fun so₁ h₁ => ?_, ?_⟩
  · have hkept := h.kept so₁ h₁
    exact ⟨hkept.handle, hkept.sane, hkept.dgram⟩
  · have hwaiting : Pc.phase (if bound then .startWait else .startFail) = .waiting := by
      split <;> rfl
    rw [hwaiting]
    exact ⟨so, hso, hstream.trans hudp.symm, fun _ ht => by simp [hstream] at ht⟩

theorem staged_startWait {s s' : State} {timeout : Bool} (hs : Staged s)
    (hpc : s.pc = .startWait) (h : startWait s timeout = some s') : Staged s' := by
  have hstage := hs.stage
  rw [hpc] at hstage
  obtain ⟨so, hso, hstream, hsettled⟩ := hstage
  have hfail : Staged (s.goto .startFail) := hs.move rfl rfl rfl id (by rw [hpc]; rfl)
  unfold startWait at h
  split at h
  · cases h
    split
    · rename_i hdone
      have hflag : s.app.ipConnectedFlg = true := by simp at hdone; exact hdone.1
      exact .settled hso rfl (hs.kept so hso) (hsettled hflag) hstream
    · exact hfail
  · split at h
    · cases h
      exact hfail
    · cases h

/-- The flags a shutdown sets first. -/
theorem Kept.shut {app : App} {so : Socket} (h : Kept app so) :
    Kept app { so with cantRecvMore := true, shutWr := true } :=
  h.queues rfl rfl rfl rfl rfl rfl (Nat.le_refl _)

theorem kept_shutdown {app : App} {so : Socket} (h : Kept app so) (mem : Mem) :
    Kept app (socketShutdown mem so).2 ∧ Same so (socketShutdown mem so).2 := by
  rcases moves_shutdown mem so with hsame | ⟨hstream, -, so', hmoves, heq⟩
  · rw [hsame]
    exact ⟨h, .refl so⟩
  · obtain ⟨hsane, hsame⟩ := sane_moves (by rintro ⟨t, -, hend⟩; exact hend) h.shut.sane hmoves
    rw [heq]
    refine ⟨⟨?_, ⟨hsane.live, hsane.syn, hsane.early, hsane.once⟩, fun hdgram => ?_⟩,
      ⟨hsame.id, hsame.stream, hsame.connected, hsame.doneEvents⟩⟩
    · exact hsame.id ▸ h.handle
    · have hstream' : so'.stream = true := hsame.stream.trans hstream
      simp [hstream'] at hdgram

theorem staged_closeShutdown {s : State} (h : Staged s) (hpc : s.pc = .closeShutdown)
    (mem : Mem) (ready : Bool) : Staged (closeShutdown s mem ready) := by
  have hphase : s.pc.phase = .settled := by rw [hpc]; rfl
  have hphase' (c : Prop) [Decidable c] :
      Pc.phase (if c then .closeWait else .closeReset) = .settled := by split <;> rfl
  have hstage := h.stage
  rw [hphase] at hstage
  unfold closeShutdown
  rw [h.own]
  cases hso : s.sock with
  | none => exact .nothing hso (hphase' _)
  | some so =>
      obtain ⟨hkept, hsame⟩ := kept_shutdown (h.kept so hso) mem
      obtain ⟨hsettled, htcp⟩ := hstage so hso
      exact .settled rfl (hphase' _) hkept (hsettled.same hsame) (hsame.stream.trans htcp)

/-! ### Sending and receiving -/

theorem kept_send {app : App} {mem : Mem} {so so' : Socket} {header : Option Nat}
    {data : List UInt8} (h : Kept app so) (hsend : socketSend mem so header data = .ok so') :
    Kept app so' ∧ Same so so' := by
  obtain ⟨hconnected, ⟨-, rfl⟩ | ⟨-, head, t, t', -, ht, -, hstate, -, rfl⟩⟩ :=
    socketSend_cases hsend
  · exact ⟨h, .refl so'⟩
  · refine ⟨⟨h.handle, ⟨h.sane.liven ht (hstate ▸ id), h.sane.restate ht (hstate ▸ id),
        fun hc => ?_, h.sane.once⟩,
      fun hdgram => ?_⟩, ⟨rfl, rfl, id, fun _ => rfl⟩⟩
    · simp [hconnected] at hc
    · simp [(h.dgram hdgram).2] at hconnected

theorem kept_recv {app : App} {so so' : Socket} {len : Nat} {data : List UInt8}
    (h : Kept app so) (hrecv : socketRecv so len = some (data, so')) :
    Kept app so' ∧ Same so so' := by
  obtain ⟨-, heq, hnone, hsession⟩ := socketRecv_cases hrecv
  rw [heq]
  refine ⟨⟨h.handle, ⟨fun t' ht' => ?_, fun t' ht' hsyn => ?_, h.sane.early, h.sane.once⟩,
    fun hdgram => ?_⟩, ⟨rfl, rfl, id, fun _ => rfl⟩⟩
  · obtain ⟨t, ht, hstate, -⟩ := hsession t' ht'
    exact hstate ▸ h.sane.live t ht
  · obtain ⟨t, ht, hstate, -⟩ := hsession t' ht'
    exact h.sane.syn t ht (hstate ▸ hsyn)
  · exact ⟨hnone (h.dgram hdgram).1, (h.dgram hdgram).2⟩

theorem staged_sendDone {s : State} (h : Staged s) (hphase : s.pc.phase = .settled) :
    Staged (sendDone s) := by
  unfold sendDone
  dsimp only
  split
  · exact h.move rfl rfl rfl id hphase.symm
  · exact h.move rfl rfl rfl id hphase.symm

theorem staged_sendFailed {s : State} (h : Staged s) (hphase : s.pc.phase = .settled) :
    Staged (sendFailed s) :=
  h.move rfl rfl rfl id hphase.symm

theorem Staged.stored {s : State} {so so' : Socket} (h : Staged s) (hso : s.sock = some so)
    (hphase : s.pc.phase = .settled) (hkept : Kept s.app so' ∧ Same so so') :
    Staged { s with sock := some so' } := by
  have hstage := h.stage
  rw [hphase] at hstage
  obtain ⟨hsettled, htcp⟩ := hstage so hso
  exact .settled rfl hphase hkept.1 (hsettled.same hkept.2) (hkept.2.stream.trans htcp)

theorem staged_sendCall {s : State} {data : List UInt8} (h : Staged s)
    (hpc : s.pc = .sendCall data) (i : Input) : Staged (sendCall s data i) := by
  have hphase : s.pc.phase = .settled := by rw [hpc]; rfl
  unfold sendCall
  rw [h.own]
  cases hso : s.sock with
  | none =>
      dsimp only
      split
      · exact staged_sendDone h hphase
      · exact staged_sendFailed h hphase
  | some so =>
      dsimp only
      cases hsend : socketSend i.mem so i.header data with
      | error => exact staged_sendFailed h hphase
      | ok so' =>
          have hstored := h.stored hso hphase (kept_send (h.kept so hso) hsend)
          have hnoted : Staged (({ s with sock := some so' } : State).note (.queued data)) :=
            hstored.move rfl rfl rfl id rfl
          exact staged_sendDone hnoted hphase

theorem staged_sendDatagram {s : State} {data : List UInt8} (h : Staged s)
    (hpc : s.pc = .sendDatagram data) (ready : Bool) : Staged (sendDatagram s ready) := by
  have hphase : s.pc.phase = .settled := by rw [hpc]; rfl
  unfold sendDatagram
  rw [h.own]
  cases hso : s.sock with
  | none =>
      dsimp only
      split
      · exact staged_sendDone h hphase
      · exact staged_sendFailed h hphase
  | some so =>
      dsimp only
      split
      · have hkept : Kept s.app { so with carried := so.carried + 1 } :=
          (h.kept so hso).queues rfl rfl rfl rfl rfl rfl (Nat.le_refl _)
        exact staged_sendDone (h.stored hso hphase ⟨hkept, ⟨rfl, rfl, id, fun _ => rfl⟩⟩) hphase
      · exact staged_sendFailed h hphase

theorem staged_recvCall {s : State} (h : Staged s) (hpc : s.pc = .recvCall) (i : Input) :
    Staged (recvCall s i) := by
  have hphase : s.pc.phase = .settled := by rw [hpc]; rfl
  unfold recvCall
  split
  · exact h.move rfl rfl rfl id hphase.symm
  · split
    · exact staged_answer h hphase false
    · rw [h.own]
      cases hso : s.sock with
      | none => exact staged_answer h hphase _
      | some so =>
          dsimp only
          cases hrecv : socketRecv so (min s.app.recvDataLength netBufSize) with
          | none => exact staged_answer h hphase false
          | some r =>
              obtain ⟨data, so'⟩ := r
              have hstored := h.stored hso hphase (kept_recv (h.kept so hso) hrecv)
              dsimp only
              split
              · exact hstored.move rfl rfl rfl id hphase.symm
              · exact hstored.move rfl rfl rfl id hphase.symm

theorem staged_main {s s' : State} {i : Input} (hs : Staged s)
    (h : mainStep s i = some s') : Staged s' := by
  by_cases hq : s.pc.quiet = true
  · exact hs.quiet (quiet_main hq h)
  · unfold mainStep at h
    cases hpc : s.pc with
    | startConn tcp =>
        rw [hpc] at h
        cases h
        exact staged_startConn hs hpc
    | startClose =>
        rw [hpc] at h
        cases h
        exact staged_startClose hs hpc
    | startOpen =>
        rw [hpc] at h
        cases h
        exact staged_startOpen hs hpc i.ready
    | startConnect =>
        rw [hpc] at h
        cases h
        exact staged_startConnect hs hpc i.ready i.mem
    | startUdp bound =>
        rw [hpc] at h
        cases h
        exact staged_startUdp hs hpc
    | startWait =>
        rw [hpc] at h
        exact staged_startWait hs hpc h
    | startFail | closeSocket =>
        rw [hpc] at h
        cases h
        exact .nothing hs.closed rfl
    | closeShutdown =>
        rw [hpc] at h
        cases h
        exact staged_closeShutdown hs hpc i.mem i.ready
    | closeReset =>
        rw [hpc] at h
        cases h
        exact hs.move rfl rfl rfl id (by rw [hpc]; rfl)
    | closeFlag =>
        rw [hpc] at h
        cases h
        exact hs.move rfl rfl rfl (fun hflag => by cases hflag) (by rw [hpc]; rfl)
    | sendFlag data =>
        rw [hpc] at h
        cases h
        exact hs.move rfl rfl rfl id (by rw [hpc]; rfl)
    | sendCall data =>
        rw [hpc] at h
        cases h
        exact staged_sendCall hs hpc i
    | sendDatagram data =>
        rw [hpc] at h
        cases h
        exact staged_sendDatagram hs hpc i.ready
    | recvCall =>
        rw [hpc] at h
        cases h
        exact staged_recvCall hs hpc i
    | _ => simp [hpc, Pc.quiet] at hq

/-- **Every step keeps the stages.** -/
theorem staged_step {s s' : State} {a : Act} (hs : Staged s) (h : step s a = some s') :
    Staged s' := by
  cases a with
  | main i => exact staged_main hs h
  | mesh up =>
      cases h
      exact hs.move rfl rfl rfl id rfl
  | deliver => exact hs.deliver h
  | segment mem seg =>
      obtain ⟨so, t, hso, ht, rfl⟩ := onSession_cases h
      exact hs.session hso ht (fun hend => hend) (moves_up ht)
  | timer mem =>
      obtain ⟨so, t, hso, ht, rfl⟩ := onSession_cases h
      exact hs.session hso ht (fun hend => hend) (moves_timer ht)
  | datagram mem limited buf =>
      obtain ⟨so, hso, -, rfl⟩ := datagram_cases h
      rcases socketUp_cases mem so limited buf with hdropped | ⟨-, hqueued⟩
      · rw [hdropped]
        exact hs.move hso.symm rfl rfl id rfl
      · rw [hqueued]
        exact hs.announce hso rfl
  | txBuffer mem event length =>
      obtain ⟨so, hso, hevent, rfl⟩ := txBuffer_cases h
      rw [txBufferEvent_eq]
      refine hs.announce hso ?_
      split
      · cases event <;> first | rfl | cases hevent
      · rfl
  | otherOpen =>
      unfold step at h
      dsimp only at h
      split at h
      · cases h
      · cases h
        exact hs.move rfl rfl rfl id rfl
  | otherClose id =>
      unfold step at h
      dsimp only at h
      split at h
      · cases h
        exact hs.move rfl rfl rfl (fun hflag => hflag) rfl
      · cases h

theorem staged_init : Staged .init := .nothing rfl rfl

end Modem
