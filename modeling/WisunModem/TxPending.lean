import WisunModem.Runs
import WisunModem.Handlers

/-!
# The end of every transmission

The main thread sets `txPendingFlg` before it sends and waits for it before it sends
again; the callback clears it.  The wait ends only if something is still to come:
bytes in the send queue, whose acknowledgement will be announced, or an event
announced already.  A send of nothing, a queue emptied without an event, and a
socket closed under the flag leave it set for good.
-/

namespace Modem

open Runs NsSocket Unsolicited

/-- The callback clears `txPendingFlg` when it takes the event.  An event for queued
data clears it only when it comes too late for its data, and is left out. -/
def clearsPending : SocketMsg → Bool
  | .event .data length => !acceptsData length
  | .event .connectDone _ | .event .txFail _ | .event .connectClosed _
  | .event .connectionReset _ | .event .txDone _ => true
  | _ => false

/-- An event which clears the flag is on its way. -/
def clearing (so : Socket) : Bool := so.events.any clearsPending

/-- The transmission has an end: bytes are not acknowledged yet, or the end is on its
way. -/
def Completes (so : Socket) : Prop := 0 < so.sndq.dataBytes ∨ clearing so = true

/-- There is memory for each event which clears the flag. -/
def clearsKept (mem : Mem) : Bool :=
  mem.event .txDone && mem.event .txFail && mem.event .connectClosed &&
    mem.event .connectionReset

variable {mem : Mem} {allowed : Option SocketEvent → Prop} {sound : Prop}

/-! ## The stack -/

theorem clearing_of_events {so so' : Socket} {more : List SocketMsg}
    (h : so'.events = so.events ++ more) (hso : clearing so = true) : clearing so' = true := by
  unfold clearing at hso ⊢
  rw [h, List.any_append, hso, Bool.true_or]

theorem clearing_push {so : Socket} {msg : SocketMsg} (hso : clearing so = true) :
    clearing (socketEventPush mem so msg) = true :=
  clearing_of_events (push_events so msg) hso

/-- An event there is memory for is on its way once it is pushed. -/
theorem clearing_pushed {so : Socket} {msg : SocketMsg} (hmsg : clearsPending msg = true)
    (hkeeps : mem.keeps msg = true) : clearing (socketEventPush mem so msg) = true := by
  unfold clearing
  rw [push_events, if_pos hkeeps]
  simp [hmsg]

theorem fin_events (mem : Mem) (so : Socket) (t : Tcp) :
    ∃ more, (tcpFin mem so t).1.events = so.events ++ more := by
  unfold tcpFin socketCantRecvMore
  split
  · exact ⟨_, push_events _ _⟩
  · exact ⟨_, push_events _ _⟩
  · exact ⟨_, push_events _ _⟩
  · exact ⟨_, by rw [push_events, push_events, List.append_assoc]⟩
  · exact ⟨[], (List.append_nil _).symm⟩

theorem clearing_move {so so' : Socket} (h : Move mem allowed sound so so')
    (hso : clearing so = true) : clearing so' = true := by
  cases h with
  | tune => exact hso
  | acked =>
      split
      · exact clearing_push hso
      · exact hso
  | problem => exact clearing_push hso
  | complete =>
      unfold socketConnectionComplete
      split
      · exact hso
      · exact clearing_push hso
  | take push =>
      rw [takeData_eq]
      exact clearing_of_events rfl hso
  | fin =>
      obtain ⟨more, hmore⟩ := fin_events mem so _
      exact clearing_of_events hmore hso
  | delete reason => exact clearing_of_events (delete_events so reason) hso
  | finished => exact clearing_of_events (delete_events _ none) (clearing_push hso)

/-- What is on its way stays so until it is delivered. -/
theorem clearing_moves {so so' : Socket} (h : Moves mem allowed sound so so')
    (hso : clearing so = true) : clearing so' = true :=
  h.keep (fun s => clearing s = true) (fun _ _ hs hmove => clearing_move hmove hs) hso

theorem completes_move {so so' : Socket} (hkept : clearsKept mem = true)
    (hends : ∀ reason, allowed reason → reason = some .connectionReset ∨ reason = some .txFail)
    (hsane : Sane so) (h : Move mem allowed sound so so') (hso : Completes so) :
    Completes so' := by
  simp only [clearsKept, Bool.and_eq_true] at hkept
  obtain ⟨⟨⟨hdone, hfail⟩, hclosed⟩, hreset⟩ := hkept
  rcases hso with hbytes | hclearing
  · cases h with
    | tune => exact .inl hbytes
    | acked len hs =>
        rename_i t
        split
        · exact .inr (clearing_pushed rfl hdone)
        · rename_i hsyn
          -- before the session is synchronized nothing is queued
          have hsyn : t.state.hasSyn = true := (hsane.live t hs).resolve_right hsyn
          have hempty := (hsane.early (hsane.syn t hs hsyn).2).1
          omega
    | problem => exact .inl (by simpa using hbytes)
    | complete =>
        refine .inl ?_
        unfold socketConnectionComplete
        split <;> simpa using hbytes
    | take push =>
        rw [takeData_eq]
        exact .inl hbytes
    | fin =>
        refine .inl ?_
        rw [(fin_same mem so _).2.2.2.2]
        exact hbytes
    | delete reason hs hallowed =>
        by_cases hopen : (so.connecting || so.connected) = true
        · refine .inr ?_
          have hend : ∃ ev, reason = some ev ∧ clearsPending (.event ev 0) = true ∧
              mem.event ev = true := by
            rcases hends reason hallowed with rfl | rfl
            · exact ⟨_, rfl, rfl, hreset⟩
            · exact ⟨_, rfl, rfl, hfail⟩
          obtain ⟨ev, rfl, hclears, hmem⟩ := hend
          unfold clearing
          rw [delete_events]
          simp [endEvent, hopen, hmem, hclears]
        · refine .inl ?_
          rw [delete_sndq, if_neg hopen]
          exact hbytes
    | finished =>
        exact .inr (clearing_of_events (delete_events _ none) (clearing_pushed rfl hclosed))
  · exact .inr (clearing_move h hclearing)

theorem completes_moves {so so' : Socket} (hkept : clearsKept mem = true)
    (hends : ∀ reason, allowed reason → reason = some .connectionReset ∨ reason = some .txFail)
    (hsane : Sane so) (h : Moves mem allowed sound so so') (hso : Completes so) :
    Completes so' := by
  have hno : ¬allowed (some .connectDone) := by
    intro hallowed
    rcases hends _ hallowed with heq | heq <;> cases heq
  exact (h.keep (fun s => Sane s ∧ Completes s)
    (fun _ _ hs hmove => ⟨sane_move hno hs.1 hmove, completes_move hkept hends hs.1 hmove hs.2⟩)
    ⟨hsane, hso⟩).2

/-- A session with bytes in its send queue is past its SYN. -/
theorem synced_of_bytes {so : Socket} {t : Tcp} (hsane : Sane so) (ht : so.session = some t)
    (hbytes : 0 < so.sndq.dataBytes) : t.state.hasSyn = false := by
  cases hsyn : t.state.hasSyn with
  | false => rfl
  | true =>
      have hempty := (hsane.early (hsane.syn t ht hsyn).2).1
      omega

/-- A reset in a closing session is the end of it, and nobody is told. -/
def quietSegment (t : Tcp) (seg : Segment) : Bool :=
  seg.rst && (t.state == .closing || t.state == .lastAck)

theorem completes_up {so : Socket} {t : Tcp} {seg : Segment} (hkept : clearsKept mem = true)
    (hquiet : clearing so = true ∨ quietSegment t seg = false) (hsane : Sane so)
    (ht : so.session = some t) (hso : Completes so) : Completes (tcpUp mem so t seg) := by
  by_cases hclearing : clearing so = true
  · exact .inr (clearing_moves (moves_up ht) hclearing)
  · have hsynced := synced_of_bytes hsane ht (hso.resolve_right hclearing)
    refine completes_moves hkept (fun reason hreason => ?_) hsane (moves_up ht) hso
    have hloud := hquiet.resolve_left hclearing
    cases reason with
    | none =>
        obtain ⟨hrst, hstate⟩ := hreason
        unfold quietSegment at hloud
        rcases hstate with hstate | hstate <;> simp [hrst, hstate] at hloud
    | some ev =>
        cases ev with
        | connectionReset => exact .inl rfl
        | connectFail =>
            have hsyn : t.state.hasSyn = true := hreason
            rw [hsynced] at hsyn
            cases hsyn
        | _ => exact absurd hreason id

theorem completes_timer {so : Socket} {t : Tcp} (hkept : clearsKept mem = true)
    (hquiet : clearing so = true ∨ (t.state == .timeWait) = false) (hsane : Sane so)
    (ht : so.session = some t) (hso : Completes so) :
    Completes (tcpHandleTimeEvent mem so t) := by
  by_cases hclearing : clearing so = true
  · exact .inr (clearing_moves (moves_timer ht) hclearing)
  · refine completes_moves hkept (fun reason hreason => ?_) hsane (moves_timer ht) hso
    have hloud := hquiet.resolve_left hclearing
    cases reason with
    | none =>
        have hstate : t.state = .timeWait := hreason
        simp [hstate] at hloud
    | some ev =>
        cases ev with
        | txFail => exact .inr rfl
        | _ => exact absurd hreason id

/-! ## Calls of the application -/

/-- A shutdown now would be the end of a session about which nobody is told. -/
def shutsQuietly (so : Socket) : Bool :=
  so.session.any fun t => decide (so.rcvq.dataBytes ≠ 0) &&
    (t.state == .closeWait || t.state == .lastAck || t.state == .closing || t.state == .timeWait)

theorem completes_shutdown {so : Socket} (hkept : clearsKept mem = true)
    (hquiet : clearing so = true ∨ shutsQuietly so = false) (hsane : Sane so)
    (hso : Completes so) : Completes (socketShutdown mem so).2 := by
  rcases moves_shutdown mem so with hsame | ⟨-, hconnected, so', hmoves, heq⟩
  · rw [hsame]
    exact hso
  · have hflags : Completes { so with cantRecvMore := true, shutWr := true } := hso
    have hsane' : Sane { so with cantRecvMore := true, shutWr := true } :=
      ⟨hsane.live, hsane.syn, hsane.early, hsane.once⟩
    have hso' : Completes so' := by
      by_cases hclearing : clearing so = true
      · exact .inr (clearing_moves hmoves hclearing)
      · refine completes_moves hkept (fun reason hreason => ?_) hsane' hmoves hflags
        have hloud := hquiet.resolve_left hclearing
        obtain ⟨t, ht, hend⟩ := hreason
        cases reason with
        | none =>
            rcases hend with hlisten | hsyn | ⟨hunread, hstate⟩
            · have hlive := hsane.live t ht
              rw [hlisten] at hlive
              rcases hlive with hlive | hlive <;> cases hlive
            · have hnot := (hsane.syn t ht (by rw [hsyn]; rfl)).2
              rw [hconnected] at hnot
              cases hnot
            · have hunread : so.rcvq.dataBytes ≠ 0 := hunread
              unfold shutsQuietly at hloud
              rw [ht] at hloud
              rcases hstate with h | h | h | h <;> simp [h, hunread] at hloud
        | some ev =>
            cases ev with
            | connectionReset => exact .inl rfl
            | _ => exact absurd hend id
    rw [heq]
    exact hso'

/-- Data queued is acknowledged some time. -/
theorem completes_send {so so' : Socket} {header : Option Nat} {data : List UInt8}
    (hsend : socketSend mem so header data = .ok so')
    (hsome : data ≠ [] ∨ 0 < so.sndq.dataBytes) : Completes so' := by
  obtain ⟨-, ⟨hempty, rfl⟩ | ⟨hdata, head, t, t', -, -, -, -, -, rfl⟩⟩ := socketSend_cases hsend
  · exact .inl (hsome.resolve_left fun hne => hne hempty)
  · refine .inl ?_
    have hlen : 0 < data.length := List.length_pos_iff.mpr hdata
    have hbytes : (so.sndq.appendAndCompress (.get head data)).dataBytes =
        so.sndq.dataBytes + data.length := Sockbuf.dataBytes_appendAndCompress _ _
    dsimp only
    omega

/-! ## The modem -/

/-- Between setting the flag and the return of `socket_send`. -/
def Pc.inCall : Pc → Bool
  | .sendCall _ => true
  | _ => false

/-- The flag is set, and not for a call still to be made. -/
def waits (s : State) : Bool := s.app.txPendingFlg && !s.pc.inCall

/-- Places at which the flag is clear. -/
def Pc.unsent : Pc → Bool
  | .startOpen | .startConnect | .startUdp _ | .startWait | .startFail | .closeFlag
  | .closeSocket => true
  | _ => false

/-- `socket_send` gets something to send, or finds something sent, and the socket it is
called for is not somebody else's. -/
def sendsSomething (s : State) : Bool :=
  match s.pc with
  | .sendCall data =>
      (!data.isEmpty || s.sock.all fun so => decide (0 < so.sndq.dataBytes)) &&
        s.target s.app.socketId != .other
  | _ => true

/-- While the flag is set there is memory for the events that clear it, a session does
not end without one, and no socket is closed for a new one. -/
def Tells (s : State) : Act → Prop
  | .main i =>
      sendsSomething s = true ∧ (s.pc = .startClose → s.app.txPendingFlg = false) ∧
        (s.pc = .closeShutdown ∧ waits s = true → clearsKept i.mem = true ∧
          s.sock.all (fun so => clearing so || !shutsQuietly so) = true)
  | .segment mem seg =>
      waits s = true → clearsKept mem = true ∧ s.sock.all (fun so =>
        clearing so || so.session.all fun t => !quietSegment t seg) = true
  | .timer mem =>
      waits s = true → clearsKept mem = true ∧ s.sock.all (fun so =>
        clearing so || so.session.all fun t => !(t.state == .timeWait)) = true
  | _ => True

/-- What is kept of the flag. -/
structure Completing (s : State) : Prop where
  staged : Staged s
  pending : waits s = true → ∃ so, s.sock = some so ∧ Completes so
  clear : s.pc.unsent = true → s.app.txPendingFlg = false

theorem completing_stored {s : State} {so so' : Socket} (hs : Completing s)
    (hso : s.sock = some so) (hstaged : Staged { s with sock := some so' })
    (hkeeps : waits s = true → Completes so → Completes so') :
    Completing { s with sock := some so' } := by
  refine ⟨hstaged, fun hwaits => ⟨so', rfl, ?_⟩, hs.clear⟩
  have hwaits : waits s = true := hwaits
  obtain ⟨so₁, h₁, hcompletes⟩ := hs.pending hwaits
  rw [hso] at h₁
  cases h₁
  exact hkeeps hwaits hcompletes

/-- `socket_send` for the own socket queues the data or gives the flag back. -/
theorem sendCall_own {s : State} {so : Socket} (hs : Staged s) (hso : s.sock = some so)
    (data : List UInt8) (i : Input) :
    (sendCall s data i).app.txPendingFlg = false ∨
      ∃ so', socketSend i.mem so i.header data = .ok so' ∧
        (sendCall s data i).sock = some so' := by
  unfold sendCall
  rw [hs.own, hso]
  dsimp only
  cases hsend : socketSend i.mem so i.header data with
  | error => exact .inl rfl
  | ok so' =>
      refine .inr ⟨so', rfl, ?_⟩
      unfold sendDone
      dsimp only
      split <;> rfl

theorem sendCall_nothing {s : State} {data : List UInt8} {i : Input} (hs : Staged s)
    (hso : s.sock = none) (htarget : s.target s.app.socketId ≠ .other) :
    (sendCall s data i).app.txPendingFlg = false := by
  unfold sendCall
  rw [hs.own, hso]
  dsimp only
  rw [if_neg fun h => htarget h.1]
  rfl

theorem completing_sendCall {s : State} {data : List UInt8} {i : Input} (hs : Completing s)
    (hpc : s.pc = .sendCall data) (hok : sendsSomething s = true) :
    Completing (sendCall s data i) := by
  have hstaged := staged_sendCall hs.staged hpc i
  unfold sendsSomething at hok
  rw [hpc] at hok
  simp only [Bool.and_eq_true, Bool.or_eq_true, bne_iff_ne] at hok
  obtain ⟨hsome, htarget⟩ := hok
  refine ⟨hstaged, fun hwaits => ?_, fun hunsent => ?_⟩
  · have hflag : (sendCall s data i).app.txPendingFlg = true := by
      unfold waits at hwaits
      exact (Bool.and_eq_true_iff.mp hwaits).1
    cases hso : s.sock with
    | none =>
        rw [sendCall_nothing hs.staged hso htarget] at hflag
        cases hflag
    | some so =>
        rcases sendCall_own hs.staged hso data i with hclear | ⟨so', hsend, hso'⟩
        · rw [hclear] at hflag
          cases hflag
        · refine ⟨so', hso', completes_send hsend ?_⟩
          rw [hso] at hsome
          simpa using hsome
  · rw [sendCall_pc] at hunsent
    cases hunsent

theorem Effect.pending {s : State} {i : Input} {sock : Option Socket} {tx : Bool}
    (h : Effect s i sock tx) (htx : tx = true) :
    s.app.txPendingFlg = true ∨ ∃ data, s.pc = .sendFlag data := by
  cases h with
  | flagged data hpc => exact .inr ⟨data, hpc⟩
  | cleared => cases htx
  | _ => exact .inl htx

/-- A step of the main thread with the flag left set, but for the one which sets it. -/
theorem completes_effect {s : State} {i : Input} {sock : Option Socket} (hs : Completing s)
    (hok : Tells s (.main i)) (hflag : s.app.txPendingFlg = true)
    (hcall : s.pc.inCall = false) (hset : ∀ data, s.pc ≠ .sendFlag data)
    (h : Effect s i sock true) : ∃ so, sock = some so ∧ Completes so := by
  obtain ⟨-, hclose, hshut⟩ := hok
  have hwaits : waits s = true := by simp [waits, hflag, hcall]
  obtain ⟨so, hso, hcompletes⟩ := hs.pending hwaits
  have hunsent : s.pc.unsent = false := by
    cases hu : s.pc.unsent with
    | false => rfl
    | true =>
        rw [hs.clear hu] at hflag
        cases hflag
  generalize htx : true = tx at h
  cases h with
  | same | cleared => exact ⟨so, hso, hcompletes⟩
  | flagged data hpc => exact absurd hpc (hset data)
  | gone hpc =>
      rcases hpc with hpc | hpc | hpc
      · rw [hclose hpc] at hflag
        cases hflag
      · rw [hpc] at hunsent
        cases hunsent
      · rw [hpc] at hunsent
        cases hunsent
  | opened id hpc | connected so₁ hpc =>
      rw [hpc] at hunsent
      cases hunsent
  | shutdown so₁ hpc h₁ =>
      rw [hso] at h₁
      cases h₁
      obtain ⟨hkept, hloud⟩ := hshut ⟨hpc, hwaits⟩
      rw [hso, Option.all_some] at hloud
      exact ⟨_, rfl, completes_shutdown hkept (by simpa using hloud)
        (hs.staged.kept so hso).sane hcompletes⟩
  | sent data so₁ so' hpc =>
      rw [hpc] at hcall
      cases hcall
  | datagram data so₁ hpc h₁ =>
      rw [hso] at h₁
      cases h₁
      exact ⟨_, rfl, hcompletes⟩
  | received data so₁ so' hpc _ _ h₁ hrecv =>
      rw [hso] at h₁
      cases h₁
      refine ⟨so', rfl, ?_⟩
      rw [(socketRecv_cases hrecv).2.1]
      exact hcompletes

theorem completing_main {s s' : State} {i : Input} (hs : Completing s)
    (hok : Tells s (.main i)) (h : mainStep s i = some s') : Completing s' := by
  have hstaged := staged_main hs.staged h
  have heffect := (handled_main hs.staged h).effect
  have hafter := after_main h
  by_cases hcall : s.pc.inCall = true
  · cases hpc : s.pc with
    | sendCall data =>
        have hsome := hok.1
        unfold mainStep at h
        rw [hpc] at h
        cases h
        exact completing_sendCall hs hpc hsome
    | _ => simp [hpc, Pc.inCall] at hcall
  · have hcall : s.pc.inCall = false := by simpa using hcall
    by_cases hset : ∃ data, s.pc = .sendFlag data
    · obtain ⟨data, hpc⟩ := hset
      unfold mainStep at h
      rw [hpc] at h
      cases h
      refine ⟨hstaged, fun hwaits => ?_, fun hunsent => nomatch hunsent⟩
      simp [waits, Pc.inCall] at hwaits
    · refine ⟨hstaged, fun hwaits => ?_, fun hunsent => ?_⟩
      · have htx : s'.app.txPendingFlg = true := by
          unfold waits at hwaits
          exact (Bool.and_eq_true_iff.mp hwaits).1
        have hflag := (heffect.pending htx).resolve_right hset
        rw [htx] at heffect
        exact completes_effect hs hok hflag hcall (fun data hpc => hset ⟨data, hpc⟩) heffect
      · cases htx : s'.app.txPendingFlg with
        | false => rfl
        | true =>
            have hflag := (heffect.pending htx).resolve_right hset
            have hclear : s.pc.unsent = true → False := by
              intro hu
              rw [hs.clear hu] at hflag
              cases hflag
            cases hpc : s'.pc with
            | startOpen =>
                rw [hpc] at hafter
                rw [hok.2.1 hafter] at hflag
                cases hflag
            | startConnect | startUdp | closeSocket =>
                rw [hpc] at hafter
                have hafter : s.pc = _ := hafter
                exact (hclear (by rw [hafter]; rfl)).elim
            | startWait | startFail =>
                rw [hpc] at hafter
                rcases hafter with hafter | ⟨b, hafter⟩ | hafter <;>
                  exact (hclear (by rw [hafter]; rfl)).elim
            | closeFlag =>
                rw [hpc] at hafter
                have hafter : s.pc = .closeReset := hafter
                unfold mainStep at h
                rw [hafter] at h
                cases h
                cases htx
            | _ =>
                rw [hpc] at hunsent
                cases hunsent

/-- The callback only clears the flag, and with the events which are to clear it. -/
theorem socketCallback_pending (app : App) (event : SocketEvent) (dLen : Nat)
    (h : (socketCallback app event dLen).txPendingFlg = true) :
    app.txPendingFlg = true ∧ clearsPending (.event event dLen) = false := by
  unfold socketCallback at h
  cases event with
  | data =>
      dsimp only at h
      split at h
      · rename_i haccepts
        exact ⟨h, by simp [clearsPending, haccepts]⟩
      · cases h
  | connectDone | txFail | connectClosed | connectionReset | txDone => cases h
  | _ => exact ⟨h, rfl⟩

theorem completing_deliver {s s' : State} (hs : Completing s) (h : deliver s = some s') :
    Completing s' := by
  have hstaged := hs.staged.deliver h
  obtain ⟨so, msg, rest, hso, hevents, rfl⟩ := deliver_cases h
  refine ⟨hstaged, fun hwaits => ?_, fun hunsent => ?_⟩
  · obtain ⟨hflag, hcall⟩ : (deliverMsg s so msg rest).app.txPendingFlg = true ∧
        (!s.pc.inCall) = true := Bool.and_eq_true_iff.mp hwaits
    rw [deliverMsg_app] at hflag
    obtain ⟨hflag, hkeeps⟩ := socketCallback_pending _ _ _ hflag
    obtain ⟨so₁, h₁, hcompletes⟩ := hs.pending (by simp [waits, hflag, hcall])
    rw [hso] at h₁
    cases h₁
    refine ⟨_, rfl, hcompletes.imp_right fun hclearing => ?_⟩
    have hmsg : clearsPending msg = false := by
      cases msg with
      | event type length => exact hkeeps
      | dataQueued => rfl
    unfold clearing at hclearing ⊢
    rw [hevents, List.any_cons, hmsg, Bool.false_or] at hclearing
    exact hclearing
  · have hclear := hs.clear hunsent
    cases htx : (deliverMsg s so msg rest).app.txPendingFlg with
    | false => rfl
    | true =>
        rw [deliverMsg_app] at htx
        rw [(socketCallback_pending _ _ _ htx).1] at hclear
        cases hclear

theorem completing_step {s s' : State} {a : Act} (hs : Completing s) (hok : Tells s a)
    (h : step s a = some s') : Completing s' := by
  have hstaged := staged_step hs.staged h
  cases a with
  | main i => exact completing_main hs hok h
  | mesh up =>
      cases h
      exact ⟨hstaged, hs.pending, hs.clear⟩
  | deliver => exact completing_deliver hs h
  | segment mem seg =>
      obtain ⟨so, t, hso, ht, rfl⟩ := onSession_cases h
      refine completing_stored hs hso hstaged fun hwaits hcompletes => ?_
      obtain ⟨hkept, hloud⟩ := hok hwaits
      rw [hso, Option.all_some, ht, Option.all_some] at hloud
      exact completes_up hkept (by simpa using hloud) (hs.staged.kept so hso).sane ht hcompletes
  | timer mem =>
      obtain ⟨so, t, hso, ht, rfl⟩ := onSession_cases h
      refine completing_stored hs hso hstaged fun hwaits hcompletes => ?_
      obtain ⟨hkept, hloud⟩ := hok hwaits
      rw [hso, Option.all_some, ht, Option.all_some] at hloud
      exact completes_timer hkept (by simpa using hloud) (hs.staged.kept so hso).sane ht
        hcompletes
  | datagram mem limited buf =>
      obtain ⟨so, hso, -, rfl⟩ := datagram_cases h
      refine completing_stored hs hso hstaged fun _ hcompletes => ?_
      rcases socketUp_cases mem so limited buf with hdropped | ⟨-, hqueued⟩
      · rw [hdropped]
        exact hcompletes
      · rw [hqueued]
        exact hcompletes.imp_right (clearing_of_events rfl)
  | txBuffer mem event length =>
      obtain ⟨so, hso, -, rfl⟩ := txBuffer_cases h
      refine completing_stored hs hso hstaged fun _ hcompletes => ?_
      rw [txBufferEvent_eq]
      exact hcompletes.imp_right (clearing_of_events rfl)
  | otherOpen =>
      unfold step at h
      dsimp only at h
      split at h
      · cases h
      · cases h
        exact ⟨hstaged, hs.pending, hs.clear⟩
  | otherClose id =>
      unfold step at h
      dsimp only at h
      split at h
      · cases h
        exact ⟨hstaged, hs.pending, hs.clear⟩
      · cases h

theorem completing_init : Completing .init :=
  ⟨staged_init, (fun hwaits => nomatch hwaits), fun _ => rfl⟩

/-- **No lost completion.**  In a run in which the end of a transmission is told,
`txPendingFlg` is set outside the call only while the send queue of the socket holds
bytes or an event which clears the flag is on its way. -/
theorem pending_completes {s : State} {as : List Act} (hok : Meets step Tells .init as)
    (hrun : run step .init as = some s) (hflag : s.app.txPendingFlg = true)
    (hcall : ∀ data, s.pc ≠ .sendCall data) :
    ∃ so, s.sock = some so ∧
      (0 < so.sndq.dataBytes ∨ ∃ msg ∈ so.events, clearsPending msg = true) := by
  have hs : Completing s :=
    run_invariant Completing (fun _ _ _ h hok hstep => completing_step h hok hstep)
      completing_init hok hrun
  have hwaits : waits s = true := by
    unfold waits Pc.inCall
    rw [hflag]
    cases hpc : s.pc with
    | sendCall data => exact absurd hpc (hcall data)
    | _ => rfl
  obtain ⟨so, hso, hcompletes⟩ := hs.pending hwaits
  exact ⟨so, hso, hcompletes.imp_right List.any_eq_true.mp⟩

instance decidableTells (s : State) : ∀ a, Decidable (Tells s a)
  | .main _ => inferInstanceAs (Decidable (_ ∧ _))
  | .segment .. | .timer _ => inferInstanceAs (Decidable (_ → _))
  | .mesh _ | .deliver | .datagram .. | .txBuffer .. | .otherOpen | .otherClose _ =>
      inferInstanceAs (Decidable True)

/-- Three bytes are sent and two of them acknowledged. -/
def orderlySend : List Act :=
  tcpSession ++ commandLine (.cipsend 3) ++ sendRound [1, 2, 3] ++
    [.segment .ample (bareSegment 2)]

theorem orderlySend_completes :
    ∃ s, run step .init orderlySend = some s ∧ s.app.txPendingFlg = true ∧ s.pc = .top ∧
      ∃ so, s.sock = some so ∧
        (0 < so.sndq.dataBytes ∨ ∃ msg ∈ so.events, clearsPending msg = true) := by
  have hrun : ∃ s, run step .init orderlySend = some s ∧ s.app.txPendingFlg = true ∧
      s.pc = .top := by
    decide +kernel
  obtain ⟨s, hs, hflag, hpc⟩ := hrun
  exact ⟨s, hs, hflag, hpc,
    pending_completes (by decide +kernel) hs hflag fun data hcall => by simp [hpc] at hcall⟩

/-- `+CIPSEND` of no bytes, and the next one up to its wait. -/
def emptySend : List Act :=
  tcpSession ++ commandLine (.cipsend 0) ++ sendRound [] ++ commandLine (.cipsend 1) ++ goOn 2 ++
    [.main { Input.idle with chars := [1] }]

/-- **A lost completion.**  A send of nothing sets the flag and queues nothing, and the
next `+CIPSEND` waits with nothing left that could end the wait. -/
theorem pending_without_completion :
    ∃ s, run step .init emptySend = some s ∧ s.app.txPendingFlg = true ∧
      s.pc = .sendWait [1] ∧ (mainStep s .idle).isNone = true ∧
      ∃ so ∈ s.sock, so.sndq.dataBytes = 0 ∧ so.events = [] := by
  decide +kernel

end Modem
