import Mathlib.Logic.Relation
import WisunModem.NsSocket

/-!
# What the stack does to a socket

Whatever a segment, a timer or a call of the application does to a socket is a
sequence of a few moves: the session is adjusted, data is acknowledged, a
connection completes, data or a FIN is taken, the session is deleted.  The
functions of `tcp.c` are taken apart here once; an invariant of the socket is
then proved move by move.

`allowed` says with which errors the session may be deleted, and `sound` what a
bound on the receive queue rests on.
-/

namespace NsSocket

open Relation

/-- State changes of a session that nobody is told about. -/
inductive Silent : TcpState → TcpState → Prop
  | same (st : TcpState) : Silent st st
  | synReceived : Silent .synSent .synReceived
  | finAcked : Silent .finWait1 .finWait2
  | closingAcked : Silent .closing .timeWait
  | close {st : TcpState} (h : st = .synReceived ∨ st = .established) : Silent st .finWait1
  | lastAck : Silent .closeWait .lastAck

/-- `t'` is `t` with its window moved no further than there is space. -/
structure Tuned (so : Socket) (t t' : Tcp) : Prop where
  state : t'.state = t.state
  adv : t'.adv ≤ max t.adv (max so.rcvq.space 0)

/-- One move of the stack. -/
inductive Move (mem : Mem) (allowed : Option SocketEvent → Prop) (sound : Prop) :
    Socket → Socket → Prop
  | tune {so : Socket} {t t' : Tcp} (carried : Nat) (hs : so.session = some t)
      (hstate : Silent t.state t'.state)
      (hadv : sound → t'.adv ≤ max t.adv (max so.rcvq.space 0)) :
      Move mem allowed sound so { so with session := some t', carried := carried }
  | acked {so : Socket} {t : Tcp} (len : Nat) (hs : so.session = some t) :
      Move mem allowed sound so
        (if t.state.synchronized then
          socketEventPush mem { so with sndq := so.sndq.drop len }
            (.event .txDone (so.sndq.drop len).dataBytes)
        else { so with sndq := so.sndq.drop len })
  | problem (so : Socket) :
      Move mem allowed sound so (socketEventPush mem so (.event .connectionProblem 0))
  | complete {so : Socket} {t t' : Tcp} (hs : so.session = some t)
      (hsyn : t.state.hasSyn = true) (hstate : t'.state = .established)
      (hadv : sound → t'.adv ≤ max t.adv (max so.rcvq.space 0)) :
      Move mem allowed sound so
        { socketConnectionComplete mem so with session := some t' }
  | take {so : Socket} {t : Tcp} {buf : Buffer} (push : Bool) (hs : so.session = some t)
      (htakes : t.state.takesData = true) (hne : buf.length ≠ 0)
      (hfit : sound → so.rcvq.dataBytes + buf.length ≤ so.rcvq.dataByteLimit) :
      Move mem allowed sound so
        { tcpTakeData mem so push buf with
          session := some { t with adv := t.adv - buf.length } }
  | fin {so : Socket} {t : Tcp} (hs : so.session = some t) :
      Move mem allowed sound so
        { (tcpFin mem so t).1 with session := some (tcpFin mem so t).2 }
  | delete {so : Socket} {t : Tcp} (reason : Option SocketEvent) (hs : so.session = some t)
      (h : allowed reason) :
      Move mem allowed sound so (tcpSessionDeleteWithError mem so reason)
  | finished {so : Socket} {t : Tcp} (hs : so.session = some t) :
      Move mem allowed sound so
        (tcpSessionDeleteWithError mem (socketEventPush mem so (.event .connectClosed 0)) none)

/-- A sequence of moves. -/
abbrev Moves (mem : Mem) (allowed : Option SocketEvent → Prop) (sound : Prop) :
    Socket → Socket → Prop :=
  ReflTransGen (Move mem allowed sound)

/-- What every move keeps, every sequence of moves keeps. -/
theorem Moves.keep {mem : Mem} {allowed : Option SocketEvent → Prop} {sound : Prop}
    (inv : Socket → Prop)
    (hmove : ∀ so so', inv so → Move mem allowed sound so so' → inv so')
    {so so' : Socket} (h : Moves mem allowed sound so so') (hso : inv so) : inv so' := by
  induction h with
  | refl => exact hso
  | tail _ hlast ih => exact hmove _ _ ih hlast

variable {mem : Mem} {allowed : Option SocketEvent → Prop} {sound : Prop}

theorem Moves.mono {allowed' : Option SocketEvent → Prop}
    (himp : ∀ reason, allowed reason → allowed' reason) {so so' : Socket}
    (h : Moves mem allowed sound so so') : Moves mem allowed' sound so so' := by
  refine ReflTransGen.mono (fun s s' hmove => ?_) so so' h
  cases hmove with
  | tune carried hs hstate hadv => exact .tune carried hs hstate hadv
  | acked len hs => exact .acked len hs
  | problem => exact .problem s
  | complete hs hsyn hstate hadv => exact .complete hs hsyn hstate hadv
  | take push hs htakes hne hfit => exact .take push hs htakes hne hfit
  | fin hs => exact .fin hs
  | delete reason hs h => exact .delete reason hs (himp reason h)
  | finished hs => exact .finished hs

/-! ## Pushing an event, deleting the session -/

section push

variable (so : Socket) (msg : SocketMsg)

@[simp] theorem push_id : (socketEventPush mem so msg).id = so.id := by
  unfold socketEventPush
  split <;> rfl

@[simp] theorem push_stream : (socketEventPush mem so msg).stream = so.stream := by
  unfold socketEventPush
  split <;> rfl

@[simp] theorem push_connecting : (socketEventPush mem so msg).connecting = so.connecting := by
  unfold socketEventPush
  split <;> rfl

@[simp] theorem push_connected : (socketEventPush mem so msg).connected = so.connected := by
  unfold socketEventPush
  split <;> rfl

@[simp] theorem push_session : (socketEventPush mem so msg).session = so.session := by
  unfold socketEventPush
  split <;> rfl

@[simp] theorem push_rcvq : (socketEventPush mem so msg).rcvq = so.rcvq := by
  unfold socketEventPush
  split <;> rfl

@[simp] theorem push_sndq : (socketEventPush mem so msg).sndq = so.sndq := by
  unfold socketEventPush
  split <;> rfl

@[simp] theorem push_finSeen : (socketEventPush mem so msg).finSeen = so.finSeen := by
  unfold socketEventPush
  split <;> rfl

theorem push_events : (socketEventPush mem so msg).events =
    so.events ++ if mem.keeps msg then [msg] else [] := by
  unfold socketEventPush
  split <;> simp

end push

/-- The event with which a deleted session ends, where there is one. -/
def endEvent (mem : Mem) (so : Socket) : Option SocketEvent → List SocketMsg
  | none => []
  | some ev =>
      if so.connecting || so.connected then if mem.event ev then [.event ev 0] else [] else []

section delete

variable (so : Socket) (reason : Option SocketEvent)

@[simp] theorem delete_id : (tcpSessionDeleteWithError mem so reason).id = so.id := by
  unfold tcpSessionDeleteWithError tcpSessionPtrFree socketConnectionAbandoned
  split
  · rfl
  · cases reason <;> simp

@[simp] theorem delete_stream : (tcpSessionDeleteWithError mem so reason).stream = so.stream := by
  unfold tcpSessionDeleteWithError tcpSessionPtrFree socketConnectionAbandoned
  split
  · rfl
  · cases reason <;> simp

@[simp] theorem delete_none : (tcpSessionDeleteWithError mem so reason).session = none := rfl

@[simp] theorem delete_rcvq : (tcpSessionDeleteWithError mem so reason).rcvq = so.rcvq := by
  unfold tcpSessionDeleteWithError tcpSessionPtrFree socketConnectionAbandoned
  split
  · rfl
  · cases reason <;> simp

@[simp] theorem delete_finSeen :
    (tcpSessionDeleteWithError mem so reason).finSeen = so.finSeen := by
  unfold tcpSessionDeleteWithError tcpSessionPtrFree socketConnectionAbandoned
  split
  · rfl
  · cases reason <;> simp

@[simp] theorem delete_connected : (tcpSessionDeleteWithError mem so reason).connected =
    (so.connecting || so.connected) := by
  unfold tcpSessionDeleteWithError tcpSessionPtrFree socketConnectionAbandoned
  cases hc : so.connecting <;> cases hd : so.connected <;> cases reason <;> simp [hd]

@[simp] theorem delete_sndq : (tcpSessionDeleteWithError mem so reason).sndq =
    if so.connecting || so.connected then so.sndq.flush else so.sndq := by
  unfold tcpSessionDeleteWithError tcpSessionPtrFree socketConnectionAbandoned
  cases hc : so.connecting <;> cases hd : so.connected <;> cases reason <;> simp

theorem delete_events : (tcpSessionDeleteWithError mem so reason).events =
    so.events ++ endEvent mem so reason := by
  unfold tcpSessionDeleteWithError tcpSessionPtrFree socketConnectionAbandoned endEvent
  cases reason with
  | none => cases hc : so.connecting <;> cases hd : so.connected <;> simp
  | some ev =>
      cases hm : mem.event ev <;> cases hc : so.connecting <;> cases hd : so.connected <;>
        simp [push_events, Mem.keeps, hm]

end delete

/-! ## The session alone -/

theorem Tuned.refl (so : Socket) (t : Tcp) : Tuned so t t := ⟨rfl, Int.le_max_left _ _⟩

theorem Tuned.trans {so : Socket} {t t' t'' : Tcp} (h : Tuned so t t')
    (h' : Tuned so t' t'') : Tuned so t t'' where
  state := h'.state.trans h.state
  adv := by
    have := h.adv
    have := h'.adv
    omega

theorem tuned_persist (so : Socket) (t : Tcp) (persist : Bool) :
    Tuned so t { t with persist := persist } := ⟨rfl, Int.le_max_left _ _⟩

theorem tuned_computeWindow (so : Socket) (t : Tcp) :
    Tuned so t (tcpComputeWindowIncr so t) := by
  unfold tcpComputeWindowIncr
  dsimp only
  split
  · exact .refl so t
  · split
    · exact .refl so t
    · exact ⟨rfl, by dsimp only; omega⟩

theorem tuned_build (mem : Mem) (so : Socket) (t : Tcp) (len : Nat) :
    Tuned so t (tcpBuild mem so t len) := by
  have hwin := tuned_computeWindow so t
  unfold tcpBuild
  dsimp only
  split
  · exact .refl so t
  · split
    · exact .refl so t
    · split
      · exact hwin
      · exact ⟨hwin.state, hwin.adv⟩

theorem tuned_segmentStart (mem : Mem) (so : Socket) (t : Tcp) (timeout : Bool) :
    Tuned so t (tcpSegmentStart mem so t timeout) := by
  have hset : Tuned so t (if timeout then { t with flight := 0, sentFin := false } else t) := by
    split <;> exact ⟨rfl, Int.le_max_left _ _⟩
  refine hset.trans ?_
  unfold tcpSegmentStart
  generalize (if timeout then { t with flight := 0, sentFin := false } else t) = u
  dsimp only
  split
  · split
    · exact (tuned_persist so u false).trans (tuned_build mem so _ 0)
    · exact .refl so u
  · split
    · split
      · exact tuned_build mem so u 1
      · exact ⟨rfl, Int.le_max_left _ _⟩
    · exact (tuned_persist so u false).trans (tuned_build mem so _ _)

theorem tuned_ackBuffer (mem : Mem) (so : Socket) (t : Tcp) (n : Nat) :
    Tuned so t (tcpAckBuffer mem so t n) := by
  unfold tcpAckBuffer
  split
  · have hwin := tuned_computeWindow so { t with adv := t.adv - n }
    have hadv := hwin.adv
    dsimp only at hadv
    exact ⟨hwin.state, by omega⟩
  · exact .refl so t

/-- Bytes acknowledged leave the window offered, when there is memory to say so. -/
theorem adv_ackBuffer (mem : Mem) (so : Socket) (t : Tcp) (n : Nat) (h : mem.ack = true) :
    (tcpAckBuffer mem so t n).adv ≤ max (t.adv - n) (max so.rcvq.space 0) := by
  unfold tcpAckBuffer
  rw [if_pos h]
  exact (tuned_computeWindow so _).adv

/-! ## The functions, move by move -/

/-- The session is stored with silent changes. -/
theorem moves_store {so : Socket} {t t' : Tcp} (hs : so.session = some t)
    (hstate : Silent t.state t'.state)
    (hadv : sound → t'.adv ≤ max t.adv (max so.rcvq.space 0)) :
    Moves mem allowed sound so { so with session := some t' } :=
  .single (.tune so.carried hs hstate hadv)

theorem moves_tuned {so : Socket} {t t' : Tcp} (hs : so.session = some t)
    (h : Tuned so t t') : Moves mem allowed sound so { so with session := some t' } :=
  moves_store hs (h.state ▸ .same _) fun _ => h.adv

/-- A session not stored yet is not read when the session is deleted. -/
theorem delete_session (so : Socket) (x : Option Tcp) (reason : Option SocketEvent) :
    tcpSessionDeleteWithError mem { so with session := x } reason =
      tcpSessionDeleteWithError mem so reason := by
  unfold tcpSessionDeleteWithError tcpSessionPtrFree socketConnectionAbandoned
    socketEventPush
  dsimp only
  split
  · rfl
  · cases reason with
    | none => rfl
    | some ev => dsimp only; split <;> rfl

theorem push_store (so : Socket) (msg : SocketMsg) (x : Option Tcp) :
    { socketEventPush mem so msg with session := x } =
      socketEventPush mem { so with session := x } msg := by
  unfold socketEventPush
  dsimp only
  split <;> rfl

/-- The session of the socket is the one given, but for its bookkeeping. -/
structure Holds (so : Socket) (t : Tcp) : Prop where
  stored : ∃ u, so.session = some u ∧ Tuned so u t

theorem Holds.of {so : Socket} {t : Tcp} (h : so.session = some t) : Holds so t :=
  ⟨t, h, .refl so t⟩

theorem Holds.tuned {so : Socket} {t t' : Tcp} (h : Holds so t) (ht : Tuned so t t') :
    Moves mem allowed sound so { so with session := some t' } := by
  obtain ⟨u, hu, hut⟩ := h.stored
  exact moves_tuned hu (hut.trans ht)

/-- Moves after which the session is in the state it was in. -/
structure Continues (mem : Mem) (allowed : Option SocketEvent → Prop) (sound : Prop)
    (so : Socket) (t : Tcp) (so' : Socket) : Prop where
  moves : Moves mem allowed sound so so'
  session : ∃ u, so'.session = some u ∧ u.state = t.state
  rcvq : so'.rcvq = so.rcvq

theorem Continues.of_state {so so' : Socket} {t t' : Tcp}
    (h : Continues mem allowed sound so t' so') (hstate : t'.state = t.state) :
    Continues mem allowed sound so t so' := by
  obtain ⟨u, hu, hut⟩ := h.session
  exact ⟨h.moves, ⟨u, hu, hut.trans hstate⟩, h.rcvq⟩

theorem Holds.continues {so : Socket} {t t' : Tcp} (h : Holds so t) (ht : Tuned so t t') :
    Continues mem allowed sound so t { so with session := some t' } :=
  ⟨h.tuned ht, ⟨t', rfl, ht.state⟩, rfl⟩

/-- A segment is sent again, and it is not the last time. -/
theorem continues_resend {so : Socket} {t : Tcp} (h : Holds so t)
    (hlimit : t.retry < retryLimit t.state) :
    Continues mem allowed sound so t (tcpResendSegment mem so t) := by
  unfold tcpResendSegment
  rw [if_neg (Nat.not_le_of_lt hlimit)]
  by_cases hproblem : t.retry + 1 = tcpProblemRetries
  · simp only [hproblem, if_true]
    obtain ⟨u, hu, hut⟩ := h.stored
    have hpush : (socketEventPush mem so (.event .connectionProblem 0)).rcvq = so.rcvq :=
      push_rcvq so _
    have hstored : Holds (socketEventPush mem so (.event .connectionProblem 0))
        { t with retry := tcpProblemRetries } :=
      ⟨u, by rw [push_session, hu], hut.state, by rw [hpush]; exact hut.adv⟩
    have hcont : Continues mem allowed sound _ _ _ := hstored.continues
      (tuned_segmentStart mem (socketEventPush mem so (.event .connectionProblem 0)) _ true)
    exact ⟨.trans (.single (.problem so)) hcont.moves, hcont.session, hcont.rcvq.trans hpush⟩
  · simp only [hproblem, if_false]
    have htuned := tuned_segmentStart mem so { t with retry := t.retry + 1 } true
    exact h.continues ⟨htuned.state, htuned.adv⟩

theorem moves_resend {so : Socket} {t : Tcp} (h : Holds so t)
    (hend : t.retry ≥ retryLimit t.state → allowed (some .txFail)) :
    Moves mem allowed sound so (tcpResendSegment mem so t) := by
  by_cases htired : t.retry ≥ retryLimit t.state
  · obtain ⟨u, hu, -⟩ := h.stored
    unfold tcpResendSegment
    rw [if_pos htired]
    exact .single (.delete _ hu (hend htired))
  · exact (continues_resend h (Nat.lt_of_not_le htired)).moves

theorem continues_ackSegment {so : Socket} {t : Tcp} (h : Holds so t) (ack : Nat) :
    Continues mem allowed sound so t (tcpAckSegment mem so t ack) := by
  obtain ⟨u, hu, hut⟩ := h.stored
  have hmove : Move mem allowed sound so _ := .acked (min ack so.sndq.dataBytes) hu
  rw [← hut.state] at hmove
  unfold tcpAckSegment
  dsimp only
  generalize hso' : (if t.state.synchronized then
      socketEventPush mem { so with sndq := so.sndq.drop (min ack so.sndq.dataBytes) }
        (.event .txDone (so.sndq.drop (min ack so.sndq.dataBytes)).dataBytes)
    else { so with sndq := so.sndq.drop (min ack so.sndq.dataBytes) }) = so' at hmove ⊢
  have hrcvq : so'.rcvq = so.rcvq := by
    rw [← hso']
    split
    · rw [push_rcvq]
    · rfl
  have hsession : so'.session = some u := by
    rw [← hso', ← hu]
    split
    · rw [push_session]
    · rfl
  have hstored : Holds so' t := ⟨u, hsession, hut.state, by rw [hrcvq]; exact hut.adv⟩
  have hfinish : ∀ t', Tuned so' t t' →
      Continues mem allowed sound so t { so' with session := some t' } := by
    intro t' ht'
    exact ⟨.trans (.single hmove) (hstored.tuned ht'), ⟨t', rfl, ht'.state⟩, hrcvq⟩
  split
  · split
    · have htuned := tuned_segmentStart mem so'
        { t with flight := t.flight - ack, retry := 0 } false
      exact hfinish _ ⟨htuned.state, htuned.adv⟩
    · exact hfinish _ ⟨rfl, Int.le_max_left _ _⟩
  · exact hfinish _ ⟨rfl, Int.le_max_left _ _⟩

/-! ### Text and FIN -/

theorem fin_rcvq (so : Socket) (t : Tcp) : (tcpFin mem so t).1.rcvq = so.rcvq := by
  unfold tcpFin socketCantRecvMore
  split <;> simp only [push_rcvq]

theorem fin_setAdv (so : Socket) (t : Tcp) (a : Int) :
    tcpFin mem so { t with adv := a } =
      ((tcpFin mem so t).1, { (tcpFin mem so t).2 with adv := a }) := by
  unfold tcpFin
  dsimp only
  split <;> rfl

theorem fin_adv (so : Socket) (t : Tcp) : (tcpFin mem so t).2.adv = t.adv := by
  unfold tcpFin
  split <;> rfl

theorem fin_session (so : Socket) (x y : Option Tcp) (t : Tcp) :
    { (tcpFin mem { so with session := x } t).1 with session := y } =
      { (tcpFin mem so t).1 with session := y } := by
  unfold tcpFin socketCantRecvMore
  split <;> simp only [push_store]

theorem fin_session_snd (so : Socket) (x : Option Tcp) (t : Tcp) :
    (tcpFin mem { so with session := x } t).2 = (tcpFin mem so t).2 := by
  unfold tcpFin
  split <;> rfl

theorem ackBuffer_rcvq {so so' : Socket} (h : so'.rcvq = so.rcvq) (t : Tcp) (n : Nat) :
    tcpAckBuffer mem so' t n = tcpAckBuffer mem so t n := by
  unfold tcpAckBuffer tcpComputeWindowIncr
  rw [h]

theorem take_session (so : Socket) (x : Option Tcp) (t : Tcp) (segLen : Nat) (fin : Bool) :
    tcpTake mem { so with session := x } t segLen fin = tcpTake mem so t segLen fin := by
  unfold tcpTake
  cases fin with
  | false => rfl
  | true =>
      have hrcvq : (tcpFin mem { so with session := x } t).1.rcvq = (tcpFin mem so t).1.rcvq := by
        rw [fin_rcvq, fin_rcvq]
      simp only [if_true]
      rw [fin_session_snd, ackBuffer_rcvq hrcvq, fin_session]

/-- The event of data taken, where there is one. -/
def takeEvents (mem : Mem) (so : Socket) (push : Bool) (buf : Buffer) : List SocketMsg :=
  if (push || decide ((so.rcvq.appendAndCompress buf).space ≤
      (((so.rcvq.appendAndCompress buf).dataByteLimit / 2 : Nat) : Int))) && mem.dataQueued
  then [.dataQueued] else []

theorem takeData_eq (so : Socket) (push : Bool) (buf : Buffer) :
    tcpTakeData mem so push buf =
      { so with
        rcvq := so.rcvq.appendAndCompress buf
        events := so.events ++ takeEvents mem so push buf } := by
  unfold tcpTakeData takeEvents
  dsimp only
  generalize (push || _ : Bool) = tell
  cases tell <;> cases hm : mem.dataQueued <;> simp [socketEventPush, Mem.keeps, hm]

theorem takeData_store (so : Socket) (x : Option Tcp) (push : Bool) (buf : Buffer) :
    tcpTakeData mem { so with session := x } push buf =
      { tcpTakeData mem so push buf with session := x } := by
  unfold tcpTakeData
  dsimp only
  split
  · rw [push_store]
  · rfl

theorem text_session (so : Socket) (x : Option Tcp) (t : Tcp) (seg : Segment) (segLen : Nat)
    (inOrder fin : Bool) (buf : Buffer) :
    tcpText mem { so with session := x } t seg segLen inOrder fin buf =
      tcpText mem so t seg segLen inOrder fin buf := by
  have hack : tcpAckBuffer mem { so with session := x } t 0 = tcpAckBuffer mem so t 0 :=
    ackBuffer_rcvq rfl t 0
  unfold tcpText
  rw [delete_session, takeData_store, take_session (tcpTakeData mem so (fin || seg.psh) buf),
    take_session so, hack]

/-- The end of `tcp_up`.  `a` is the window left when the data was taken. -/
theorem moves_take {so : Socket} {t : Tcp} {segLen : Nat} {fin : Bool} (a : Int)
    (hs : so.session = some { t with adv := a })
    (hadv : sound → ∀ u : Tcp, u.adv = t.adv →
      (if segLen > 0 then tcpAckBuffer mem so u segLen else u).adv ≤
        max a (max so.rcvq.space 0)) :
    Moves mem allowed sound so (tcpTake mem so t segLen fin) := by
  unfold tcpTake
  cases fin with
  | false =>
      simp only [Bool.false_eq_true, if_false]
      refine moves_store hs ?_ fun h => hadv h t rfl
      split
      · rw [(tuned_ackBuffer mem so t segLen).state]
        exact .same _
      · exact .same _
  | true =>
      have hfin : Move mem allowed sound so _ := .fin hs
      rw [fin_setAdv] at hfin
      simp only [if_true]
      refine .trans (.single hfin) (moves_store rfl ?_ ?_)
      · split
        · rw [(tuned_ackBuffer mem _ _ segLen).state]
          exact .same _
        · exact .same _
      · intro h
        have hbound := hadv h (tcpFin mem so t).2 (fin_adv so t)
        rw [ackBuffer_rcvq (fin_rcvq so t)]
        simpa only [fin_rcvq] using hbound

/-- The text of a segment which fits into the receive queue. -/
theorem moves_text {so : Socket} {t : Tcp} {seg : Segment} {segLen : Nat}
    {inOrder fin : Bool} {buf : Buffer} (h : Holds so t) (hlen : buf.length ≤ segLen)
    (hreset : allowed (some .connectionReset))
    (hack : sound → buf.length ≠ 0 → mem.ack = true)
    (hfit : sound → inOrder = true → so.rcvq.dataBytes + buf.length ≤ so.rcvq.dataByteLimit) :
    Moves mem allowed sound so (tcpText mem so t seg segLen inOrder fin buf) := by
  -- first the session is stored, so that every move finds it
  refine .trans (h.tuned (.refl so t)) ?_
  rw [← text_session so (some t)]
  generalize hso' : ({ so with session := some t } : Socket) = so'
  have hs : so'.session = some t := by rw [← hso']
  have hrcvq : so'.rcvq = so.rcvq := by rw [← hso']
  rw [← hrcvq] at hfit
  clear hso' hrcvq h
  have hplain : Moves mem allowed sound so' (tcpTake mem so' t segLen fin) := by
    refine moves_take t.adv hs fun _ u hu => ?_
    split
    · have := (tuned_ackBuffer mem so' u segLen).adv
      omega
    · omega
  unfold tcpText
  split
  · exact moves_tuned hs (tuned_ackBuffer mem so' t 0)
  · rename_i hgap
    split
    · rename_i hdata
      have hpos : segLen > 0 := Nat.lt_of_lt_of_le (Nat.pos_of_ne_zero hdata.1) hlen
      have horder : inOrder = true := by
        cases inOrder with
        | false => exact absurd ⟨hpos, rfl⟩ hgap
        | true => rfl
      split
      · exact .single (.delete _ hs hreset)
      · refine .trans (.single (.take (fin || seg.psh) hs hdata.2 hdata.1
          fun hsound => hfit hsound horder)) ?_
        rw [← take_session _ (some { t with adv := t.adv - buf.length })]
        refine moves_take (t.adv - buf.length) rfl fun hsound u hu => ?_
        rw [if_pos hpos]
        have := adv_ackBuffer mem
          { tcpTakeData mem so' (fin || seg.psh) buf with
            session := some { t with adv := t.adv - buf.length } } u segLen
          (hack hsound hdata.1)
        omega
    · exact hplain

/-! ### The acknowledgement -/

theorem segmentStart_session (so : Socket) (x : Option Tcp) (t : Tcp) (timeout : Bool) :
    tcpSegmentStart mem { so with session := x } t timeout =
      tcpSegmentStart mem so t timeout := rfl

theorem segmentStart_push (so : Socket) (msg : SocketMsg) (t : Tcp) (timeout : Bool) :
    tcpSegmentStart mem (socketEventPush mem so msg) t timeout =
      tcpSegmentStart mem so t timeout := by
  unfold socketEventPush
  split <;> rfl

theorem resend_session (so : Socket) (x : Option Tcp) (t : Tcp) :
    tcpResendSegment mem { so with session := x } t = tcpResendSegment mem so t := by
  unfold tcpResendSegment
  rw [delete_session]
  by_cases hproblem : t.retry + 1 = tcpProblemRetries
  · simp only [hproblem, if_true, segmentStart_push, segmentStart_session, push_store]
  · simp only [hproblem, if_false, segmentStart_session]

theorem ackSegment_session (so : Socket) (x : Option Tcp) (t : Tcp) (ack : Nat) :
    tcpAckSegment mem { so with session := x } t ack = tcpAckSegment mem so t ack := by
  unfold tcpAckSegment
  dsimp only
  cases t.state.synchronized with
  | false => rfl
  | true => simp only [if_true, segmentStart_push, push_store]; rfl

theorem acked_session (so : Socket) (x : Option Tcp) (t : Tcp) (seg : Segment) (ack : Nat) :
    tcpAcked mem { so with session := x } t seg ack = tcpAcked mem so t seg ack := by
  unfold tcpAcked
  dsimp only
  rw [ackSegment_session, resend_session]

theorem upAck_session (so : Socket) (x : Option Tcp) (t : Tcp) (seg : Segment) (ack : Int)
    (segLen : Nat) (fin : Bool) (buf : Buffer) :
    tcpUpAck mem { so with session := x } t seg ack segLen fin buf =
      tcpUpAck mem so t seg ack segLen fin buf := by
  have hack : tcpAckBuffer mem { so with session := x } t 0 = tcpAckBuffer mem so t 0 :=
    ackBuffer_rcvq rfl t 0
  unfold tcpUpAck
  rw [text_session, acked_session, hack]

theorem retryLimit_pos (st : TcpState) : 0 < retryLimit st := by
  unfold retryLimit tcpMaxRetries tcpSynRetries
  split <;> decide

theorem continues_acked {so : Socket} {t : Tcp} (seg : Segment) (h : Holds so t) (ack : Nat) :
    Continues mem allowed sound so t (tcpAcked mem so t seg ack) := by
  unfold tcpAcked
  dsimp only
  generalize ht' : (if seg.fresh then
      { t with
        sendWindow := seg.window
        persist := t.persist || decide (seg.window = 0 ∧ ack ≠ t.flight) }
    else t) = t'
  have htuned : Tuned so t t' := by
    rw [← ht']
    split <;> exact ⟨rfl, Int.le_max_left _ _⟩
  have hstored : Holds so t' := by
    obtain ⟨u, hu, hut⟩ := h.stored
    exact ⟨u, hu, hut.trans htuned⟩
  split
  · exact (continues_ackSegment hstored ack).of_state htuned.state
  · split
    · split
      · have hrestart : Holds so { t' with retry := 0, persist := false } := by
          obtain ⟨u, hu, hut⟩ := hstored.stored
          exact ⟨u, hu, hut.state, hut.adv⟩
        exact (continues_resend hrestart (retryLimit_pos _)).of_state htuned.state
      · have htuned' : Tuned so t' { t' with retry := 0 } := ⟨rfl, Int.le_max_left _ _⟩
        exact (hstored.continues htuned').of_state htuned.state
    · exact (hstored.continues (.refl so t')).of_state htuned.state

theorem silent_finAcked (t : Tcp) : Silent t.state (tcpFinAcked t).1.state := by
  unfold tcpFinAcked
  split
  · split
    · rename_i hstate
      rw [hstate]
      exact .finAcked
    · rename_i hstate
      rw [hstate]
      exact .closingAcked
    · exact .same _
    · exact .same _
  · exact .same _

theorem adv_finAcked (t : Tcp) : (tcpFinAcked t).1.adv = t.adv := by
  unfold tcpFinAcked
  split
  · split <;> rfl
  · rfl

/-- What the segment brings fits into the receive queue when it is in order. -/
def Fits (so : Socket) (seg : Segment) (buf : Buffer) : Prop :=
  seg.offset = 0 → so.rcvq.dataBytes + buf.length ≤ so.rcvq.dataByteLimit

theorem moves_upAck {so : Socket} {t : Tcp} {seg : Segment} {ack : Int} {segLen : Nat}
    {fin : Bool} {buf : Buffer} (h : Holds so t) (hlen : buf.length ≤ segLen)
    (hreset : allowed (some .connectionReset))
    (hack : sound → buf.length ≠ 0 → mem.ack = true) (hfit : sound → Fits so seg buf) :
    Moves mem allowed sound so (tcpUpAck mem so t seg ack segLen fin buf) := by
  unfold tcpUpAck
  split
  · exact moves_text h hlen hreset hack fun hsound horder => hfit hsound (by simpa using horder)
  · split
    · exact h.tuned (tuned_ackBuffer mem so t 0)
    · have hacked : Continues mem allowed sound so t (tcpAcked mem so t seg ack.toNat) :=
        continues_acked seg h ack.toNat
      generalize tcpAcked mem so t seg ack.toNat = so' at hacked ⊢
      obtain ⟨u, hu, -⟩ := hacked.session
      refine .trans hacked.moves ?_
      dsimp only
      rw [hu]
      dsimp only
      split
      · exact .single (.finished hu)
      · have hadv : sound → (tcpFinAcked u).1.adv ≤ max u.adv (max so'.rcvq.space 0) := by
          intro _
          rw [adv_finAcked]
          exact Int.le_max_left _ _
        refine .trans (moves_store hu (silent_finAcked u) hadv) ?_
        rw [← text_session so' (some (tcpFinAcked u).1)]
        refine moves_text (.of rfl) hlen hreset hack fun hsound horder => ?_
        have hfits := hfit hsound (by simpa using horder)
        rwa [← hacked.rcvq] at hfits

/-! ### A segment -/

/-- The errors with which a segment ends the session. -/
def segmentEnds (t : Tcp) (seg : Segment) : Option SocketEvent → Prop
  | some .connectionReset => True
  | some .connectFail => t.state.hasSyn = true
  | none => seg.rst = true ∧ (t.state = .closing ∨ t.state = .lastAck)
  | _ => False

theorem moves_upInWindow {so : Socket} {t : Tcp} {seg : Segment} {segLen : Nat} {fin : Bool}
    {buf : Buffer} (hs : so.session = some t) (hlen : buf.length ≤ segLen)
    (hack : sound → buf.length ≠ 0 → mem.ack = true) (hfit : sound → Fits so seg buf) :
    Moves mem (segmentEnds t seg) sound so (tcpUpInWindow mem so t seg segLen fin buf) := by
  have hreset : segmentEnds t seg (some .connectionReset) := trivial
  unfold tcpUpInWindow
  split
  · rename_i hrst
    split
    · rename_i hstate
      exact .single (.delete _ hs (by simp [segmentEnds, hstate, TcpState.hasSyn]))
    · exact .single (.delete _ hs hreset)
    · exact .single (.delete _ hs hreset)
    · exact .single (.delete _ hs hreset)
    · exact .single (.delete _ hs hreset)
    · rename_i hstate
      exact .single (.delete _ hs ⟨hrst, .inl hstate⟩)
    · rename_i hstate
      exact .single (.delete _ hs ⟨hrst, .inr hstate⟩)
    · exact .refl
  · split
    · exact .single (.delete _ hs hreset)
    · split
      · exact .refl
      · rename_i ack _
        split
        · rename_i hstate
          split
          · have hmove : Move mem (segmentEnds t seg) sound so
                { socketConnectionComplete mem so with
                  session := some { t with state := .established, sendWindow := seg.window } } :=
              .complete hs (by simp [hstate, TcpState.hasSyn]) rfl fun _ => Int.le_max_left _ _
            refine .trans (.single hmove) ?_
            rw [← upAck_session _
              (some { t with state := .established, sendWindow := seg.window })]
            refine moves_upAck (.of rfl) hlen hreset hack fun hsound => ?_
            have hrcvq : (socketConnectionComplete mem so).rcvq = so.rcvq := by
              unfold socketConnectionComplete
              split
              · rfl
              · rw [push_rcvq]
            unfold Fits
            rw [hrcvq]
            exact hfit hsound
          · exact .refl
        · exact moves_upAck (.of hs) hlen hreset hack hfit

/-- What a bound on the receive queue rests on: the window offered leaves no more
than there is room for, what is received can be taken out of it, and a SYN brings
no more data than there is room for. -/
structure Sound (mem : Mem) (so : Socket) (t : Tcp) (seg : Segment) : Prop where
  ack : seg.buf.length ≠ 0 → mem.ack = true
  room : so.rcvq.dataBytes ≤ so.rcvq.dataByteLimit
  window : (so.rcvq.dataBytes : Int) + t.adv ≤ so.rcvq.dataByteLimit
  syn : t.state = .synSent → so.rcvq.dataBytes + seg.buf.length ≤ so.rcvq.dataByteLimit

theorem Sound.fits {so : Socket} {t : Tcp} {seg : Segment} {len : Nat}
    (h : Sound mem so t seg) (hlen : (len : Int) ≤ max (max so.rcvq.space 0) t.adv) :
    so.rcvq.dataBytes + len ≤ so.rcvq.dataByteLimit := by
  have := so.rcvq.space_le
  have := h.room
  have := h.window
  omega

theorem moves_upWindow {so : Socket} {t : Tcp} {seg : Segment} (hs : so.session = some t) :
    Moves mem (segmentEnds t seg) (Sound mem so t seg) so (tcpUpWindow mem so t seg) := by
  unfold tcpUpWindow
  dsimp only
  generalize hok : (if max (max so.rcvq.space 0) t.adv = 0 then _ else _ : Bool) = ok
  split
  · exact moves_tuned hs (tuned_ackBuffer mem so t 0)
  · split
    · refine moves_upInWindow hs (Nat.le_add_right _ _) (fun h hne => h.ack ?_) fun h horder =>
        h.fits ?_
      · intro hzero
        simp [hzero] at hne
      · rw [Buffer.length_truncate]
        omega
    · rename_i hshort
      refine moves_upInWindow hs (by omega) (fun h => h.ack) fun h horder => h.fits ?_
      omega

theorem moves_upSynSent {so : Socket} {t : Tcp} {seg : Segment} (hs : so.session = some t)
    (hstate : t.state = .synSent) :
    Moves mem (segmentEnds t seg) (Sound mem so t seg) so (tcpUpSynSent mem so t seg) := by
  unfold tcpUpSynSent
  split
  · exact .refl
  · split
    · split
      · exact .single (.delete _ hs (by simp [segmentEnds, hstate, TcpState.hasSyn]))
      · exact .refl
    · split
      · dsimp only
        split
        · obtain ⟨t', ht'⟩ : ∃ t' : Tcp,
              t' = { t with adv := 0, sendMss := tcpRethinkMss seg.mss } := ⟨_, rfl⟩
          have hstate' : t'.state = .synSent := by rw [ht']; exact hstate
          have hadv : t'.adv = 0 := by rw [ht']
          have hflight : t.flight = t'.flight := by rw [ht']
          rw [← ht', hflight]
          have hstored : Moves mem (segmentEnds t seg) (Sound mem so t seg) so
              { so with session := some t' } :=
            moves_store hs (by rw [hstate, hstate']; exact .same _) fun _ => by omega
          have hacked : Continues mem (segmentEnds t seg) (Sound mem so t seg)
              { so with session := some t' } t'
              (tcpAckSegment mem { so with session := some t' } t' t'.flight) :=
            continues_ackSegment (.of rfl) t'.flight
          rw [ackSegment_session] at hacked
          generalize tcpAckSegment mem so t' t'.flight = so' at hacked ⊢
          obtain ⟨u, hu, hustate⟩ := hacked.session
          refine .trans hstored (.trans hacked.moves ?_)
          rw [hu]
          dsimp only
          have hmove : Move mem (segmentEnds t seg) (Sound mem so t seg) so'
              { socketConnectionComplete mem so' with
                session := some { u with state := .established, sendWindow := seg.window } } :=
            .complete hu (by rw [hustate, hstate']; rfl) rfl fun _ => Int.le_max_left _ _
          refine .trans (.single hmove) ?_
          rw [← text_session _
            (some { u with state := .established, sendWindow := seg.window })]
          refine moves_text (.of rfl) (by omega) trivial (fun h => h.ack) fun h _ => ?_
          have hrcvq : (socketConnectionComplete mem so').rcvq = so'.rcvq := by
            unfold socketConnectionComplete
            split
            · rfl
            · rw [push_rcvq]
          dsimp only
          rw [hrcvq, hacked.rcvq]
          exact h.syn hstate
        · split
          · have htuned := tuned_build mem so
              { t with state := .synReceived, adv := 0 - 1, sendMss := tcpRethinkMss seg.mss } 0
            refine .single (.tune _ hs ?_ fun _ => ?_)
            · rw [hstate, htuned.state]
              exact .synReceived
            · have := htuned.adv
              dsimp only at this
              omega
          · refine moves_store hs ?_ fun _ => by dsimp only; omega
            rw [hstate]
            exact .synReceived
      · exact moves_upWindow hs

/-- **A segment.** -/
theorem moves_up {so : Socket} {t : Tcp} {seg : Segment} (hs : so.session = some t) :
    Moves mem (segmentEnds t seg) (Sound mem so t seg) so (tcpUp mem so t seg) := by
  unfold tcpUp
  split
  · split
    · exact .refl
    · exact .single (.delete _ hs trivial)
  · split
    · rename_i hstate
      exact moves_upSynSent hs hstate
    · split
      · exact .refl
      · exact moves_upWindow hs

/-! ### The timer and the application -/

/-- The errors with which the timer ends the session. -/
def timerEnds (t : Tcp) : Option SocketEvent → Prop
  | some .txFail => t.retry ≥ retryLimit t.state
  | none => t.state = .timeWait
  | _ => False

/-- **The timer.** -/
theorem moves_timer {so : Socket} {t : Tcp} (hs : so.session = some t) :
    Moves mem (timerEnds t) True so (tcpHandleTimeEvent mem so t) := by
  unfold tcpHandleTimeEvent
  split
  · exact .refl
  · rename_i hstate
    exact .single (.delete _ hs hstate)
  · split
    · exact moves_resend (.of hs) id
    · exact .refl

/-- A shutdown deletes the session without a word: it was not connected, or the peer has
closed its side and there is data nobody has read. -/
def quietShutdown (so : Socket) (t : Tcp) : Prop :=
  t.state = .listen ∨ t.state = .synSent ∨
    so.rcvq.dataBytes ≠ 0 ∧ (t.state = .closeWait ∨ t.state = .lastAck ∨
      t.state = .closing ∨ t.state = .timeWait)

/-- The errors with which a shutdown ends the session. -/
def shutdownEnds (so : Socket) (t : Tcp) : Option SocketEvent → Prop
  | some .connectionReset => True
  | none => quietShutdown so t
  | _ => False

/-- Moves after which the session, if there is one, is on its way to the end. -/
structure Closes (mem : Mem) (so : Socket) (t : Tcp) (so' : Socket) : Prop where
  moves : Moves mem (shutdownEnds so t) True so so'
  session : ∀ u, so'.session = some u → u.state = t.state ∨ u.state = .finWait1 ∨
    t.state = .closeWait ∧ u.state = .lastAck
  rcvq : so'.rcvq = so.rcvq

theorem Closes.refl {so : Socket} {t : Tcp} (hs : so.session = some t) :
    Closes mem so t so := by
  refine ⟨.refl, fun u hu => .inl ?_, rfl⟩
  rw [hs] at hu
  cases hu
  rfl

theorem closes_delete {so : Socket} {t : Tcp} {reason : Option SocketEvent}
    (hs : so.session = some t) (hend : shutdownEnds so t reason) :
    Closes mem so t (tcpSessionDeleteWithError mem so reason) :=
  ⟨.single (.delete _ hs hend), (fun _ hu => by cases hu), delete_rcvq so reason⟩

/-- The session is closed from this side. -/
theorem closes_silent {so : Socket} {t : Tcp} {st : TcpState} (hs : so.session = some t)
    (hsilent : Silent t.state st) (hst : st = .finWait1 ∨ t.state = .closeWait ∧ st = .lastAck) :
    Closes mem so t
      { so with
        session := some (if t.busy then { t with state := st }
          else tcpSegmentStart mem so { t with state := st, busy := true } false) } := by
  have htuned := tuned_segmentStart mem so { t with state := st, busy := true } false
  have hstate : (if t.busy then { t with state := st }
      else tcpSegmentStart mem so { t with state := st, busy := true } false).state = st := by
    split
    · rfl
    · exact htuned.state
  refine ⟨moves_store hs (by rw [hstate]; exact hsilent) fun _ => ?_, fun u hu => .inr ?_, rfl⟩
  · split
    · exact Int.le_max_left _ _
    · exact htuned.adv
  · cases hu
    rw [hstate]
    exact hst

theorem closes_close {so : Socket} {t : Tcp} (hs : so.session = some t) :
    Closes mem so t (tcpSessionClose mem so t).1 := by
  unfold tcpSessionClose
  cases hstate : t.state with
  | listen => exact closes_delete hs (.inl hstate)
  | synSent => exact closes_delete hs (.inr (.inl hstate))
  | synReceived => exact closes_silent hs (by rw [hstate]; exact .close (.inl rfl)) (.inl rfl)
  | established => exact closes_silent hs (by rw [hstate]; exact .close (.inr rfl)) (.inl rfl)
  | closeWait => exact closes_silent hs (by rw [hstate]; exact .lastAck) (.inr ⟨hstate, rfl⟩)
  | closed | finWait1 | finWait2 | lastAck | closing | timeWait => exact .refl hs

theorem moves_shutdownRead {so so' : Socket} {t u : Tcp} (h : Closes mem so t so')
    (hu : so'.session = some u) :
    Moves mem (shutdownEnds so t) True so (tcpSessionShutdownRead mem so' u).1 := by
  unfold tcpSessionShutdownRead
  split
  · rename_i hunread
    have hquiet (hq : u.state = .lastAck ∨ u.state = .closing ∨ u.state = .timeWait) :
        shutdownEnds so t none := by
      have hstate := h.session u hu
      have hrcvq := h.rcvq
      unfold shutdownEnds quietShutdown
      grind
    refine .trans h.moves ?_
    unfold tcpSessionAbort
    dsimp only
    split
    · exact .refl
    · exact .single (.delete _ hu trivial)
    · exact .single (.delete _ hu trivial)
    · exact .single (.delete _ hu trivial)
    · exact .single (.delete _ hu trivial)
    · exact .single (.delete _ hu trivial)
    · exact .single (.delete _ hu trivial)
    · exact .single (.delete _ hu trivial)
    · rename_i hstate
      exact .single (.delete _ hu (hquiet (.inl hstate)))
    · rename_i hstate
      exact .single (.delete _ hu (hquiet (.inr (.inl hstate))))
    · rename_i hstate
      exact .single (.delete _ hu (hquiet (.inr (.inr hstate))))
  · exact h.moves

/-- **A shutdown.**  Nothing more is sent or received, then the session is closed,
and at last what was received is thrown away. -/
theorem moves_shutdown (mem : Mem) (so : Socket) :
    (socketShutdown mem so).2 = so ∨
      so.stream = true ∧ so.connected = true ∧
        ∃ so', Moves mem (fun reason => ∃ t, so.session = some t ∧ shutdownEnds so t reason) True
            { so with cantRecvMore := true, shutWr := true } so' ∧
          (socketShutdown mem so).2 = { so' with rcvq := so'.rcvq.flush } := by
  unfold socketShutdown
  by_cases hopen : (!so.stream || !so.connected) = true
  · rw [if_pos hopen]
    exact .inl rfl
  · rw [if_neg hopen]
    have hflags : so.stream = true ∧ so.connected = true := by simpa using hopen
    refine .inr ⟨hflags.1, hflags.2, _, ?_, rfl⟩
    cases hs : so.session with
    | none => exact .refl
    | some t =>
        have hcloses : Closes mem { so with cantRecvMore := true, shutWr := true } t
            (tcpSessionClose mem { so with cantRecvMore := true, shutWr := true } t).1 :=
          closes_close hs
        have hmono (reason : Option SocketEvent)
            (hend : shutdownEnds { so with cantRecvMore := true, shutWr := true } t reason) :
            ∃ u, some t = some u ∧ shutdownEnds so u reason := ⟨t, rfl, hend⟩
        rw [hs] at hcloses
        dsimp only
        cases hu : (tcpSessionClose mem
            { so with cantRecvMore := true, shutWr := true, session := some t } t).1.session with
        | none => exact hcloses.moves.mono hmono
        | some u => exact (moves_shutdownRead hcloses hu).mono hmono

/-- A successful send: nothing for no data, and otherwise the data is queued on an
open session. -/
theorem socketSend_cases {so so' : Socket} {header : Option Nat} {data : List UInt8}
    (h : socketSend mem so header data = .ok so') :
    so.connected = true ∧ (data = [] ∧ so' = so ∨
      data ≠ [] ∧ ∃ head t t', header = some head ∧ so.session = some t ∧
        (t.state = .established ∨ t.state = .closeWait) ∧ t'.state = t.state ∧
        t'.adv ≤ max t.adv (max so.rcvq.space 0) ∧
        so' = { so with
          sndq := so.sndq.appendAndCompress (.get head data)
          session := some t' }) := by
  unfold socketSend at h
  split at h
  · cases h
  · rename_i hopen
    have hconnected : so.connected = true := by
      simp only [Bool.not_eq_true, Bool.not_eq_false', Bool.and_eq_true] at hopen
      exact hopen.1
    refine ⟨hconnected, ?_⟩
    split at h
    · rename_i hempty
      cases h
      exact .inl ⟨List.length_eq_zero_iff.mp hempty, rfl⟩
    · rename_i hdata
      refine .inr ⟨fun hnil => hdata (by rw [hnil]; rfl), ?_⟩
      split at h
      · cases h
      · split at h
        · cases h
        · cases h
        · rename_i head t ht
          unfold tcpSessionSend at h
          dsimp only at h
          split at h
          · cases h
          · rename_i so₁ hsend
            cases h
            split at hsend
            · cases hsend
            · rename_i hstate
              have hstate : t.state = .established ∨ t.state = .closeWait := by grind
              split at hsend
              · cases hsend
                exact ⟨head, t, t, rfl, ht, hstate, rfl, Int.le_max_left _ _, rfl⟩
              · cases hsend
                have htuned := tuned_segmentStart mem
                  { so with sndq := so.sndq.appendAndCompress (.get head data) }
                  { t with retry := 0, busy := true } false
                exact ⟨head, t, _, rfl, ht, hstate, htuned.state, htuned.adv, rfl⟩

/-- A read takes data off the queue, and may move the window offered. -/
theorem socketRecv_cases {so so' : Socket} {len : Nat} {data : List UInt8}
    (h : socketRecv so len = some (data, so')) :
    data = (so.rcvq.copyToUser so.stream len).1 ∧
      so' = { so with
        rcvq := (so.rcvq.copyToUser so.stream len).2
        session := so'.session } ∧
      (so.session = none → so'.session = none) ∧
      ∀ t', so'.session = some t' → ∃ t, so.session = some t ∧ t'.state = t.state ∧
        t'.adv ≤ max t.adv (max so'.rcvq.space 0) := by
  unfold socketRecv at h
  split at h
  · cases h
  · cases h
    refine ⟨rfl, rfl, fun hnone => by simp [hnone], fun t' ht' => ?_⟩
    cases ht : so.session with
    | none => simp [ht] at ht'
    | some t =>
        simp only [ht, Option.map_some, Option.some.injEq] at ht'
        have htuned (p : Prop) [Decidable p] : Tuned
            { so with rcvq := (so.rcvq.copyToUser so.stream len).2 } t
            (if p then tcpComputeWindowIncr
                { so with rcvq := (so.rcvq.copyToUser so.stream len).2 } t
              else t) := by
          split
          · exact tuned_computeWindow _ t
          · exact .refl _ t
        rw [← ht']
        exact ⟨t, rfl, ht ▸ (htuned _).state, ht ▸ (htuned _).adv⟩

/-! ### Datagrams -/

/-- A datagram is dropped, or queued where there is room for it and announced. -/
theorem socketUp_cases (mem : Mem) (so : Socket) (limited : Bool) (buf : Buffer) :
    socketUp mem so limited buf = so ∨
      (buf.length : Int) ≤ so.rcvq.space ∧ socketUp mem so limited buf =
        { so with events := so.events ++ [.dataQueued], rcvq := so.rcvq.append buf } := by
  unfold socketUp
  split
  · exact .inl rfl
  · split
    · exact .inl rfl
    · rename_i hroom
      split
      · exact .inl rfl
      · exact .inr ⟨by omega, rfl⟩

theorem txBufferEvent_eq (so : Socket) (event : SocketEvent) (length : Nat) :
    socketTxBufferEvent mem so event length =
      { so with
        events := so.events ++ if mem.event event then [.event event length] else []
        carried := so.carried - 1 } := by
  cases hm : mem.event event <;> simp [socketTxBufferEvent, socketEventPush, Mem.keeps, hm]

end NsSocket
