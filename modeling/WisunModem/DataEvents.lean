import WisunModem.Runs
import WisunModem.Handlers

/-!
# Data events and the end of the stream

The stack pushes one event for each datagram, or each pushed segment, and fills
in the length of the receive queue when it delivers it.  The callback takes
length 0 for the end of the stream.  So an event must not outlive the data it
was pushed for, unless the peer has closed its side: reading, shutting down and
an empty datagram are the three ways in which it can.
-/

namespace NsSocket

/-- An event for queued data is on its way, and the peer has not closed its side. -/
def Socket.told (so : Socket) : Bool := so.events.contains .dataQueued && !so.finSeen

/-- A read of `len` bytes leaves no data behind. -/
def Socket.drains (so : Socket) (len : Nat) : Bool :=
  decide ((so.rcvq.copyToUser so.stream len).2.dataBytes = 0)

/-- Every event on its way will be delivered for what it was pushed for.  The last
three clauses bound what is queued by the size of the application's buffer. -/
structure Truthful (bound : Nat) (so : Socket) : Prop where
  queued : .dataQueued ∈ so.events → so.finSeen = true ∨ 0 < so.rcvq.dataBytes
  ended : ∀ length, .event .data length ∈ so.events → so.finSeen = true
  limit : so.rcvq.dataByteLimit = bound
  room : so.rcvq.dataBytes ≤ bound
  window : ∀ t, so.session = some t → (so.rcvq.dataBytes : Int) + t.adv ≤ bound

variable {mem : Mem} {allowed : Option SocketEvent → Prop} {sound : Prop} {bound : Nat}

/-- An event which may be pushed at any time: it is not about queued data, and one
about the end of the stream only once the peer has closed it. -/
def SocketMsg.harmless (finSeen : Bool) : SocketMsg → Prop
  | .dataQueued => False
  | .event .data _ => finSeen = true
  | .event _ _ => True

/-- The receive queue stays, and only harmless events are added. -/
theorem Truthful.extend {so so' : Socket} (h : Truthful bound so) (hrcvq : so'.rcvq = so.rcvq)
    (hfin : so.finSeen = true → so'.finSeen = true)
    (hevents : ∀ msg ∈ so'.events, msg ∈ so.events ∨ msg.harmless so'.finSeen)
    (hwindow : ∀ t, so'.session = some t → (so.rcvq.dataBytes : Int) + t.adv ≤ bound) :
    Truthful bound so' where
  queued hmem := by
    rw [hrcvq]
    refine (h.queued ((hevents _ hmem).resolve_right ?_)).imp_left hfin
    exact fun hharmless => hharmless
  ended length hmem := (hevents _ hmem).elim (fun hold => hfin (h.ended length hold)) id
  limit := by rw [hrcvq, h.limit]
  room := by rw [hrcvq]; exact h.room
  window := by rw [hrcvq]; exact hwindow

/-- The window offered never reaches beyond the room there is. -/
theorem Truthful.advance {so : Socket} {t t' : Tcp} (h : Truthful bound so)
    (hs : so.session = some t) (hadv : t'.adv ≤ max t.adv (max so.rcvq.space 0)) :
    (so.rcvq.dataBytes : Int) + t'.adv ≤ bound := by
  have := h.window t hs
  have := h.room
  have := so.rcvq.space_le
  have := h.limit
  omega

theorem push_harmless {so : Socket} {msg : SocketMsg} {b : Bool} (h : msg.harmless b) :
    ∀ m ∈ (socketEventPush mem so msg).events, m ∈ so.events ∨ m.harmless b := by
  intro m hm
  rw [push_events] at hm
  refine (List.mem_append.mp hm).imp_right fun hnew => ?_
  split at hnew
  · rw [List.mem_singleton.mp hnew]
    exact h
  · cases hnew

theorem delete_harmless {so : Socket} {reason : Option SocketEvent} {b : Bool}
    (h : reason ≠ some .data) :
    ∀ m ∈ (tcpSessionDeleteWithError mem so reason).events, m ∈ so.events ∨ m.harmless b := by
  intro m hm
  rw [delete_events] at hm
  refine (List.mem_append.mp hm).imp_right fun hnew => ?_
  unfold endEvent at hnew
  cases reason with
  | none => cases hnew
  | some ev =>
      dsimp only at hnew
      split at hnew
      · split at hnew
        · rw [List.mem_singleton.mp hnew]
          cases ev <;> trivial
        · cases hnew
      · cases hnew

/-- A FIN is announced by an event for the end of the stream, and remembered. -/
theorem fin_harmless (mem : Mem) (so : Socket) (t : Tcp) :
    (so.finSeen = true → (tcpFin mem so t).1.finSeen = true) ∧
      ∀ m ∈ (tcpFin mem so t).1.events,
        m ∈ so.events ∨ m.harmless (tcpFin mem so t).1.finSeen := by
  have hend : ∀ m ∈ (socketCantRecvMore mem { so with finSeen := true }).events,
      m ∈ so.events ∨ m.harmless true := push_harmless rfl
  have hfin : (socketCantRecvMore mem { so with finSeen := true }).finSeen = true := by
    simp [socketCantRecvMore]
  have hseen : ∀ m ∈ (socketCantRecvMore mem { so with finSeen := true }).events,
      m ∈ so.events ∨
        m.harmless (socketCantRecvMore mem { so with finSeen := true }).finSeen := by
    rw [hfin]
    exact hend
  unfold tcpFin
  split
  · exact ⟨fun _ => hfin, hseen⟩
  · exact ⟨fun _ => hfin, hseen⟩
  · exact ⟨fun _ => hfin, hseen⟩
  · refine ⟨fun _ => by simp [hfin], fun m hm => ?_⟩
    have hclosed : m ∈ (socketCantRecvMore mem { so with finSeen := true }).events ∨
        m.harmless true := push_harmless (by trivial) m hm
    rw [push_finSeen, hfin]
    exact hclosed.elim (hend m) .inr
  · exact ⟨id, fun m hm => .inl hm⟩

theorem truthful_take {so : Socket} {t : Tcp} {buf : Buffer} (push : Bool)
    (h : Truthful bound so) (hs : so.session = some t) (hne : buf.length ≠ 0)
    (hfit : so.rcvq.dataBytes + buf.length ≤ so.rcvq.dataByteLimit) :
    Truthful bound { tcpTakeData mem so push buf with
      session := some { t with adv := t.adv - buf.length } } := by
  have hbytes : (so.rcvq.appendAndCompress buf).dataBytes = so.rcvq.dataBytes + buf.length :=
    Sockbuf.dataBytes_appendAndCompress _ _
  rw [takeData_eq]
  refine ⟨fun _ => .inr ?_, fun length hmem => ?_, ?_, ?_, fun u hu => ?_⟩
  · dsimp only
    omega
  · refine h.ended length ((List.mem_append.mp hmem).resolve_right fun hnew => ?_)
    unfold takeEvents at hnew
    split at hnew <;> simp at hnew
  · rw [Sockbuf.limit_appendAndCompress, h.limit]
  · have := h.limit
    dsimp only
    omega
  · cases hu
    have := h.window t hs
    dsimp only
    omega

theorem truthful_move {so so' : Socket} (hno : ¬allowed (some .data)) (hsound : sound)
    (hso : Truthful bound so) (h : Move mem allowed sound so so') : Truthful bound so' := by
  cases h with
  | tune _ hs _ hadv =>
      refine hso.extend rfl id (fun _ hm => .inl hm) fun u hu => ?_
      cases hu
      exact hso.advance hs (hadv hsound)
  | acked len hs =>
      split
      · refine hso.extend (by simp) (by simp) (push_harmless (by trivial)) fun u hu => ?_
        exact hso.window u (by simpa using hu)
      · exact hso.extend rfl id (fun _ hm => .inl hm) hso.window
  | problem =>
      refine hso.extend (by simp) (by simp) (push_harmless (by trivial)) fun u hu => ?_
      exact hso.window u (by simpa using hu)
  | complete hs hsyn hstate hadv =>
      rename_i t t'
      have hwindow (u : Tcp) (hu : some t' = some u) :
          (so.rcvq.dataBytes : Int) + u.adv ≤ bound := by
        cases hu
        exact hso.advance hs (hadv hsound)
      unfold socketConnectionComplete
      split
      · exact hso.extend rfl id (fun _ hm => .inl hm) hwindow
      · exact hso.extend (by simp) (by simp) (push_harmless (by trivial)) hwindow
  | take push hs htakes hne hfit => exact truthful_take push hso hs hne (hfit hsound)
  | fin hs =>
      rename_i t
      obtain ⟨hfin, hevents⟩ := fin_harmless mem so t
      refine hso.extend (fin_rcvq so t) hfin hevents fun u hu => ?_
      cases hu
      rw [fin_adv]
      exact hso.window t hs
  | delete reason hs hallowed =>
      refine hso.extend (by simp) (by simp) (delete_harmless fun heq => hno (heq ▸ hallowed)) ?_
      exact fun u hu => nomatch hu
  | finished =>
      refine hso.extend (by simp) (by simp) (fun m hm => ?_) fun u hu => nomatch hu
      refine (delete_harmless (by simp) m hm).elim (fun hpushed => ?_) .inr
      exact push_harmless (by trivial) m hpushed

theorem finSeen_move {so so' : Socket} (h : Move mem allowed sound so so')
    (hfin : so.finSeen = true) : so'.finSeen = true := by
  cases h with
  | tune => exact hfin
  | acked => split <;> simpa using hfin
  | problem => simpa using hfin
  | complete =>
      unfold socketConnectionComplete
      split <;> simpa using hfin
  | take =>
      rw [takeData_eq]
      exact hfin
  | fin => exact (fin_harmless mem so _).1 hfin
  | delete => simpa using hfin
  | finished => simpa using hfin

/-- **The stack keeps the events truthful.** -/
theorem truthful_moves {so so' : Socket} (hno : ¬allowed (some .data)) (hsound : sound)
    (hso : Truthful bound so) (h : Moves mem allowed sound so so') :
    Truthful bound so' ∧ (so.finSeen = true → so'.finSeen = true) :=
  h.keep (fun s => Truthful bound s ∧ (so.finSeen = true → s.finSeen = true))
    (fun _ _ hs hmove =>
      ⟨truthful_move hno hsound hs.1 hmove, fun hfin => finSeen_move hmove (hs.2 hfin)⟩)
    ⟨hso, id⟩

/-! ## Calls of the application -/

theorem close_events (so : Socket) (t : Tcp) :
    (tcpSessionClose mem so t).1.events = so.events := by
  have hdelete : (tcpSessionDeleteWithError mem so none).events = so.events := by
    rw [delete_events]
    exact List.append_nil _
  unfold tcpSessionClose
  dsimp only
  split <;> first | rfl | exact hdelete

theorem shutdownRead_events {so : Socket} {t : Tcp} {m : SocketMsg}
    (h : m ∈ (tcpSessionShutdownRead mem so t).1.events) :
    m ∈ so.events ∨ m.harmless false := by
  unfold tcpSessionShutdownRead at h
  split at h
  · unfold tcpSessionAbort at h
    dsimp only at h
    split at h
    all_goals first | exact .inl h | exact delete_harmless (by simp) m h
  · exact .inl h

/-- A shutdown pushes no event about data. -/
theorem shutdown_events {so : Socket} {m : SocketMsg}
    (h : m ∈ (socketShutdown mem so).2.events) : m ∈ so.events ∨ m.harmless false := by
  unfold socketShutdown at h
  split at h
  · exact .inl h
  · dsimp only at h
    cases hs : so.session with
    | none =>
        simp only [hs] at h
        exact .inl h
    | some t =>
        simp only [hs] at h
        split at h
        · rw [close_events] at h
          exact .inl h
        · refine (shutdownRead_events h).imp_left fun hold => ?_
          rw [close_events] at hold
          exact hold

theorem told_false {so : Socket} (h : so.told = false) (hmem : .dataQueued ∈ so.events) :
    so.finSeen = true := by
  simpa [Socket.told, hmem] using h

/-- A shutdown throws away what is received, so nothing must have been told of it. -/
theorem truthful_shutdown {so : Socket} (h : Truthful bound so) (htold : so.told = false) :
    Truthful bound (socketShutdown mem so).2 := by
  have hevents (m : SocketMsg) (hm : m ∈ (socketShutdown mem so).2.events) :
      m ∈ so.events ∨ m.harmless false := shutdown_events hm
  rcases moves_shutdown mem so with hsame | ⟨-, -, so', hmoves, heq⟩
  · rw [hsame]
    exact h
  · have hflags : Truthful bound { so with cantRecvMore := true, shutWr := true } :=
      h.extend rfl id (fun _ hm => .inl hm) h.window
    obtain ⟨hso', hfin⟩ := truthful_moves (by rintro ⟨t, -, hend⟩; exact hend) trivial hflags
      hmoves
    rw [heq] at hevents ⊢
    refine ⟨fun hmem => .inl (hfin ?_), hso'.ended, hso'.limit, Nat.zero_le _, fun t ht => ?_⟩
    · exact told_false htold ((hevents _ hmem).resolve_right fun hharmless => hharmless)
    · have := hso'.window t ht
      rw [Sockbuf.dataBytes_flush]
      omega

/-- A read which leaves data behind, or of which nothing was told. -/
theorem truthful_recv {so so' : Socket} {len : Nat} {data : List UInt8} (h : Truthful bound so)
    (hrecv : socketRecv so len = some (data, so'))
    (hleft : so.told = true → so.drains len = false) : Truthful bound so' := by
  obtain ⟨-, heq, -, hsession⟩ := socketRecv_cases hrecv
  have hle : (so.rcvq.copyToUser so.stream len).2.dataBytes ≤ so.rcvq.dataBytes :=
    Sockbuf.dataBytes_copyToUser_le _ _ _
  have hroom := h.room
  have hrcvq : so'.rcvq = (so.rcvq.copyToUser so.stream len).2 := by rw [heq]
  have hlimit : so'.rcvq.dataByteLimit = bound := by
    rw [hrcvq, Sockbuf.limit_copyToUser, h.limit]
  rw [hrcvq] at hsession hlimit
  rw [heq]
  refine ⟨fun hmem => ?_, h.ended, hlimit, Nat.le_trans hle hroom, fun t' ht' => ?_⟩
  · cases htold : so.told with
    | false => exact .inl (told_false htold hmem)
    | true =>
        have hsome := hleft htold
        unfold Socket.drains at hsome
        exact .inr (Nat.pos_of_ne_zero (by simpa using hsome))
  · obtain ⟨t, ht, -, hadv⟩ := hsession t' ht'
    have := h.window t ht
    have := (so.rcvq.copyToUser so.stream len).2.space_le
    dsimp only
    omega

theorem truthful_send {so so' : Socket} {header : Option Nat} {data : List UInt8}
    (h : Truthful bound so) (hsend : socketSend mem so header data = .ok so') :
    Truthful bound so' := by
  obtain ⟨-, ⟨-, rfl⟩ | ⟨-, head, t, t', -, ht, -, -, hadv, rfl⟩⟩ := socketSend_cases hsend
  · exact h
  · refine h.extend rfl id (fun _ hm => .inl hm) fun u hu => ?_
    cases hu
    exact h.advance ht hadv

theorem truthful_open (id : Nat) (stream : Bool) (bufSize : Nat) (hsize : bufSize < 0x10000) :
    Truthful bufSize (socketOpen id stream bufSize) := by
  have hlimit (sb : Sockbuf) : (sb.reserve bufSize).dataByteLimit = bufSize := by
    unfold Sockbuf.reserve
    rw [if_neg (by omega)]
  have hempty : (socketOpen id stream bufSize).rcvq.dataBytes = 0 := by
    rw [Sockbuf.dataBytes_eq]
    unfold socketOpen
    dsimp only
    split <;> simp only [Sockbuf.content_reserve] <;> rfl
  refine ⟨(fun hmem => nomatch hmem), (fun _ hmem => nomatch hmem), hlimit _, ?_,
    (fun _ ht => nomatch ht)⟩
  rw [hempty]
  exact Nat.zero_le _

theorem truthful_connect {so : Socket} (h : Truthful bound so) (ready : Bool) :
    Truthful bound (socketConnect mem so ready).1 := by
  cases ready with
  | false => exact h
  | true =>
      refine h.extend rfl id (fun _ hm => .inl hm) fun t ht => ?_
      cases ht
      have hadv : (tcpSessionOpen mem so).adv ≤ max 0 (max so.rcvq.space 0) :=
        (tuned_build mem so _ 0).adv
      have := h.room
      have := h.limit
      have := so.rcvq.space_le
      omega

/-- A datagram brings data, or finds some. -/
theorem truthful_up {so : Socket} {limited : Bool} {buf : Buffer} (h : Truthful bound so)
    (hs : so.session = none) (hsome : buf.length ≠ 0 ∨ so.rcvq.dataBytes ≠ 0) :
    Truthful bound (socketUp mem so limited buf) := by
  rcases socketUp_cases mem so limited buf with hdropped | ⟨hroom, hqueued⟩
  · rw [hdropped]
    exact h
  · have hbytes : (so.rcvq.append buf).dataBytes = so.rcvq.dataBytes + buf.length := rfl
    have hlimit := h.limit
    have := so.rcvq.space_le
    rw [hqueued]
    refine ⟨fun _ => .inr ?_, fun length hmem => ?_, hlimit, ?_, fun t ht => ?_⟩
    · dsimp only
      omega
    · exact h.ended length (by simpa using hmem)
    · dsimp only
      omega
    · rw [hs] at ht
      cases ht

theorem truthful_txBuffer {so : Socket} {event : SocketEvent} {length : Nat}
    (h : Truthful bound so) (hevent : event.ofBuffer = true) :
    Truthful bound (socketTxBufferEvent mem so event length) := by
  rw [txBufferEvent_eq]
  refine h.extend rfl id (fun m hm => (List.mem_append.mp hm).imp_right fun hnew => ?_) h.window
  split at hnew
  · rw [List.mem_singleton.mp hnew]
    cases event <;> trivial
  · cases hnew

end NsSocket

namespace Modem

open Runs NsSocket Unsolicited

/-- A read leaves data behind while an event for it is on its way, a shutdown finds no
such event, an empty datagram finds data in the queue, and what a TCP segment
brings can be acknowledged and taken. -/
def KeepsWord (s : State) : Act → Prop
  | .main _ =>
      (s.pc = .recvCall ∧ s.fsm.state = .idle ∧ s.app.recvDataLength ≠ 0 →
        s.sock.all (fun so =>
          !so.told || !so.drains (min s.app.recvDataLength netBufSize)) = true) ∧
      (s.pc = .closeShutdown → s.sock.all (fun so => !so.told) = true)
  | .datagram _ _ buf =>
      s.sock.all (fun so => decide (buf.length ≠ 0 ∨ so.rcvq.dataBytes ≠ 0)) = true
  | .segment mem seg =>
      (seg.buf.length ≠ 0 → mem.ack = true) ∧
        s.sock.all (fun so => so.session.all fun t =>
          decide (t.state = .synSent → so.rcvq.dataBytes + seg.buf.length ≤ netBufSize)) = true
  | _ => True

/-- What is kept by runs in which the events keep their word. -/
structure Heard (s : State) : Prop where
  staged : Staged s
  truthful : ∀ so, s.sock = some so → Truthful netBufSize so
  ends : ∀ finSeen, .dataEnd finSeen ∈ s.trace → finSeen = true

theorem truthful_effect {s : State} {i : Input} {sock : Option Socket} {tx : Bool}
    (hs : Heard s) (hok : KeepsWord s (.main i)) (h : Effect s i sock tx) :
    ∀ so, sock = some so → Truthful netBufSize so := by
  obtain ⟨hread, hshut⟩ := hok
  intro so₁ h₁
  cases h with
  | same | flagged | cleared => exact hs.truthful so₁ h₁
  | gone => cases h₁
  | opened id =>
      cases h₁
      exact truthful_open id s.app.isTcp netBufSize (by decide)
  | connected so _ hso =>
      cases h₁
      exact truthful_connect (hs.truthful so hso) i.ready
  | shutdown so hpc hso =>
      cases h₁
      have htold := hshut hpc
      rw [hso] at htold
      exact truthful_shutdown (hs.truthful so hso) (by simpa using htold)
  | sent data so so' _ hso hsend =>
      cases h₁
      exact truthful_send (hs.truthful so hso) hsend
  | datagram data so _ hso =>
      cases h₁
      exact (hs.truthful so hso).extend rfl id (fun _ hm => .inl hm) (hs.truthful so hso).window
  | received data so so' hpc hidle hlen hso hrecv =>
      cases h₁
      have hleft := hread ⟨hpc, hidle, hlen⟩
      rw [hso] at hleft
      refine truthful_recv (hs.truthful so hso) hrecv fun htold => ?_
      simpa [htold] using hleft

theorem heard_main {s s' : State} {i : Input} (hs : Heard s) (hok : KeepsWord s (.main i))
    (h : mainStep s i = some s') : Heard s' := by
  have hhandled := handled_main hs.staged h
  obtain ⟨notes, htrace, hnotes⟩ := hhandled.trace
  refine ⟨staged_main hs.staged h, truthful_effect hs hok hhandled.effect, fun b hmem => ?_⟩
  rw [htrace] at hmem
  refine (List.mem_append.mp hmem).elim (hs.ends b) fun hnew => ?_
  cases hnotes _ hnew

/-- An event delivered for what it was pushed for is taken for the end of the stream
only if the peer has closed it. -/
theorem truthful_delivered {so : Socket} {msg : SocketMsg} (h : Truthful netBufSize so)
    (hmem : msg ∈ so.events) (hdata : (delivered so msg).1 = .data)
    (hend : acceptsData (delivered so msg).2 = false) : so.finSeen = true := by
  cases msg with
  | event type length =>
      have htype : type = .data := hdata
      rw [htype] at hmem
      exact h.ended length hmem
  | dataQueued =>
      refine (h.queued hmem).resolve_right fun hpos => ?_
      have hroom := h.room
      have hlen : so.rcvq.dataBytes % 2 ^ 16 = so.rcvq.dataBytes := by
        have : netBufSize < 2 ^ 16 := by decide
        exact Nat.mod_eq_of_lt (by omega)
      simp only [delivered, acceptsData, hlen, decide_eq_false_iff_not] at hend
      omega

theorem heard_deliver {s s' : State} (hs : Heard s) (h : deliver s = some s') : Heard s' := by
  have hstaged := hs.staged.deliver h
  obtain ⟨so, msg, rest, hso, hevents, rfl⟩ := deliver_cases h
  have htruthful := hs.truthful so hso
  refine ⟨hstaged, fun so₁ h₁ => ?_, fun b hmem => ?_⟩
  · cases h₁
    refine ⟨fun hmem => htruthful.queued ?_, fun length hmem => htruthful.ended length ?_,
      htruthful.limit, htruthful.room, htruthful.window⟩
    · rw [hevents]
      exact List.mem_cons_of_mem _ hmem
    · rw [hevents]
      exact List.mem_cons_of_mem _ hmem
  · rw [deliverMsg_trace] at hmem
    refine (List.mem_append.mp hmem).elim (hs.ends b) fun hnew => ?_
    unfold callbackNotes at hnew
    rcases List.mem_append.mp hnew with hl | hr
    · split at hl
      · rename_i hend
        have hb : b = so.finSeen := by simpa using hl
        rw [hb]
        exact truthful_delivered htruthful (by rw [hevents]; exact List.mem_cons_self) hend.1 hend.2
      · cases hl
    · split at hr <;> simp at hr

theorem heard_step {s s' : State} {a : Act} (hs : Heard s) (hok : KeepsWord s a)
    (h : step s a = some s') : Heard s' := by
  have hstaged := staged_step hs.staged h
  cases a with
  | main i => exact heard_main hs hok h
  | mesh up =>
      cases h
      exact ⟨hstaged, hs.truthful, hs.ends⟩
  | deliver => exact heard_deliver hs h
  | segment mem seg =>
      obtain ⟨so, t, hso, ht, rfl⟩ := onSession_cases h
      have htruthful := hs.truthful so hso
      obtain ⟨hack, hsyn⟩ := hok
      rw [hso, Option.all_some, ht, Option.all_some, decide_eq_true_eq] at hsyn
      have hsound : Sound mem so t seg :=
        { ack := hack
          room := by rw [htruthful.limit]; exact htruthful.room
          window := by rw [htruthful.limit]; exact htruthful.window t ht
          syn := by rw [htruthful.limit]; exact hsyn }
      refine ⟨hstaged, fun so₁ h₁ => ?_, hs.ends⟩
      cases h₁
      exact (truthful_moves (fun hend => hend) hsound htruthful (moves_up ht)).1
  | timer mem =>
      obtain ⟨so, t, hso, ht, rfl⟩ := onSession_cases h
      refine ⟨hstaged, fun so₁ h₁ => ?_, hs.ends⟩
      cases h₁
      exact (truthful_moves (fun hend => hend) trivial (hs.truthful so hso) (moves_timer ht)).1
  | datagram mem limited buf =>
      obtain ⟨so, hso, hstream, rfl⟩ := datagram_cases h
      have hsome : s.sock.all (fun so =>
          decide (buf.length ≠ 0 ∨ so.rcvq.dataBytes ≠ 0)) = true := hok
      rw [hso, Option.all_some, decide_eq_true_eq] at hsome
      refine ⟨hstaged, fun so₁ h₁ => ?_, hs.ends⟩
      cases h₁
      exact truthful_up (hs.truthful so hso) ((hs.staged.kept so hso).dgram hstream).1 hsome
  | txBuffer mem event length =>
      obtain ⟨so, hso, hevent, rfl⟩ := txBuffer_cases h
      refine ⟨hstaged, fun so₁ h₁ => ?_, hs.ends⟩
      cases h₁
      exact truthful_txBuffer (hs.truthful so hso) hevent
  | otherOpen =>
      unfold step at h
      dsimp only at h
      split at h
      · cases h
      · cases h
        exact ⟨hstaged, hs.truthful, hs.ends⟩
  | otherClose id =>
      unfold step at h
      dsimp only at h
      split at h
      · cases h
        exact ⟨hstaged, hs.truthful, hs.ends⟩
      · cases h

theorem heard_init : Heard .init :=
  ⟨staged_init, (fun _ hso => nomatch hso), (fun _ hmem => nomatch hmem)⟩

/-- **No false disconnect.**  In a run in which the events keep their word, the
callback takes a `SOCKET_DATA` event for the end of the stream only if the peer has
closed the stream; while it has not, such an event leaves the connection alone. -/
theorem data_ends_closed {s : State} {as : List Act} (hok : Meets step KeepsWord .init as)
    (hrun : run step .init as = some s) :
    (∀ finSeen, .dataEnd finSeen ∈ s.trace → finSeen = true) ∧
      ∀ so msg rest, s.sock = some so → so.events = msg :: rest →
        (delivered so msg).1 = .data → so.finSeen = false →
        ∃ s', step s .deliver = some s' ∧
          s'.app = { s.app with ipdDataLengthCallback := (delivered so msg).2 } := by
  have hs : Heard s :=
    run_invariant Heard (fun _ _ _ h hok hstep => heard_step h hok hstep) heard_init hok hrun
  refine ⟨hs.ends, fun so msg rest hso hevents hdata hopen => ?_⟩
  have haccepts : acceptsData (delivered so msg).2 = true := by
    cases hend : acceptsData (delivered so msg).2 with
    | true => rfl
    | false =>
        have hfin := truthful_delivered (hs.truthful so hso)
          (by rw [hevents]; exact List.mem_cons_self) hdata hend
        rw [hopen] at hfin
        cases hfin
  refine ⟨deliverMsg s so msg rest, ?_, ?_⟩
  · show deliver s = _
    unfold deliver
    rw [hso]
    dsimp only
    rw [hevents]
  · rw [deliverMsg_app, hdata]
    simp [socketCallback, haccepts]

instance decidableKeepsWord (s : State) : ∀ a, Decidable (KeepsWord s a)
  | .main _ => inferInstanceAs (Decidable (_ ∧ _))
  | .segment .. => inferInstanceAs (Decidable (_ ∧ _))
  | .datagram .. => inferInstanceAs (Decidable (_ = true))
  | .mesh _ | .deliver | .timer _ | .txBuffer .. | .otherOpen | .otherClose _ =>
      inferInstanceAs (Decidable True)

/-- A datagram is announced with a line, read, and followed by another one. -/
def orderlyReads : List Act :=
  udpSession ++ [datagramOf [1, 2], .deliver] ++ idleTurns 20 ++
    commandLine (.ciprecvdata 10) ++ goOn 1 ++ [datagramOf [3]]

theorem orderlyReads_heard :
    ∃ s, run step .init orderlyReads = some s ∧ .received [1, 2] ∈ s.trace ∧
      (∀ finSeen, .dataEnd finSeen ∈ s.trace → finSeen = true) ∧
      ∃ s', step s .deliver = some s' ∧
        s'.app = { s.app with ipdDataLengthCallback := 1 } := by
  have hrun : ∃ s, run step .init orderlyReads = some s ∧ .received [1, 2] ∈ s.trace ∧
      ∃ so ∈ s.sock, so.events = [.dataQueued] ∧ (delivered so .dataQueued).2 = 1 ∧
        so.finSeen = false := by
    decide +kernel
  obtain ⟨s, hs, hread, so, hso, hevents, hlen, hopen⟩ := hrun
  obtain ⟨hends, hnext⟩ := data_ends_closed (by decide +kernel) hs
  obtain ⟨s', hs', happ⟩ := hnext so _ [] hso hevents rfl hopen
  exact ⟨s, hs, hread, hends, s', hs', hlen ▸ happ⟩

/-- The host reads a datagram before its event is delivered. -/
def drainedQueue : List Act :=
  udpSession ++ [datagramOf [1]] ++ commandLine (.ciprecvdata 10) ++ goOn 1 ++ [.deliver]

/-- An empty datagram. -/
def emptyDatagram : List Act := udpSession ++ [datagramOf [], .deliver]

/-- **False disconnects.**  A data event delivered after the host has drained the
queue, or for an empty datagram, clears the flag of a UDP socket and triggers the
report CLOSED. -/
theorem false_disconnect :
    (∃ s, run step .init drainedQueue = some s ∧ .received [1] ∈ s.trace ∧
      .dataEnd false ∈ s.trace ∧ .lost false true ∈ s.trace ∧
      s.app.ipConnectedFlg = false ∧ s.app.disconnectTriggered = true) ∧
    ∃ s, run step .init emptyDatagram = some s ∧ .dataEnd false ∈ s.trace ∧
      .lost false true ∈ s.trace ∧ s.app.ipConnectedFlg = false ∧
      s.app.disconnectTriggered = true := by
  decide +kernel

end Modem
