import WisunModem.TcpInput

/-!
# What the functions of a session leave alone

Sending touches only the side of the session that sends, and the window offered.
Each function is taken apart here once, and the results about runs use what is said
of it: most of them only send (`Sends`), and `tcp_up` sends and may then come to the
text of the segment (`tcpUpWindow_cases`).
-/

namespace TcpSession

open NsSocket

/-- What `tcp_build` and the functions which end in it leave as it is. -/
structure Transmits (s s' : Session) : Prop where
  alive : s'.alive = s.alive
  state : s'.state = s.state
  passiveOpen : s'.passiveOpen = s.passiveOpen
  receiveNext : s'.receiveNext = s.receiveNext
  sendUnacknowledged : s'.sendUnacknowledged = s.sendUnacknowledged
  sendWindow : s'.sendWindow = s.sendWindow
  sendMssEff : s'.sendMssEff = s.sendMssEff
  rcvq : s'.rcvq = s.rcvq
  sndq : s'.sndq = s.sndq
  cantRecvMore : s'.cantRecvMore = s.cantRecvMore
  taken : s'.taken = s.taken
  finSeen : s'.finSeen = s.finSeen
  stream : s'.stream = s.stream

theorem Transmits.refl (s : Session) : Transmits s s := by constructor <;> rfl

theorem Transmits.trans {s s' s'' : Session} (h : Transmits s s') (h' : Transmits s' s'') :
    Transmits s s'' where
  alive := h'.alive.trans h.alive
  state := h'.state.trans h.state
  passiveOpen := h'.passiveOpen.trans h.passiveOpen
  receiveNext := h'.receiveNext.trans h.receiveNext
  sendUnacknowledged := h'.sendUnacknowledged.trans h.sendUnacknowledged
  sendWindow := h'.sendWindow.trans h.sendWindow
  sendMssEff := h'.sendMssEff.trans h.sendMssEff
  rcvq := h'.rcvq.trans h.rcvq
  sndq := h'.sndq.trans h.sndq
  cantRecvMore := h'.cantRecvMore.trans h.cantRecvMore
  taken := h'.taken.trans h.taken
  finSeen := h'.finSeen.trans h.finSeen
  stream := h'.stream.trans h.stream

theorem transmits_uack (s : Session) (syn fin : Bool) (len : Nat) :
    Transmits s (tcpUackSegment s syn fin len) := by
  unfold tcpUackSegment
  dsimp only
  split <;> constructor <;> rfl

theorem transmits_incr (s : Session) : Transmits s (tcpComputeWindowIncr s) := by
  unfold tcpComputeWindowIncr
  split <;> constructor <;> rfl

theorem transmits_build (s : Session) (code : Code) (data : List UInt8) :
    Transmits s (tcpBuild s code data) := by
  unfold tcpBuild
  dsimp only
  split
  · exact .refl s
  · have huack := (transmits_incr s).trans
      (transmits_uack (tcpComputeWindowIncr s) (code.hasSyn s.state)
        (code.hasFin s data.length) data.length)
    constructor
    · exact huack.alive
    · exact huack.state
    · exact huack.passiveOpen
    · exact huack.receiveNext
    · exact huack.sendUnacknowledged
    · exact huack.sendWindow
    · exact huack.sendMssEff
    · exact huack.rcvq
    · exact huack.sndq
    · exact huack.cantRecvMore
    · exact huack.taken
    · exact huack.finSeen
    · exact huack.stream

theorem transmits_buildSegment (env : Env) (s : Session) (data : List UInt8) :
    Transmits s (buildSegment env s data) := by
  unfold buildSegment
  split
  · exact transmits_build s .fromState data
  · exact .refl s

theorem transmits_segmentStart (env : Env) (s : Session) (timeout : Bool) :
    Transmits s (tcpSegmentStart env s timeout) := by
  have hback : Transmits s
      (if timeout then { s with sendNext := s.sendUnacknowledged, sentFin := false } else s) := by
    split <;> constructor <;> rfl
  unfold tcpSegmentStart
  dsimp only
  refine hback.trans ?_
  generalize (if timeout then { s with sendNext := s.sendUnacknowledged, sentFin := false }
    else s) = u
  have hpersist (b : Bool) (data : List UInt8) :
      Transmits u (buildSegment env { u with persist := b } data) := by
    have hset : Transmits u { u with persist := b } := by constructor <;> rfl
    exact hset.trans (transmits_buildSegment env _ data)
  split
  · split
    · exact hpersist false []
    · exact .refl u
  · split
    · split
      · exact transmits_buildSegment env u _
      · constructor <;> rfl
    · exact hpersist false _

/-! ## The receiving side -/

/-- States before the end of the peer's stream. -/
def open_ (st : TcpState) : Bool := st.takesData || st.hasSyn

/-- States in which the end of the stream need not have been seen. -/
def unended (st : TcpState) : Bool := open_ st || decide (st = .timeWait)

/-- Changes beside the receiving side: no field of it is touched, and the state passes
neither the beginning nor the end of the peer's stream. -/
structure Aside (s s' : Session) : Prop where
  alive : s'.alive = true → s.alive = true
  receiveNext : s'.receiveNext = s.receiveNext
  receiveAdv : s'.receiveAdv = s.receiveAdv
  sendMssEff : s'.sendMssEff = s.sendMssEff
  rcvq : s'.rcvq = s.rcvq
  room : s'.room = s.room
  edges : s'.edges = s.edges
  taken : s'.taken = s.taken
  finSeen : s'.finSeen = s.finSeen
  sent : s'.sent = s.sent
  synSent : s'.state = .synSent ↔ s.state = .synSent
  isOpen : open_ s'.state = true → open_ s.state = true
  isUnended : unended s.state = true → unended s'.state = true

/-- The state is another one, and so may be what only the sending side has. -/
theorem aside_of {s s' : Session}
    (h : s' =
      { s with
        state := s'.state
        passiveOpen := s'.passiveOpen
        busy := s'.busy
        persist := s'.persist
        sentFin := s'.sentFin
        sendNext := s'.sendNext
        sendUnacknowledged := s'.sendUnacknowledged
        sendWindow := s'.sendWindow
        sendWl1 := s'.sendWl1
        sendWl2 := s'.sendWl2
        retry := s'.retry
        sndq := s'.sndq
        cantRecvMore := s'.cantRecvMore
        closed := s'.closed
        stream := s'.stream
        resets := s'.resets })
    (hsyn : s'.state = .synSent ↔ s.state = .synSent)
    (hopen : open_ s'.state = true → open_ s.state = true)
    (hunended : unended s.state = true → unended s'.state = true) : Aside s s' where
  alive ha := by
    rw [h] at ha
    exact ha
  receiveNext := by rw [h]
  receiveAdv := by rw [h]
  sendMssEff := by rw [h]
  rcvq := by rw [h]
  room := by rw [h]
  edges := by rw [h]
  taken := by rw [h]
  finSeen := by rw [h]
  sent := by rw [h]
  synSent := hsyn
  isOpen := hopen
  isUnended := hunended

/-- What consists of such changes and of segments sent. -/
inductive Sends : Session → Session → Prop
  | aside {s s' : Session} (h : Aside s s') : Sends s s'
  | build (s : Session) (code : Code) (data : List UInt8) : Sends s (tcpBuild s code data)
  | trans {s s' s'' : Session} (h : Sends s s') (h' : Sends s' s'') : Sends s s''

/-- The state stays. -/
theorem sends_of {s s' : Session}
    (h : s' =
      { s with
        passiveOpen := s'.passiveOpen
        busy := s'.busy
        persist := s'.persist
        sentFin := s'.sentFin
        sendNext := s'.sendNext
        sendUnacknowledged := s'.sendUnacknowledged
        sendWindow := s'.sendWindow
        sendWl1 := s'.sendWl1
        sendWl2 := s'.sendWl2
        retry := s'.retry
        sndq := s'.sndq
        cantRecvMore := s'.cantRecvMore
        closed := s'.closed
        stream := s'.stream
        resets := s'.resets }) : Sends s s' := by
  have hstate : s'.state = s.state := by rw [h]
  apply Sends.aside
  apply aside_of
  · rw [hstate]
    exact h
  · rw [hstate]
  · rw [hstate]
    exact id
  · rw [hstate]
    exact id

/-- The state alone is another one. -/
theorem sends_state (s : Session) {st : TcpState} (hsyn : st = .synSent ↔ s.state = .synSent)
    (hopen : open_ st = true → open_ s.state = true)
    (hunended : unended s.state = true → unended st = true) :
    Sends s { s with state := st } :=
  .aside (aside_of rfl hsyn hopen hunended)

theorem Sends.refl (s : Session) : Sends s s := sends_of rfl

/-- What sending keeps of the receiving side. -/
structure Keeps (s s' : Session) : Prop where
  alive : s'.alive = true → s.alive = true
  receiveNext : s'.receiveNext = s.receiveNext
  sendMssEff : s'.sendMssEff = s.sendMssEff
  rcvq : s'.rcvq = s.rcvq
  taken : s'.taken = s.taken
  finSeen : s'.finSeen = s.finSeen
  synSent : s'.state = .synSent ↔ s.state = .synSent
  isOpen : open_ s'.state = true → open_ s.state = true
  isUnended : unended s.state = true → unended s'.state = true

theorem Transmits.keeps {s s' : Session} (h : Transmits s s') : Keeps s s' where
  alive ha := h.alive ▸ ha
  receiveNext := h.receiveNext
  sendMssEff := h.sendMssEff
  rcvq := h.rcvq
  taken := h.taken
  finSeen := h.finSeen
  synSent := by rw [h.state]
  isOpen ho := h.state ▸ ho
  isUnended hu := h.state ▸ hu

theorem Sends.keeps {s s' : Session} (h : Sends s s') : Keeps s s' := by
  induction h with
  | aside h =>
      exact ⟨h.alive, h.receiveNext, h.sendMssEff, h.rcvq, h.taken, h.finSeen, h.synSent,
        h.isOpen, h.isUnended⟩
  | build s code data => exact (transmits_build s code data).keeps
  | trans _ _ ih ih' =>
      constructor
      · exact ih.alive ∘ ih'.alive
      · exact ih'.receiveNext.trans ih.receiveNext
      · exact ih'.sendMssEff.trans ih.sendMssEff
      · exact ih'.rcvq.trans ih.rcvq
      · exact ih'.taken.trans ih.taken
      · exact ih'.finSeen.trans ih.finSeen
      · exact ih'.synSent.trans ih.synSent
      · exact ih.isOpen ∘ ih'.isOpen
      · exact ih'.isUnended ∘ ih.isUnended

/-! ## Functions which only send -/

theorem sends_delete (s : Session) : Sends s (tcpSessionDelete s) := by
  apply Sends.aside
  constructor
  · intro h
    cases h
  all_goals first | rfl | exact id

theorem sends_reset (env : Env) (s : Session) (rst : Reset) : Sends s (sendReset env s rst) := by
  unfold sendReset
  split
  · exact sends_of rfl
  · exact .refl s

theorem sends_resetResponse (env : Env) (s : Session) (seg : Segment) :
    Sends s (resetResponse env s seg) :=
  sends_reset env s _

theorem sends_buildSegment (env : Env) (s : Session) (data : List UInt8) :
    Sends s (buildSegment env s data) := by
  unfold buildSegment
  split
  · exact .build s .fromState data
  · exact .refl s

theorem sends_segmentStart (env : Env) (s : Session) (timeout : Bool) :
    Sends s (tcpSegmentStart env s timeout) := by
  have hback : Sends s
      (if timeout then { s with sendNext := s.sendUnacknowledged, sentFin := false } else s) := by
    split
    · exact sends_of rfl
    · exact .refl s
  unfold tcpSegmentStart
  apply hback.trans
  dsimp only
  generalize (if timeout then { s with sendNext := s.sendUnacknowledged, sentFin := false }
    else s) = u
  have hpersist (b : Bool) (data : List UInt8) :
      Sends u (buildSegment env { u with persist := b } data) := by
    have hset : Sends u { u with persist := b } := sends_of rfl
    exact hset.trans (sends_buildSegment env _ data)
  split
  · split
    · exact hpersist false []
    · exact .refl u
  · split
    · split
      · exact sends_buildSegment env u _
      · exact sends_of rfl
    · exact hpersist false _

theorem sends_resend (env : Env) (s : Session) : Sends s (tcpResendSegment env s) := by
  unfold tcpResendSegment
  split
  · exact sends_delete s
  · have hretry : Sends s { s with retry := s.retry + 1 } := sends_of rfl
    exact hretry.trans (sends_segmentStart env _ true)

theorem sends_ackSegment (env : Env) (s : Session) (ack : SeqNum) :
    Sends s (tcpAckSegment env s ack) := by
  unfold tcpAckSegment
  dsimp only
  split
  · split
    · apply Sends.trans _ (sends_segmentStart env _ false)
      exact sends_of rfl
    · exact sends_of rfl
  · exact sends_of rfl

theorem sends_noteWindow (sn : SerialOrder) (s : Session) (seg : Segment) :
    Sends s (noteWindow sn s seg) := by
  unfold noteWindow
  split
  · exact sends_of rfl
  · exact .refl s

theorem sends_acked (sn : SerialOrder) (env : Env) (s : Session) (seg : Segment) :
    Sends s (tcpAcked sn env s seg) := by
  apply (sends_noteWindow sn s seg).trans
  unfold tcpAcked
  dsimp only
  generalize noteWindow sn s seg = u
  split
  · exact sends_ackSegment env u seg.ackNo
  · split
    · split
      · apply Sends.trans _ (sends_resend env _)
        exact sends_of rfl
      · exact sends_of rfl
    · exact .refl u

theorem sends_finAcked (s : Session) : Sends s (tcpFinAcked s) := by
  unfold tcpFinAcked
  split
  · split
    · rename_i hstate
      apply sends_state <;> simp [hstate, open_, unended, TcpState.takesData]
    · rename_i hstate
      apply sends_state <;> simp [hstate, open_, unended, TcpState.takesData, TcpState.hasSyn]
    · exact sends_delete s
    · exact .refl s
  · exact .refl s

theorem sends_close (env : Env) (s : Session) : Sends s (tcpSessionClose env s) := by
  have hclosing (hst : s.state = .synReceived ∨ s.state = .established ∨ s.state = .closeWait) :
      Sends s { s with state := if s.state = .closeWait then .lastAck else .finWait1 } := by
    rcases hst with hst | hst | hst <;> apply sends_state <;>
      simp [hst, open_, unended, TcpState.takesData, TcpState.hasSyn]
  have hclose (hst : s.state = .synReceived ∨ s.state = .established ∨ s.state = .closeWait) :
      Sends s
        (if s.busy then { s with state := if s.state = .closeWait then .lastAck else .finWait1 }
        else tcpSegmentStart env
          { s with
            state := if s.state = .closeWait then .lastAck else .finWait1
            busy := true } false) := by
    split
    · exact hclosing hst
    · apply (hclosing hst).trans
      apply Sends.trans _ (sends_segmentStart env _ false)
      exact sends_of rfl
  unfold tcpSessionClose
  split
  · exact .refl s
  · exact .refl s
  · exact .refl s
  · exact .refl s
  · exact .refl s
  · exact .refl s
  · exact sends_delete s
  · exact sends_delete s
  · rename_i hst
    simpa [hst] using hclose (.inl hst)
  · rename_i hst
    simpa [hst] using hclose (.inr (.inl hst))
  · rename_i hst
    simpa [hst] using hclose (.inr (.inr hst))

theorem sends_abort (env : Env) (s : Session) : Sends s (tcpSessionAbort env s) := by
  have hreset : Sends s (tcpSessionDelete (sendReset env s ⟨s.sendNext, 0, false⟩)) :=
    (sends_reset env s _).trans (sends_delete _)
  unfold tcpSessionAbort
  split
  · exact .refl s
  all_goals first | exact hreset | exact sends_delete s

theorem sends_send (env : Env) (s : Session) (buf : Buffer) :
    Sends s (tcpSessionSend env s buf) := by
  unfold tcpSessionSend
  split
  · exact .refl s
  · dsimp only
    split
    · exact sends_of rfl
    · apply Sends.trans _ (sends_segmentStart env _ false)
      exact sends_of rfl

theorem sends_timer (env : Env) (s : Session) : Sends s (tcpHandleTimeEvent env s) := by
  unfold tcpHandleTimeEvent
  split
  · exact .refl s
  · exact sends_delete s
  · split
    · exact sends_resend env s
    · split
      · rename_i hwait
        apply sends_state <;>
          simp [hwait.1, open_, unended, TcpState.takesData, TcpState.hasSyn]
      · exact .refl s

/-- An acknowledgement of nothing new. -/
theorem sends_ackNothing (env : Env) (s : Session) :
    Sends s (tcpAckBuffer env s 0 .ackOnly) := by
  have hsame : s.receiveNext + BitVec.ofNat 32 0 = s.receiveNext := BitVec.add_zero _
  unfold tcpAckBuffer
  rw [hsame]
  split
  · exact .build s .ackOnly []
  · exact .refl s

/-! ## Through the acknowledgement to the text -/

theorem ackSegment_same (env : Env) (s : Session) (ack : SeqNum) :
    (tcpAckSegment env s ack).state = s.state ∧
      (tcpAckSegment env s ack).cantRecvMore = s.cantRecvMore := by
  unfold tcpAckSegment
  dsimp only
  split
  · split
    · exact ⟨(transmits_segmentStart env _ false).state,
        (transmits_segmentStart env _ false).cantRecvMore⟩
    · exact ⟨rfl, rfl⟩
  · exact ⟨rfl, rfl⟩

theorem resend_same (env : Env) (s : Session) :
    (tcpResendSegment env s).state = s.state ∧
      ((tcpResendSegment env s).alive = true →
        (tcpResendSegment env s).cantRecvMore = s.cantRecvMore) := by
  unfold tcpResendSegment
  split
  · exact ⟨rfl, fun h => by cases h⟩
  · exact ⟨(transmits_segmentStart env _ true).state,
      fun _ => (transmits_segmentStart env _ true).cantRecvMore⟩

theorem acked_same (sn : SerialOrder) (env : Env) (s : Session) (seg : Segment) :
    (tcpAcked sn env s seg).state = s.state ∧
      ((tcpAcked sn env s seg).alive = true →
        (tcpAcked sn env s seg).cantRecvMore = s.cantRecvMore) := by
  unfold tcpAcked
  dsimp only
  have hsame : (noteWindow sn s seg).state = s.state ∧
      (noteWindow sn s seg).cantRecvMore = s.cantRecvMore := by
    unfold noteWindow
    split <;> exact ⟨rfl, rfl⟩
  rw [← hsame.1, ← hsame.2]
  generalize noteWindow sn s seg = u
  split
  · have hack := ackSegment_same env u seg.ackNo
    exact ⟨hack.1, fun _ => hack.2⟩
  · split
    · split
      · exact resend_same env _
      · exact ⟨rfl, fun _ => rfl⟩
    · exact ⟨rfl, fun _ => rfl⟩

/-- A session which survives the acknowledgement takes text as before. -/
structure Same (s s' : Session) : Prop where
  sends : Sends s s'
  cantRecvMore : s'.alive = true → s'.cantRecvMore = s.cantRecvMore
  takesData : s'.state.takesData = s.state.takesData
  waits : s'.state = .timeWait → s.state = .timeWait ∨ unended s.state = false
  synReceived : s'.state = .synReceived → s.state = .synReceived

theorem same_finAcked (s : Session) : Same s (tcpFinAcked s) := by
  refine ⟨sends_finAcked s, ?_, ?_, ?_, ?_⟩ <;> unfold tcpFinAcked <;> split <;>
    try split
  all_goals simp_all [TcpState.takesData, tcpSessionDelete, unended, open_, TcpState.hasSyn]

theorem same_acked (sn : SerialOrder) (env : Env) (s : Session) (seg : Segment) :
    Same s (tcpAcked sn env s seg) := by
  obtain ⟨hstate, hshut⟩ := acked_same sn env s seg
  exact ⟨sends_acked sn env s seg, hshut, by rw [hstate], fun h => .inl (hstate ▸ h),
    fun h => hstate ▸ h⟩

theorem Same.trans {s s' s'' : Session} (h : Same s s') (h' : Same s' s'') : Same s s'' where
  sends := h.sends.trans h'.sends
  cantRecvMore ha := (h'.cantRecvMore ha).trans (h.cantRecvMore (h'.sends.keeps.alive ha))
  takesData := h'.takesData.trans h.takesData
  waits hw := by
    rcases h'.waits hw with h1 | h1
    · exact h.waits h1
    · right
      by_contra hne
      rw [h.sends.keeps.isUnended (Bool.eq_true_of_not_eq_false hne)] at h1
      cases h1
  synReceived := h.synReceived ∘ h'.synReceived

theorem Same.refl (s : Session) : Same s s := ⟨.refl s, fun _ => rfl, rfl, .inl, id⟩

/-! ## What `tcp_up` does -/

/-- The session is reset when data comes for a reader that is gone. -/
def refuses (s : Session) (seg : Segment) : Bool :=
  s.cantRecvMore && s.state.takesData && decide (seg.buf.length ≠ 0)

/-- The text of a segment is in order and not empty. -/
def nextText (s : Session) (seg : Segment) : Bool :=
  decide (seg.segLen = 0 ∨ seg.seqNo = s.receiveNext) &&
    decide (seg.segLen ≠ 0 ∨ seg.buf.length ≠ 0 ∨ seg.fin = true) && !refuses s seg

/-- The data of the segment is put into the queue, where the state takes data. -/
def takeData (s : Session) (seg : Segment) : Session :=
  if seg.buf.length ≠ 0 ∧ s.state.takesData = true then enqueue s seg.buf else s

theorem nextText_congr {s s' : Session} (hnext : s'.receiveNext = s.receiveNext)
    (hshut : s'.cantRecvMore = s.cantRecvMore) (htakes : s'.state.takesData = s.state.takesData)
    (seg : Segment) : nextText s' seg = nextText s seg := by
  unfold nextText refuses
  rw [hnext, hshut, htakes]

theorem Same.nextText_eq {s s' : Session} (h : Same s s') (halive : s'.alive = true)
    (seg : Segment) : nextText s' seg = nextText s seg :=
  nextText_congr h.sends.keeps.receiveNext (h.cantRecvMore halive) h.takesData seg

theorem takeData_congr {s s' : Session} (hrcvq : s'.rcvq = s.rcvq)
    (htakes : s'.state.takesData = s.state.takesData) (seg : Segment) :
    (takeData s' seg).rcvq = (takeData s seg).rcvq := by
  unfold takeData
  rw [htakes]
  split
  · unfold enqueue
    dsimp only
    rw [hrcvq]
  · exact hrcvq

/-- The text is taken, or nothing is. -/
theorem tcpText_cases (env : Env) (s : Session) (seg : Segment) :
    (nextText s seg = true ∧ tcpText env s seg = tcpTake env (takeData s seg) seg) ∨
      (nextText s seg = false ∧ Sends s (tcpText env s seg)) := by
  unfold tcpText takeData
  by_cases hout : 0 < seg.segLen ∧ seg.seqNo ≠ s.receiveNext
  · right
    rw [if_pos hout]
    refine ⟨?_, sends_ackNothing env s⟩
    have hlen : seg.segLen ≠ 0 := Nat.pos_iff_ne_zero.mp hout.1
    simp [nextText, hout.2, hlen]
  · rw [if_neg hout]
    have hin : seg.segLen = 0 ∨ seg.seqNo = s.receiveNext := by
      by_contra hne
      obtain ⟨hlen, hseq⟩ := not_or.mp hne
      exact hout ⟨Nat.pos_of_ne_zero hlen, hseq⟩
    by_cases hdata : seg.buf.length ≠ 0 ∧ s.state.takesData = true
    · rw [if_pos hdata, if_pos hdata]
      by_cases hshut : s.cantRecvMore = true
      · right
        rw [if_pos hshut]
        refine ⟨?_, (sends_resetResponse env s _).trans (sends_delete _)⟩
        simp [nextText, refuses, hshut, hdata]
      · left
        rw [if_neg hshut]
        exact ⟨by simp [nextText, refuses, hshut, hdata, hin], rfl⟩
    · rw [if_neg hdata, if_neg hdata]
      have hrefuses : refuses s seg = false := by
        by_contra hne
        simp [refuses] at hne
        exact hdata ⟨hne.2.2, hne.2.1⟩
      by_cases hsome : seg.segLen ≠ 0 ∨ seg.buf.length ≠ 0 ∨ seg.fin = true
      · left
        exact ⟨by simp only [nextText, hrefuses, hin, hsome]; rfl, rfl⟩
      · right
        refine ⟨by simp only [nextText, hsome]; simp, ?_⟩
        simp only [not_or, not_not] at hsome
        simp only [tcpTake, hsome]
        exact .refl s

/-- A reader that is gone ends the session. -/
theorem tcpText_refused (env : Env) {s : Session} {seg : Segment}
    (hin : seg.segLen = 0 ∨ seg.seqNo = s.receiveNext) (h : refuses s seg = true) :
    (tcpText env s seg).alive = false := by
  simp only [refuses, Bool.and_eq_true, decide_eq_true_eq] at h
  have hout : ¬(0 < seg.segLen ∧ seg.seqNo ≠ s.receiveNext) := by
    rintro ⟨hlen, hseq⟩
    rcases hin with h | h
    · omega
    · exact hseq h
  unfold tcpText
  rw [if_neg hout, if_pos ⟨h.2, h.1.2⟩, if_pos h.1.1]
  rfl

variable (sn : SerialOrder)

/-- `tcp_up` comes past the check of the acknowledgement number. -/
def ackPasses (s : Session) (seg : Segment) : Bool :=
  sn.greater s.sendUnacknowledged seg.ackNo || !sn.greater seg.ackNo s.sendNext

theorem tcpUpAck_cases {env : Env} {s : Session} {seg : Segment} (halive : s.alive = true) :
    Sends s (tcpUpAck sn env s seg) ∨
      (ackPasses sn s seg = true ∧
        ∃ u, u.alive = true ∧ Same s u ∧ tcpUpAck sn env s seg = tcpText env u seg) := by
  unfold tcpUpAck
  by_cases hold : sn.greater s.sendUnacknowledged seg.ackNo = true
  · right
    rw [if_pos hold]
    exact ⟨by simp [ackPasses, hold], s, halive, .refl s, rfl⟩
  · rw [if_neg hold]
    by_cases hfuture : sn.greater seg.ackNo s.sendNext = true
    · left
      rw [if_pos hfuture]
      exact sends_ackNothing env s
    · rw [if_neg hfuture]
      have hacked := same_acked sn env s seg
      have hfin := hacked.trans (same_finAcked (tcpAcked sn env s seg))
      dsimp only
      split
      · exact .inl hacked.sends
      · split
        · exact .inl hfin.sends
        · rename_i hlive
          right
          refine ⟨by simp [ackPasses, hfuture], _, ?_, hfin, rfl⟩
          simpa using hlive

/-- The session as it comes to the text. -/
def atText (s : Session) : Session :=
  if s.state = .synReceived then { s with state := .established } else s

theorem same_established {s : Session} (seg : Segment) (h : s.state = .synReceived) :
    Same (atText s) (tcpSessionEstablished s seg) := by
  have htext : atText s = { s with state := .established } := if_pos h
  rw [htext]
  exact ⟨sends_of rfl, fun _ => rfl, rfl, .inl, id⟩

theorem sends_atText (s : Session) : Sends s (atText s) := by
  unfold atText
  split
  · rename_i h
    apply sends_state <;> simp [h, open_, unended, TcpState.takesData, TcpState.hasSyn]
  · exact .refl s

theorem atText_synReceived (s : Session) : (atText s).state ≠ .synReceived := by
  unfold atText
  split
  · simp
  · assumption

/-- What a segment has to be to come to the text. -/
def reachesText (s : Session) (seg : Segment) : Bool :=
  !seg.rst && !seg.syn && seg.ack && decide (s.state = .synReceived → seg.ackNo = s.sendNext) &&
    ackPasses sn s seg

theorem tcpUpInWindow_cases {env : Env} {s : Session} {seg : Segment} (halive : s.alive = true) :
    Sends s (tcpUpInWindow sn env s seg) ∨
      (reachesText sn s seg = true ∧
        ∃ u, u.alive = true ∧ Same (atText s) u ∧
          tcpUpInWindow sn env s seg = tcpText env u seg) := by
  unfold tcpUpInWindow
  by_cases hrst : seg.rst = true
  · left
    rw [if_pos hrst]
    split
    all_goals first | exact sends_delete s | exact .refl s
  · rw [if_neg hrst]
    by_cases hsyn : seg.syn = true
    · left
      rw [if_pos hsyn]
      split
      · exact sends_delete s
      · exact (sends_resetResponse env s seg).trans (sends_delete _)
    · rw [if_neg hsyn]
      by_cases hack : seg.ack = true
      · rw [if_neg (by simp [hack])]
        by_cases hreceived : s.state = .synReceived
        · rw [if_pos hreceived]
          by_cases hacked : seg.ackNo = s.sendNext
          · rw [if_pos hacked]
            have hsame := same_established seg hreceived
            have halive' : (tcpSessionEstablished s seg).alive = true := halive
            rcases tcpUpAck_cases sn (s := tcpSessionEstablished s seg) halive' with h | h
            · exact .inl ((sends_atText s).trans (hsame.sends.trans h))
            · obtain ⟨hpasses, u, hlive, hu, heq⟩ := h
              right
              have hpasses : ackPasses sn s seg = true := hpasses
              exact ⟨by simp [reachesText, hrst, hsyn, hack, hacked, hpasses], u, hlive,
                hsame.trans hu, heq⟩
          · rw [if_neg hacked]
            exact .inl (sends_resetResponse env s seg)
        · rw [if_neg hreceived]
          have htext : atText s = s := if_neg hreceived
          rw [htext]
          rcases tcpUpAck_cases sn halive with h | h
          · exact .inl h
          · obtain ⟨hpasses, u, hlive, hu, heq⟩ := h
            right
            exact ⟨by simp [reachesText, hrst, hsyn, hack, hreceived, hpasses], u, hlive, hu, heq⟩
      · left
        rw [if_pos (by simpa using hack)]
        exact .refl s

/-- `tcp_up` takes something of the segment. -/
def consumes (s : Session) (seg : Segment) : Bool :=
  seqOk s seg && reachesText sn s (trim sn s seg) && nextText (atText s) (trim sn s seg)

/-- **A segment within the window is taken from a session which only sent before, or
nothing is taken of it.** -/
theorem tcpUpWindow_cases {env : Env} {s : Session} {seg : Segment} (halive : s.alive = true) :
    Sends s (tcpUpWindow sn env s seg) ∨
      (consumes sn s seg = true ∧
        ∃ u, u.alive = true ∧ Same (atText s) u ∧
          tcpUpWindow sn env s seg =
            tcpTake env (takeData u (trim sn s seg)) (trim sn s seg)) := by
  unfold tcpUpWindow
  by_cases hok : seqOk s seg = true
  · rw [if_neg (by simp [hok])]
    rcases tcpUpInWindow_cases sn halive with h | h
    · exact .inl h
    · obtain ⟨hreaches, u, hlive, hu, heq⟩ := h
      rw [heq]
      rcases tcpText_cases env u (trim sn s seg) with h | h
      · right
        have hnext := h.1
        rw [hu.nextText_eq hlive] at hnext
        exact ⟨by simp [consumes, hok, hreaches, hnext], u, hlive, hu, h.2⟩
      · exact .inl ((sends_atText s).trans (hu.sends.trans h.2))
  · rw [if_pos (by simpa using hok)]
    exact .inl (sends_ackNothing env s)

/-- **Before the peer's SYN** `tcp_up` waits for it, and goes on behind it. -/
theorem tcpUpSynSent_cases (env : Env) (s : Session) (seg : Segment) :
    Sends s (tcpUpSynSent sn env s seg) ∨
      (seg.syn = false ∧ seg.rst = false ∧
        tcpUpSynSent sn env s seg = tcpUpWindow sn env s seg) ∨
      (seg.syn = true ∧ seg.rst = false ∧ seg.ack = true ∧ seg.ackNo = s.sendNext ∧
        tcpUpSynSent sn env s seg = tcpText env
          (tcpSessionEstablished (tcpAckSegment env (readSyn s seg) seg.ackNo) seg) seg) ∨
      (seg.syn = true ∧ seg.rst = false ∧ seg.ack = false ∧
        tcpUpSynSent sn env s seg =
          tcpAckBuffer env { readSyn s seg with state := .synReceived } 1 .synAck) := by
  unfold tcpUpSynSent
  by_cases hother : seg.ack = true ∧ seg.ackNo ≠ s.sendNext
  · left
    rw [if_pos hother]
    split
    · exact .refl s
    · exact sends_resetResponse env s seg
  · rw [if_neg hother]
    by_cases hrst : seg.rst = true
    · left
      rw [if_pos hrst]
      split
      · exact sends_delete s
      · exact .refl s
    · rw [if_neg hrst]
      have hrst := Bool.eq_false_of_not_eq_true hrst
      right
      by_cases hsyn : seg.syn = true
      · right
        rw [if_pos hsyn]
        by_cases hack : seg.ack = true
        · left
          have hackNo : seg.ackNo = s.sendNext := not_not.mp fun hne => hother ⟨hack, hne⟩
          exact ⟨hsyn, hrst, hack, hackNo, if_pos hack⟩
        · right
          exact ⟨hsyn, hrst, Bool.eq_false_of_not_eq_true hack, if_neg hack⟩
      · left
        rw [if_neg hsyn]
        exact ⟨Bool.eq_false_of_not_eq_true hsyn, hrst, rfl⟩

theorem tcpUp_cases (env : Env) (s : Session) (seg : Segment) :
    Sends s (tcpUp sn env s seg) ∨
      (seg.malformed = false ∧ s.state = .synSent ∧
        tcpUp sn env s seg = tcpUpSynSent sn env s seg) ∨
      (seg.malformed = false ∧ s.state ≠ .synSent ∧
        tcpUp sn env s seg = tcpUpWindow sn env s seg) := by
  unfold tcpUp
  by_cases hclosed : s.state = .closed ∨ seg.malformed = true
  · left
    rw [if_pos hclosed]
    split
    · exact .refl s
    · exact (sends_resetResponse env s seg).trans (sends_delete _)
  · rw [if_neg hclosed]
    have hmal : seg.malformed = false :=
      Bool.eq_false_of_not_eq_true fun hm => hclosed (.inr hm)
    by_cases hst : s.state = .synSent
    · right; left
      exact ⟨hmal, hst, if_pos hst⟩
    · rw [if_neg hst]
      split
      · left
        split
        · split
          · exact sends_delete s
          · exact sends_resetResponse env s seg
        · exact .refl s
      · right; right
        exact ⟨hmal, hst, rfl⟩

end TcpSession
