import WisunModem.TcpFrames

/-!
# What `tcp_up` does to the sending side

A segment is answered, which sends nothing but acknowledgements, or its
acknowledgement is taken first.  `Answers` is the first, and the `_acks` lemmas say
that `tcp_up` does nothing else.  A session which is deleted has no queue any more.
-/

namespace TcpSession

open NsSocket

/-- The application sends no more. -/
def ended : TcpState → Bool
  | .finWait1 | .finWait2 | .closing | .lastAck | .timeWait => true
  | _ => false

/-- The sending side is the same, and the state stands the same to it. -/
structure SendSame (s s' : Session) : Prop where
  alive : s'.alive = true → s.alive = true
  sendUnacknowledged : s'.sendUnacknowledged = s.sendUnacknowledged
  sendNext : s'.sendNext = s.sendNext
  highest : s'.highest = s.highest
  sendMssEff : s'.sendMssEff = s.sendMssEff
  busy : s'.busy = s.busy
  persist : s'.persist = s.persist
  sentFin : s'.sentFin = s.sentFin
  sndq : s'.alive = true → s'.sndq = s.sndq
  stream : s'.stream = s.stream
  sent : s'.sent = s.sent
  hasSyn : s'.state.hasSyn = s.state.hasSyn
  ended : ended s'.state = ended s.state
  hasFin : s'.state.hasFin = true → s.state.hasFin = true
  synSent : s'.state = .synSent → s.state = .synSent

theorem SendSame.refl (s : Session) : SendSame s s := by
  constructor
  all_goals first | rfl | exact id | exact fun _ => rfl

/-- What consists of such changes and of bare acknowledgements. -/
inductive Answers : Session → Session → Prop
  | same {s s' : Session} (h : SendSame s s') : Answers s s'
  | ack (s : Session) : Answers s (tcpBuild s .ackOnly [])
  | trans {s s' s'' : Session} (h : Answers s s') (h' : Answers s' s'') : Answers s s''

theorem Answers.refl (s : Session) : Answers s s := .same (.refl s)

/-- Fields the sending side does not have. -/
theorem answers_of {s s' : Session}
    (h : s' =
      { s with
        receiveNext := s'.receiveNext
        receiveAdv := s'.receiveAdv
        rcvq := s'.rcvq
        cantRecvMore := s'.cantRecvMore
        closed := s'.closed
        room := s'.room
        edges := s'.edges
        taken := s'.taken
        finSeen := s'.finSeen
        resets := s'.resets }) : Answers s s' := by
  apply Answers.same
  constructor
  · intro ha
    rw [h] at ha
    exact ha
  all_goals first | (intro _; rw [h]) | (intro hf; rw [h] at hf; exact hf) | rw [h]

theorem answers_delete (s : Session) : Answers s (tcpSessionDelete s) := by
  apply Answers.same
  constructor
  · intro h
    cases h
  all_goals first | rfl | exact id | (intro h; cases h)

/-- The state is another one, which stands the same to the sending side. -/
theorem answers_state {s : Session} {st : TcpState} (hsyn : st.hasSyn = s.state.hasSyn)
    (hended : ended st = ended s.state) (hfin : st.hasFin = true → s.state.hasFin = true)
    (hsent : st = .synSent → s.state = .synSent) :
    Answers s { s with state := st } := by
  apply Answers.same
  constructor
  · exact id
  all_goals first | rfl | exact fun _ => rfl | assumption

/-! ## A segment built -/

/-- The numbers of a segment. -/
def segmentSize (s : Session) (code : Code) (len : Nat) : Nat :=
  (len + (code.hasSyn s.state).toNat + (code.hasFin s len).toNat) % 2 ^ 16

/-- What `tcp_build` does to the sending side. -/
structure Built (s : Session) (code : Code) (data : List UInt8) (s' : Session) : Prop where
  sent : ∃ seg, s'.sent = s.sent ++ [seg] ∧ seg.seqNo = s.sendNext ∧ seg.data = data ∧
    seg.fin = code.hasFin s data.length
  sendNext : s'.sendNext = s.sendNext + BitVec.ofNat 32 (segmentSize s code data.length)
  highest : s'.highest =
    if segmentSize s code data.length = 0 then s.highest
    else s.highest.furthest (s.sendNext + BitVec.ofNat 32 (segmentSize s code data.length))
  sentFin : s'.sentFin = (s.sentFin || code.hasFin s data.length)
  busy : s'.busy = (s.busy || decide (segmentSize s code data.length ≠ 0))
  persist : s'.persist = s.persist

theorem uack_parts (s : Session) (syn fin : Bool) (len size : Nat)
    (hsize : size = (len + syn.toNat + fin.toNat) % 2 ^ 16) :
    (tcpUackSegment s syn fin len).sendNext = s.sendNext + BitVec.ofNat 32 size ∧
      (tcpUackSegment s syn fin len).highest =
        (if size = 0 then s.highest
        else s.highest.furthest (s.sendNext + BitVec.ofNat 32 size)) ∧
      (tcpUackSegment s syn fin len).sentFin = (s.sentFin || fin) ∧
      (tcpUackSegment s syn fin len).busy = (s.busy || decide (size ≠ 0)) ∧
      (tcpUackSegment s syn fin len).persist = s.persist ∧
      (tcpUackSegment s syn fin len).sent = s.sent := by
  unfold tcpUackSegment
  dsimp only
  rw [← hsize]
  by_cases hzero : size = 0
  · simp [hzero]
  · simp [hzero]

theorem built {s : Session} (code : Code) {data : List UInt8}
    (hgoes : ¬(data.length ≠ 0 ∧ s.sentFin = true)) :
    Built s code data (tcpBuild s code data) := by
  have hincr : SendSame s (tcpComputeWindowIncr s) := by
    unfold tcpComputeWindowIncr
    split
    · exact .refl s
    · constructor
      all_goals first | rfl | exact id | exact fun _ => rfl
  obtain ⟨hnext, hhighest, hfin, hbusy, hpersist, hsent⟩ :=
    uack_parts (tcpComputeWindowIncr s) (code.hasSyn s.state) (code.hasFin s data.length)
      data.length (segmentSize s code data.length) rfl
  unfold tcpBuild
  rw [if_neg hgoes]
  constructor
  · exact ⟨_, congrArg (· ++ [_]) (hsent.trans hincr.sent), hincr.sendNext, rfl, rfl⟩
  · rw [← hincr.sendNext]
    exact hnext
  · rw [← hincr.sendNext, ← hincr.highest]
    exact hhighest
  · rw [← hincr.sentFin]
    exact hfin
  · rw [← hincr.busy]
    exact hbusy
  · rw [← hincr.persist]
    exact hpersist

/-! ## Answers to a segment -/

theorem answers_reset (env : Env) (s : Session) (rst : Reset) : Answers s (sendReset env s rst) := by
  unfold sendReset
  split
  · exact answers_of rfl
  · exact .refl s

/-- An acknowledgement, of nothing or of numbers that are taken. -/
theorem answers_ackBuffer (env : Env) (s : Session) (n : Nat) :
    Answers s (tcpAckBuffer env s n .ackOnly) := by
  unfold tcpAckBuffer
  split
  · apply Answers.trans _ (.ack _)
    exact answers_of rfl
  · exact .refl s

theorem answers_fin {s : Session} (h : s.state ≠ .synReceived) : Answers s (tcpFin s) := by
  have hmove {st : TcpState} (hsyn : st.hasSyn = s.state.hasSyn)
      (hended : ended st = ended s.state) (hfin : st.hasFin = true → s.state.hasFin = true)
      (hsent : st = .synSent → s.state = .synSent) :
      Answers s { s with state := st, cantRecvMore := true, finSeen := true } := by
    apply (answers_state hsyn hended hfin hsent).trans
    exact answers_of rfl
  unfold tcpFin
  split
  · rename_i hst
    exact absurd hst h
  · rename_i hst
    apply hmove <;> simp [hst, TcpState.hasSyn, TcpState.hasFin, ended]
  · rename_i hst
    apply hmove <;> split <;> simp [hst, TcpState.hasSyn, TcpState.hasFin, ended]
  · rename_i hst
    apply hmove <;> simp [hst, TcpState.hasSyn, TcpState.hasFin, ended]
  · exact .refl s

theorem answers_take (env : Env) {s : Session} (seg : Segment) (h : s.state ≠ .synReceived) :
    Answers s (tcpTake env s seg) := by
  have hfin : Answers s (if seg.fin then tcpFin s else s) := by
    split
    · exact answers_fin h
    · exact .refl s
  unfold tcpTake
  dsimp only
  split
  · exact hfin.trans (answers_ackBuffer env _ _)
  · exact hfin

theorem answers_text (env : Env) {s : Session} (seg : Segment) (h : s.state ≠ .synReceived) :
    Answers s (tcpText env s seg) := by
  unfold tcpText
  split
  · exact answers_ackBuffer env s 0
  · split
    · split
      · exact (answers_reset env s _).trans (answers_delete _)
      · have hqueued : Answers s (enqueue s seg.buf) := answers_of rfl
        exact hqueued.trans (answers_take env seg h)
    · exact answers_take env seg h

variable (sn : SerialOrder)

/-- The acknowledgement of the segment is looked at. -/
def accepts (s : Session) (seg : Segment) : Bool :=
  !sn.greater s.sendUnacknowledged seg.ackNo && !sn.greater seg.ackNo s.sendNext

theorem finAcked_synReceived {s : Session} (h : s.state ≠ .synReceived) :
    (tcpFinAcked s).state ≠ .synReceived :=
  fun hs => h ((same_finAcked s).synReceived hs)

/-- The acknowledgement is taken, and the session lives on to be answered from. -/
def Follows (env : Env) (s : Session) (seg : Segment) (s' : Session) : Prop :=
  (s' = tcpAcked sn env s seg ∧ s'.alive = false) ∨
    Answers (tcpFinAcked (tcpAcked sn env s seg)) s'

theorem tcpUpAck_acks (env : Env) {s : Session} (seg : Segment) (h : s.state ≠ .synReceived) :
    (accepts sn s seg = false ∧ Answers s (tcpUpAck sn env s seg)) ∨
      (accepts sn s seg = true ∧ Follows sn env s seg (tcpUpAck sn env s seg)) := by
  have hstate : (tcpAcked sn env s seg).state ≠ .synReceived := by
    rw [(acked_same sn env s seg).1]
    exact h
  unfold tcpUpAck
  by_cases hold : sn.greater s.sendUnacknowledged seg.ackNo = true
  · left
    rw [if_pos hold]
    exact ⟨by simp [accepts, hold], answers_text env seg h⟩
  · rw [if_neg hold]
    by_cases hfuture : sn.greater seg.ackNo s.sendNext = true
    · left
      rw [if_pos hfuture]
      exact ⟨by simp [accepts, hfuture], answers_ackBuffer env s 0⟩
    · right
      rw [if_neg hfuture]
      refine ⟨by simp [accepts, hold, hfuture], ?_⟩
      dsimp only
      split
      · rename_i hdead
        exact .inl ⟨rfl, by simpa using hdead⟩
      · right
        split
        · exact .refl _
        · exact answers_text env seg (finAcked_synReceived hstate)

/-- The session whose acknowledgement is looked at. -/
def atAck (s : Session) (seg : Segment) : Session :=
  if s.state = .synReceived then tcpSessionEstablished s seg else s

/-- What a segment within the window has to be for its acknowledgement to count. -/
def reachesAck (s : Session) (seg : Segment) : Bool :=
  !seg.rst && !seg.syn && seg.ack && decide (s.state = .synReceived → seg.ackNo = s.sendNext)

theorem tcpUpInWindow_acks (env : Env) (s : Session) (seg : Segment) :
    Answers s (tcpUpInWindow sn env s seg) ∨
      (reachesAck s seg = true ∧
        ((accepts sn (atAck s seg) seg = false ∧
            Answers (atAck s seg) (tcpUpInWindow sn env s seg)) ∨
          (accepts sn (atAck s seg) seg = true ∧
            Follows sn env (atAck s seg) seg (tcpUpInWindow sn env s seg)))) := by
  unfold tcpUpInWindow
  by_cases hrst : seg.rst = true
  · left
    rw [if_pos hrst]
    split
    all_goals first | exact answers_delete s | exact .refl s
  · rw [if_neg hrst]
    by_cases hsyn : seg.syn = true
    · left
      rw [if_pos hsyn]
      split
      · exact answers_delete s
      · exact (answers_reset env s _).trans (answers_delete _)
    · rw [if_neg hsyn]
      by_cases hack : seg.ack = true
      · rw [if_neg (by simp [hack])]
        by_cases hreceived : s.state = .synReceived
        · rw [if_pos hreceived]
          by_cases hacked : seg.ackNo = s.sendNext
          · right
            rw [if_pos hacked]
            have hat : atAck s seg = tcpSessionEstablished s seg := if_pos hreceived
            rw [hat]
            exact ⟨by simp [reachesAck, hrst, hsyn, hack, hacked],
              tcpUpAck_acks sn env seg (by simp [tcpSessionEstablished])⟩
          · left
            rw [if_neg hacked]
            exact answers_reset env s _
        · right
          rw [if_neg hreceived]
          have hat : atAck s seg = s := if_neg hreceived
          rw [hat]
          exact ⟨by simp [reachesAck, hrst, hsyn, hack, hreceived],
            tcpUpAck_acks sn env seg hreceived⟩
      · left
        rw [if_pos (by simpa using hack)]
        exact .refl s

/-- A segment whose acknowledgement counts. -/
def acknowledges (s : Session) (seg : Segment) : Bool :=
  seqOk s seg && reachesAck s (trim sn s seg)

/-- **A segment within the window is answered, after its acknowledgement.** -/
theorem tcpUpWindow_acks (env : Env) (s : Session) (seg : Segment) :
    Answers s (tcpUpWindow sn env s seg) ∨
      (acknowledges sn s seg = true ∧
        ((accepts sn (atAck s (trim sn s seg)) (trim sn s seg) = false ∧
            Answers (atAck s (trim sn s seg)) (tcpUpWindow sn env s seg)) ∨
          (accepts sn (atAck s (trim sn s seg)) (trim sn s seg) = true ∧
            Follows sn env (atAck s (trim sn s seg)) (trim sn s seg)
              (tcpUpWindow sn env s seg)))) := by
  unfold tcpUpWindow
  by_cases hok : seqOk s seg = true
  · rw [if_neg (by simp [hok])]
    rcases tcpUpInWindow_acks sn env s (trim sn s seg) with h | ⟨hreaches, h⟩
    · exact .inl h
    · right
      exact ⟨by simp [acknowledges, hok, hreaches], h⟩
  · left
    rw [if_pos (by simpa using hok)]
    exact answers_ackBuffer env s 0

theorem tcpUpSynSent_acks (env : Env) (s : Session) (seg : Segment) :
    Answers s (tcpUpSynSent sn env s seg) ∨
      ((seg.ack = true → seg.ackNo = s.sendNext) ∧
        tcpUpSynSent sn env s seg = tcpUpWindow sn env s seg) ∨
      (seg.syn = true ∧ seg.rst = false ∧ seg.ack = true ∧ seg.ackNo = s.sendNext ∧
        Answers (tcpSessionEstablished (tcpAckSegment env (readSyn s seg) seg.ackNo) seg)
          (tcpUpSynSent sn env s seg)) ∨
      (seg.syn = true ∧ seg.rst = false ∧ seg.ack = false ∧
        tcpUpSynSent sn env s seg =
          tcpAckBuffer env { readSyn s seg with state := .synReceived } 1 .synAck) := by
  unfold tcpUpSynSent
  by_cases hother : seg.ack = true ∧ seg.ackNo ≠ s.sendNext
  · left
    rw [if_pos hother]
    split
    · exact .refl s
    · exact answers_reset env s _
  · rw [if_neg hother]
    by_cases hrst : seg.rst = true
    · left
      rw [if_pos hrst]
      split
      · exact answers_delete s
      · exact .refl s
    · rw [if_neg hrst]
      have hrst := Bool.eq_false_of_not_eq_true hrst
      have hsome : seg.ack = true → seg.ackNo = s.sendNext :=
        fun hack => not_not.mp fun hne => hother ⟨hack, hne⟩
      right
      by_cases hsyn : seg.syn = true
      · right
        rw [if_pos hsyn]
        by_cases hack : seg.ack = true
        · left
          have hackNo := hsome hack
          refine ⟨hsyn, hrst, hack, hackNo, ?_⟩
          dsimp only
          rw [if_pos hack]
          exact answers_text env seg (by simp [tcpSessionEstablished])
        · right
          exact ⟨hsyn, hrst, Bool.eq_false_of_not_eq_true hack, if_neg hack⟩
      · left
        rw [if_neg hsyn]
        exact ⟨hsome, rfl⟩

/-- The window checks leave the acknowledgement alone. -/
theorem trim_ack (s : Session) (seg : Segment) :
    (trim sn s seg).ack = seg.ack ∧ (trim sn s seg).ackNo = seg.ackNo := by
  unfold trim stripFollowing stripPreceding
  dsimp only
  split <;> split <;> exact ⟨rfl, rfl⟩

theorem tcpUp_acks (env : Env) (s : Session) (seg : Segment) :
    Answers s (tcpUp sn env s seg) ∨
      (seg.malformed = false ∧ s.state = .synSent ∧
        tcpUp sn env s seg = tcpUpSynSent sn env s seg) ∨
      (seg.malformed = false ∧ s.state ≠ .synSent ∧
        tcpUp sn env s seg = tcpUpWindow sn env s seg) := by
  unfold tcpUp
  by_cases hclosed : s.state = .closed ∨ seg.malformed = true
  · left
    rw [if_pos hclosed]
    split
    · exact .refl s
    · exact (answers_reset env s _).trans (answers_delete _)
  · rw [if_neg hclosed]
    have hmal : seg.malformed = false :=
      Bool.eq_false_of_not_eq_true fun hm => hclosed (.inr hm)
    by_cases hst : s.state = .synSent
    · right; left
      exact ⟨hmal, hst, if_pos hst⟩
    · rw [if_neg hst]
      split
      · left
        split
        · split
          · exact answers_delete s
          · exact answers_reset env s _
        · exact .refl s
      · right; right
        exact ⟨hmal, hst, rfl⟩

end TcpSession
