import WisunModem.Runs
import WisunModem.TcpInput
import WisunModem.TcpSending

/-!
# Acknowledgements of what was sent

`send_next` is the number behind the highest one ever sent, until a retransmission
begins at `send_unacknowledged` again and does not come as far.  As long as every
retransmission does, the peer's acknowledgements are never taken for future ones.

* `reaches_resend` — a retransmission that goes as far as what was in flight;
* `acks_accepted` — then an acknowledgement advances `send_unacknowledged` or is old.
-/

namespace TcpSession

open NsSocket Runs

/-- Everything ever sent lies before `send_next`. -/
def Reaches (s : Session) : Prop := s.sendNext = s.highest

/-- The numbers sent and not acknowledged. -/
def inFlight (s : Session) : Nat := (s.sendNext - s.sendUnacknowledged).toNat

/-- The numbers a retransmission sends. -/
def resent (env : Env) (s : Session) : Nat :=
  if env.segment then
    match s.sndq.bufs with
    | [] => (s.state.hasSyn || s.state.hasFin).toNat
    | buf :: _ =>
        let len := if sendable s buf = 0 then min 1 buf.length else sendable s buf
        (len + s.state.hasSyn.toNat +
          (s.state.hasFin && decide (s.sndq.dataBytes ≤ len)).toNat) % 2 ^ 16
  else 0

/-! ## Sending -/

/-- Numbers sent behind `send_next` are the highest. -/
theorem reaches_build {s : Session} (h : Reaches s) (code : Code) (data : List UInt8) :
    Reaches (tcpBuild s code data) := by
  by_cases hgoes : data.length ≠ 0 ∧ s.sentFin = true
  · have hskip : tcpBuild s code data = s := if_pos hgoes
    rw [hskip]
    exact h
  · have hbuilt := built code hgoes
    unfold Reaches at h ⊢
    rw [hbuilt.sendNext, hbuilt.highest, ← h]
    have hlt : segmentSize s code data.length < 2 ^ 16 := Nat.mod_lt _ (by omega)
    generalize segmentSize s code data.length = size at *
    split
    · rename_i hzero
      rw [hzero]
      exact BitVec.add_zero _
    · rw [SeqNum.furthest_of_le]
      bv_omega

theorem reaches_segmentStart {s : Session} (h : Reaches s) (env : Env) :
    Reaches (tcpSegmentStart env s false) := by
  have hbuild (b : Bool) (data : List UInt8) :
      Reaches (buildSegment env { s with persist := b } data) := by
    unfold buildSegment
    split
    · apply reaches_build
      exact h
    · exact h
  unfold tcpSegmentStart
  simp only [Bool.false_eq_true, if_false]
  split
  · split
    · exact hbuild false []
    · exact h
  · split
    · exact h
    · exact hbuild false _

/-- A segment sent again from `send_unacknowledged` on, as far as what was in flight. -/
theorem reaches_again {s u : Session} (h : Reaches s) {data : List UInt8}
    (hnext : u.sendNext = s.sendUnacknowledged) (hhighest : u.highest = s.highest)
    (hfin : u.sentFin = false)
    (hfar : inFlight s ≤ segmentSize u .fromState data.length) :
    Reaches (tcpBuild u .fromState data) := by
  have hgoes : ¬(data.length ≠ 0 ∧ u.sentFin = true) := by simp [hfin]
  have hbuilt := built .fromState hgoes
  have hlt : segmentSize u .fromState data.length < 2 ^ 16 := Nat.mod_lt _ (by omega)
  unfold Reaches inFlight at *
  rw [hbuilt.sendNext, hbuilt.highest, hnext, hhighest, ← h]
  generalize segmentSize u .fromState data.length = size at *
  split
  · rename_i hzero
    bv_omega
  · rw [SeqNum.furthest_of_le]
    bv_omega

/-- Nothing is sent again, and nothing was in flight. -/
theorem reaches_idle {s u : Session} (h : Reaches s) (hnext : u.sendNext = s.sendUnacknowledged)
    (hhighest : u.highest = s.highest) (hidle : inFlight s = 0) : Reaches u := by
  unfold Reaches inFlight at *
  rw [hnext, hhighest, ← h]
  bv_omega

/-- **A retransmission which goes as far as what was in flight.** -/
theorem reaches_resend {s : Session} {env : Env} (h : Reaches s)
    (hfar : s.retry < retryLimit s.state → inFlight s ≤ resent env s) :
    Reaches (tcpResendSegment env s) := by
  unfold tcpResendSegment
  by_cases hlimit : s.retry ≥ retryLimit s.state
  · rw [if_pos hlimit]
    exact h
  · rw [if_neg hlimit]
    have hfar := hfar (Nat.lt_of_not_le hlimit)
    have hbuild (b : Bool) (data : List UInt8)
        (hsize : env.segment = true → inFlight s ≤
          (data.length + s.state.hasSyn.toNat +
            (s.state.hasFin && decide (s.sndq.dataBytes ≤ data.length)).toNat) % 2 ^ 16) :
        Reaches (buildSegment env
          { s with
            retry := s.retry + 1
            sendNext := s.sendUnacknowledged
            sentFin := false
            persist := b } data) := by
      unfold buildSegment
      by_cases hmem : env.segment = true
      · rw [if_pos hmem]
        exact reaches_again h rfl rfl rfl (hsize hmem)
      · rw [if_neg hmem]
        rw [resent, if_neg hmem] at hfar
        exact reaches_idle h rfl rfl (Nat.le_zero.mp hfar)
    unfold tcpSegmentStart
    simp only [if_true]
    cases hbufs : s.sndq.bufs with
    | nil =>
        have hnone : s.sndq.dataBytes = 0 := by
          rw [s.sndq.data_eq, hbufs]
          rfl
        rw [resent, hbufs] at hfar
        dsimp only at hfar ⊢
        split
        · apply hbuild false []
          intro hmem
          rw [if_pos hmem] at hfar
          apply Nat.le_trans hfar
          cases hst : s.state <;> simp [TcpState.hasSyn, TcpState.hasFin, hnone]
        · rename_i hneither
          have hflags : (s.state.hasSyn || s.state.hasFin) = false := by simpa using hneither
          rw [hflags] at hfar
          have hzero : inFlight s = 0 := by
            split at hfar <;> exact Nat.le_zero.mp hfar
          exact reaches_idle h rfl rfl hzero
    | cons buf bufs =>
        rw [resent, hbufs] at hfar
        dsimp only at hfar ⊢
        have hsame : sendable
            { s with
              retry := s.retry + 1
              sendNext := s.sendUnacknowledged
              sentFin := false } buf = sendable s buf := rfl
        rw [hsame]
        split
        · rename_i hclosed
          apply hbuild s.persist (buf.data.take 1)
          intro hmem
          rw [if_pos hmem, if_pos hclosed] at hfar
          rw [List.length_take]
          exact hfar
        · rename_i hopen
          apply hbuild false (buf.data.take (sendable s buf))
          intro hmem
          rw [if_pos hmem, if_neg hopen] at hfar
          have hlen : (buf.data.take (sendable s buf)).length = sendable s buf := by
            rw [List.length_take]
            unfold sendable Buffer.length
            omega
          rw [hlen]
          exact hfar

theorem reaches_ackSegment {s : Session} (h : Reaches s) (env : Env) (ack : SeqNum) :
    Reaches (tcpAckSegment env s ack) := by
  unfold tcpAckSegment
  dsimp only
  split
  · split
    · apply reaches_segmentStart
      exact h
    · exact h
  · exact h

/-- A pure window update, which sends again what is not acknowledged. -/
def updatesWindow (sn : SerialOrder) (s : Session) (seg : Segment) : Bool :=
  decide (seg.ackNo = s.sendUnacknowledged) && (noteWindow sn s seg).persist &&
    decide (seg.window ≠ 0)

theorem noteWindow_same (sn : SerialOrder) (s : Session) (seg : Segment) :
    (noteWindow sn s seg).sendNext = s.sendNext ∧ (noteWindow sn s seg).highest = s.highest ∧
      (noteWindow sn s seg).sendUnacknowledged = s.sendUnacknowledged := by
  unfold noteWindow
  split <;> exact ⟨rfl, rfl, rfl⟩

theorem reaches_acked {s : Session} {env : Env} {seg : Segment} (sn : SerialOrder)
    (h : Reaches s)
    (hfar : updatesWindow sn s seg = true → inFlight s ≤ resent env (noteWindow sn s seg)) :
    Reaches (tcpAcked sn env s seg) := by
  obtain ⟨hnext, hhighest, huna⟩ := noteWindow_same sn s seg
  have hflight : inFlight (noteWindow sn s seg) = inFlight s := by
    unfold inFlight
    rw [hnext, huna]
  have hnoted : Reaches (noteWindow sn s seg) := by
    unfold Reaches at h ⊢
    rw [hnext, hhighest, h]
  rw [updatesWindow, ← hflight, ← huna] at hfar
  unfold tcpAcked
  dsimp only
  generalize noteWindow sn s seg = u at *
  split
  · exact reaches_ackSegment hnoted env seg.ackNo
  · rename_i hsame
    split
    · rename_i hpersist
      split
      · rename_i hwindow
        apply reaches_resend (s := { u with retry := 0, persist := false }) hnoted
        intro _
        apply hfar
        simp only [not_not] at hsame
        simp [hsame, hpersist, hwindow]
      · exact hnoted
    · exact hnoted

theorem reaches_finAcked {s : Session} (h : Reaches s) : Reaches (tcpFinAcked s) := by
  unfold tcpFinAcked
  split
  · split
    all_goals exact h
  · exact h

theorem Answers.reaches {s s' : Session} (hs : Answers s s') (h : Reaches s) : Reaches s' := by
  induction hs with
  | same hsame =>
      unfold Reaches at h ⊢
      rw [hsame.sendNext, hsame.highest, h]
  | ack s => exact reaches_build h .ackOnly []
  | trans _ _ ih ih' => exact ih' (ih h)

/-! ## Segments -/

variable (sn : SerialOrder)

/-- Where the segment makes the session send again, it sends as far as before. -/
def SendsFar (s : Session) (env : Env) (seg : Segment) : Prop :=
  acknowledges sn s seg = true → accepts sn (atAck s (trim sn s seg)) (trim sn s seg) = true →
    updatesWindow sn (atAck s (trim sn s seg)) (trim sn s seg) = true →
    inFlight s ≤ resent env (noteWindow sn (atAck s (trim sn s seg)) (trim sn s seg))

theorem reaches_window {s : Session} {env : Env} {seg : Segment} (h : Reaches s)
    (hfar : SendsFar sn s env seg) : Reaches (tcpUpWindow sn env s seg) := by
  have hat (t : Segment) : Reaches (atAck s t) ∧ inFlight (atAck s t) = inFlight s := by
    unfold atAck
    split <;> exact ⟨h, rfl⟩
  rcases tcpUpWindow_acks sn env s seg with
    hanswers | ⟨hacks, ⟨-, hanswers⟩ | ⟨haccepts, hfollows⟩⟩
  · exact hanswers.reaches h
  · exact hanswers.reaches (hat _).1
  · have hacked : Reaches (tcpAcked sn env (atAck s (trim sn s seg)) (trim sn s seg)) := by
      apply reaches_acked sn (hat _).1
      rw [(hat _).2]
      exact hfar hacks haccepts
    rcases hfollows with ⟨heq, -⟩ | hanswers
    · rw [heq]
      exact hacked
    · exact hanswers.reaches (reaches_finAcked hacked)

theorem reaches_synSent {s : Session} {env : Env} {seg : Segment} (h : Reaches s)
    (hfar : SendsFar sn s env seg) : Reaches (tcpUpSynSent sn env s seg) := by
  have hread : Reaches (readSyn s seg) := h
  rcases tcpUpSynSent_acks sn env s seg with hanswers | ⟨-, heq⟩ | ⟨-, -, -, -, hanswers⟩ |
    ⟨-, -, -, heq⟩
  · exact hanswers.reaches h
  · rw [heq]
    exact reaches_window sn h hfar
  · apply hanswers.reaches
    exact reaches_ackSegment hread env seg.ackNo
  · rw [heq]
    unfold tcpAckBuffer
    split
    · apply reaches_build
      exact h
    · exact h

/-! ## Runs -/

/-- A retransmission sends at least as far as what is in flight. -/
def Act.far (s : Session) : Act → Prop
  | .segment env true buf => ∀ seg ∈ tcpParse buf, seg.malformed = false → SendsFar sn s env seg
  | .timer env =>
      s.state ≠ .closed → s.state ≠ .timeWait → s.busy = true →
        s.retry < retryLimit s.state → inFlight s ≤ resent env s
  | _ => True

instance (s : Session) (env : Env) (seg : Segment) : Decidable (SendsFar sn s env seg) :=
  inferInstanceAs (Decidable (_ → _))

instance (s : Session) : (a : Act) → Decidable (a.far sn s)
  | .segment _ true buf =>
      inferInstanceAs (Decidable (∀ seg ∈ tcpParse buf, seg.malformed = false → _))
  | .segment _ false _ => isTrue trivial
  | .timer _ => inferInstanceAs (Decidable (_ → _))
  | .send _ _ | .recv _ _ | .close _ | .shutdownRead _ | .release => isTrue trivial

theorem reaches_timer {s : Session} {env : Env} (h : Reaches s)
    (hfar : Act.far sn s (.timer env)) : Reaches (tcpHandleTimeEvent env s) := by
  unfold tcpHandleTimeEvent
  split
  · exact h
  · exact h
  · rename_i hclosed hwait
    split
    · rename_i hbusy
      exact reaches_resend h (hfar hclosed hwait hbusy)
    · split
      · exact h
      · exact h

theorem reaches_close {s : Session} (h : Reaches s) (env : Env) :
    Reaches (tcpSessionClose env s) := by
  unfold tcpSessionClose
  split
  all_goals
    first
    | exact h
    | dsimp only
      split
      · exact h
      · apply reaches_segmentStart
        exact h

theorem reaches_abort {s : Session} (h : Reaches s) (env : Env) :
    Reaches (tcpSessionAbort env s) := by
  have hreset (rst : Reset) : Reaches (tcpSessionDelete (sendReset env s rst)) := by
    unfold sendReset
    split
    · exact h
    · exact h
  unfold tcpSessionAbort
  split
  all_goals first | exact h | exact hreset _

theorem reaches_step {s t : Session} {a : Act} (h : Reaches s) (hfar : a.far sn s)
    (hstep : step sn s a = some t) : Reaches t := by
  unfold step at hstep
  split at hstep
  · cases hstep
  · cases a with
    | segment env intact buf =>
        cases hstep
        unfold tcpInput
        split
        · exact h
        · rename_i hdropped
          simp only [Bool.or_eq_true, Bool.not_eq_true', decide_eq_true_eq, not_or,
            Bool.not_eq_false] at hdropped
          obtain ⟨rfl, -⟩ := hdropped
          cases hparse : tcpParse buf with
          | none => exact h
          | some seg =>
              dsimp only
              rcases tcpUp_acks sn env s seg with hanswers | ⟨hmal, -, heq⟩ | ⟨hmal, -, heq⟩
              · exact hanswers.reaches h
              · rw [heq]
                exact reaches_synSent sn h (hfar seg hparse hmal)
              · rw [heq]
                exact reaches_window sn h (hfar seg hparse hmal)
    | timer env =>
        cases hstep
        exact reaches_timer sn h hfar
    | send env buf =>
        cases hstep
        unfold tcpSessionSend
        split
        · exact h
        · dsimp only
          split
          · exact h
          · apply reaches_segmentStart
            exact h
    | recv env len =>
        cases hstep
        have hincr (u : Session) (hu : Reaches u) : Reaches (tcpComputeWindowIncr u) := by
          unfold tcpComputeWindowIncr
          split
          · exact hu
          · exact hu
        unfold socketRecv
        dsimp only
        split
        · unfold tcpSessionDataReceived
          split
          · unfold tcpAckBuffer
            split
            · apply reaches_build
              exact hincr _ h
            · exact hincr _ h
          · exact h
        · exact h
    | close env =>
        cases hstep
        exact reaches_close h env
    | shutdownRead env =>
        cases hstep
        unfold tcpSessionShutdownRead
        dsimp only
        split
        · have habort := reaches_abort (s := { s with cantRecvMore := true }) h env
          exact habort
        · exact h
    | release =>
        cases hstep
        exact h

theorem Started.reaches {isn : SeqNum} {s : Session} (h : Started isn s) : Reaches s := by
  cases h with
  | active rcvLimit sndLimit =>
      apply reaches_build
      rfl
  | passive rcvLimit sndLimit seg =>
      have hread : Reaches { readSyn (allocate isn rcvLimit sndLimit) seg with
          receiveNext := seg.seqNo + BitVec.ofNat 32 1
          sendWindow := seg.window
          passiveOpen := true
          state := .synReceived } := rfl
      exact reaches_build hread .synAck []

/-- An acknowledgement within what is in flight is taken. -/
theorem acked_una (env : Env) (s : Session) (seg : Segment) :
    (tcpAcked sn env s seg).sendUnacknowledged = seg.ackNo := by
  have hresend (u : Session) :
      (tcpResendSegment env u).sendUnacknowledged = u.sendUnacknowledged := by
    unfold tcpResendSegment
    split
    · rfl
    · exact (transmits_segmentStart env _ true).sendUnacknowledged
  unfold tcpAcked
  dsimp only
  generalize noteWindow sn s seg = u
  split
  · unfold tcpAckSegment
    dsimp only
    split
    · split
      · exact (transmits_segmentStart env _ false).sendUnacknowledged
      · rfl
    · rfl
  · rename_i hsame
    simp only [not_not] at hsame
    split
    · split
      · rw [hresend]
        exact hsame.symm
      · exact hsame.symm
    · exact hsame.symm

/-- **Acknowledgements of what was sent are accepted** in every run whose
retransmissions go as far as what was in flight: up to the highest number ever sent
none is a future one, and each advances `send_unacknowledged` or is old. -/
theorem acks_accepted (isn : SeqNum) (s t : Session) (as : List Act) (hstarted : Started isn s)
    (hmeets : Meets (step sn) (fun s a => a.far sn s) s as)
    (hrun : run (step sn) s as = some t) (env : Env) (seg : Segment)
    (hsent : (t.highest - seg.ackNo).toNat < 2 ^ 31) :
    sn.greater seg.ackNo t.sendNext = false ∧
      (sn.greater t.sendUnacknowledged seg.ackNo = true ∨
        accepts sn t seg = true ∧
          (tcpAcked sn env t seg).sendUnacknowledged = seg.ackNo) := by
  have hreaches : t.sendNext = t.highest := run_invariant Reaches
    (fun _ _ _ hs ha ht => reaches_step sn hs ha ht) hstarted.reaches hmeets hrun
  have hpast : sn.greater seg.ackNo t.sendNext = false := by
    rw [hreaches]
    by_contra hfuture
    rw [Bool.not_eq_false, sn.greater_iff _ _ (by bv_omega)] at hfuture
    bv_omega
  refine ⟨hpast, ?_⟩
  by_cases hold : sn.greater t.sendUnacknowledged seg.ackNo = true
  · exact .inl hold
  · right
    exact ⟨by simp [accepts, hold, hpast], acked_una sn env t seg⟩

/-- A hundred bytes are sent, and sent again. -/
def sentTwice : List Act :=
  [segmentOf 0x50 0x10 101 1 [], .send .ample (.get 0 (List.replicate 100 7)), .timer .ample]

/-- An acknowledgement by this number. -/
def ackOf (window ack : Nat) : Act :=
  .segment .ample true (bytesOf 0x50 0x10 101 ack window [])

/-- The acknowledgement of them all comes late. -/
theorem late_accepted :
    ∃ t seg, run (step .rfc1982) accepted sentTwice = some t ∧
      tcpParse (bytesOf 0x50 0x10 101 101 4096 []) = some seg ∧ t.sendNext = 101 ∧
      SerialOrder.rfc1982.greater seg.ackNo t.sendNext = false := by
  have hrun : ∃ t, run (step .rfc1982) accepted sentTwice = some t ∧ t.sendNext = 101 ∧
      ∃ seg, tcpParse (bytesOf 0x50 0x10 101 101 4096 []) = some seg ∧
        (t.highest - seg.ackNo).toNat < 2 ^ 31 := by
    decide +kernel
  obtain ⟨t, ht, hnext, seg, hseg, hsent⟩ := hrun
  refine ⟨t, seg, ht, hseg, hnext, ?_⟩
  exact (acks_accepted .rfc1982 0 accepted t sentTwice (.passive _ _ _) (by decide +kernel) ht
    .ample seg hsent).1

/-- **A late acknowledgement refused.**  The peer's window shrinks to 10 bytes, the time runs
out, and the acknowledgement of the hundred bytes sent before is one of the future. -/
theorem late_refused :
    ∃ t, run (step .rfc1982) accepted
        [segmentOf 0x50 0x10 101 1 [], .send .ample (.get 0 (List.replicate 100 7)), ackOf 10 1,
          .timer .ample] = some t ∧
      t.alive = true ∧ t.highest = 101 ∧ t.sendNext = 11 ∧
      SerialOrder.rfc1982.greater 101 t.sendNext = true ∧
      ∃ u, step .rfc1982 t (ackOf 10 101) = some u ∧ u.sendUnacknowledged = 1 := by
  decide +kernel

end TcpSession
