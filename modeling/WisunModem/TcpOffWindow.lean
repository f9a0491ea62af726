import WisunModem.TcpInput

/-!
# Segments outside the window

A segment none of whose numbers lies in the receive window is answered with an ACK and
leaves the session as it is, unless its options are malformed: those are looked at
before the window is.
-/

namespace TcpSession

open NsSocket Runs

/-- The number is one of those that may be received. -/
def InWindow (s : Session) (x : SeqNum) : Prop :=
  ((x - s.receiveNext).toNat : Int) < receiveWindow s

/-- No number of the segment is; one without numbers counts as its first.  The empty
segment next in order is welcome even when the window is closed. -/
def OffWindow (s : Session) (seg : Segment) : Prop :=
  (∀ i, i < max 1 seg.segLen → ¬InWindow s (seg.seqNo + BitVec.ofNat 32 i)) ∧
    ¬(receiveWindow s = 0 ∧ seg.segLen = 0 ∧ seg.seqNo = s.receiveNext)

instance (s : Session) (x : SeqNum) : Decidable (InWindow s x) :=
  inferInstanceAs (Decidable (_ < _))

instance (s : Session) (seg : Segment) : Decidable (OffWindow s seg) :=
  inferInstanceAs (Decidable (_ ∧ _))

/-- The states of a connection which is up, or being closed. -/
def connected : TcpState → Bool
  | .established | .finWait1 | .finWait2 | .closeWait | .closing | .lastAck => true
  | _ => false

/-- The session is as it was, but for an ACK with the window that it offers. -/
structure Undisturbed (s s' : Session) : Prop where
  same : s' =
    { s with
      sent := s'.sent
      receiveAdv := s'.receiveAdv
      room := s'.room
      edges := s'.edges }
  ack : (s'.sent = s.sent ∧ s'.receiveAdv = s.receiveAdv) ∨
    (s'.receiveAdv = s.receiveAdv + BitVec.ofNat 32 (windowIncr s) ∧
      s'.sent = s.sent ++
        [{ seqNo := s.sendNext
           ackNo := s.receiveNext
           syn := false
           fin := false
           ack := true
           data := []
           window := (s'.receiveAdv - s.receiveNext).toNat % 2 ^ 16
           room := s'.room }])

theorem Undisturbed.refl (s : Session) : Undisturbed s s := ⟨rfl, .inl ⟨rfl, rfl⟩⟩

theorem undisturbed_ackNothing (env : Env) (s : Session) :
    Undisturbed s (tcpAckBuffer env s 0 .ackOnly) := by
  unfold tcpAckBuffer
  split
  · have hnext : s.receiveNext + BitVec.ofNat 32 0 = s.receiveNext := BitVec.add_zero _
    rw [hnext]
    by_cases hraise : windowIncr s = 0
    · constructor
      · simp [tcpBuild, tcpComputeWindowIncr, tcpUackSegment, Code.hasSyn, Code.hasFin, hraise]
      · right
        simp [tcpBuild, tcpComputeWindowIncr, tcpUackSegment, Code.hasSyn, Code.hasFin,
          Code.hasAck, hraise]
    · constructor
      · simp [tcpBuild, tcpComputeWindowIncr, tcpUackSegment, Code.hasSyn, Code.hasFin, hraise]
      · right
        simp [tcpBuild, tcpComputeWindowIncr, tcpUackSegment, Code.hasSyn, Code.hasFin,
          Code.hasAck, hraise]
  · exact .refl s

/-- A number is in the window when it is within the range that is compared with. -/
theorem inWindow_of_inRange {s : Session} {x : SeqNum} (hopen : receiveWindow s ≠ 0)
    (h : SeqNum.inRange s.receiveNext x (s.receiveNext.plus (receiveWindow s - 1)) = true) :
    InWindow s x := by
  have hnonneg : 0 ≤ receiveWindow s := by
    unfold receiveWindow
    omega
  rw [SeqNum.inRange_iff] at h
  nth_rewrite 3 [← s.receiveNext.plus_zero] at h
  rw [SeqNum.toNat_plus_sub] at h
  have hlt := (x - s.receiveNext).isLt
  unfold InWindow
  omega

/-- The check of `tcp_up` lets nothing in from outside. -/
theorem seqOk_of_offWindow {s : Session} {seg : Segment} (h : OffWindow s seg) :
    seqOk s seg = false := by
  by_contra hne
  have hok := Bool.eq_true_of_not_eq_false hne
  obtain ⟨hout, hclosed⟩ := h
  unfold seqOk at hok
  dsimp only at hok
  split at hok
  · rename_i hzero
    exact hclosed ⟨hzero, of_decide_eq_true hok⟩
  · rename_i hopen
    rw [Bool.or_eq_true, Bool.and_eq_true] at hok
    rcases hok with hfirst | ⟨hpos, hlast⟩
    · apply hout 0 (by omega)
      rw [BitVec.add_zero]
      exact inWindow_of_inRange hopen hfirst
    · have hlen : 0 < seg.segLen := of_decide_eq_true hpos
      apply hout (seg.segLen - 1) (by omega)
      have hend : seg.seqNo.plus (seg.segLen - 1) =
          seg.seqNo + BitVec.ofNat 32 (seg.segLen - 1) := by
        nth_rewrite 2 [← seg.seqNo.plus_zero]
        rw [SeqNum.plus_add]
        congr 1
        omega
      rw [← hend]
      exact inWindow_of_inRange hopen hlast

variable (sn : SerialOrder)

/-- **Segments outside the window leave a connection as it is** exactly when their
options are in order or they are resets: at most an ACK goes out. -/
theorem offWindow_undisturbed (env : Env) (s : Session) (intact : Bool) (buf : Buffer)
    (halive : s.alive = true) (hst : connected s.state = true)
    (hoff : ∀ seg ∈ tcpParse buf, OffWindow s seg) :
    Undisturbed s (tcpInput sn env s intact buf) ↔
      (intact = true → buf.length ≤ 0xffff →
        ∀ seg ∈ tcpParse buf, seg.malformed = false ∨ seg.rst = true) := by
  unfold tcpInput
  split
  · rename_i hdropped
    refine ⟨fun _ hintact hlen => ?_, fun _ => .refl s⟩
    simp [hintact] at hdropped
    omega
  · rename_i hin
    simp only [Bool.or_eq_true, Bool.not_eq_true', decide_eq_true_eq, not_or,
      Bool.not_eq_false] at hin
    obtain ⟨hintact, hlen⟩ := hin
    cases hparse : tcpParse buf with
    | none => exact ⟨fun _ _ _ seg hseg => (by cases hseg), fun _ => .refl s⟩
    | some seg =>
        have hseqOk := seqOk_of_offWindow (hoff seg hparse)
        have hclosed : s.state ≠ .closed := by
          intro heq
          rw [heq] at hst
          cases hst
        have hsent : s.state ≠ .synSent := by
          intro heq
          rw [heq] at hst
          cases hst
        have hwait : s.state ≠ .timeWait := by
          intro heq
          rw [heq] at hst
          cases hst
        dsimp only
        unfold tcpUp
        by_cases hmal : seg.malformed = true
        · rw [if_pos (.inr hmal)]
          split
          · rename_i hrst
            refine ⟨fun _ _ _ seg' hseg => ?_, fun _ => .refl s⟩
            cases hseg
            exact .inr hrst
          · rename_i hrst
            constructor
            · intro hsame
              have hdead : s.alive = false := (congrArg Session.alive hsame.same).symm
              rw [halive] at hdead
              cases hdead
            · intro hfine
              rcases hfine hintact (Nat.le_of_not_lt hlen) seg rfl with h | h
              · rw [hmal] at h
                cases h
              · exact absurd h hrst
        · rw [if_neg (by simp [hclosed, hmal]), if_neg hsent, if_neg (by simp [hwait])]
          unfold tcpUpWindow
          rw [hseqOk]
          constructor
          · intro _ _ _ seg' hseg
            cases hseg
            exact .inl (Bool.eq_false_of_not_eq_true hmal)
          · intro _
            exact undisturbed_ackNothing env s

/-- Bytes of long ago are answered with an ACK. -/
theorem stale_undisturbed :
    ∃ s, run (step .rfc1982) accepted [segmentOf 0x50 0x10 101 1 []] = some s ∧
      Undisturbed s (tcpInput .rfc1982 .ample s true (bytesOf 0x50 0x10 50 1 4096 [1, 2, 3])) := by
  have hrun : ∃ s, run (step .rfc1982) accepted [segmentOf 0x50 0x10 101 1 []] = some s ∧
      s.alive = true ∧ connected s.state = true ∧
      ∀ seg ∈ tcpParse (bytesOf 0x50 0x10 50 1 4096 [1, 2, 3]), OffWindow s seg := by
    decide +kernel
  obtain ⟨s, hs, halive, hst, hoff⟩ := hrun
  refine ⟨s, hs, ?_⟩
  apply (offWindow_undisturbed .rfc1982 .ample s true _ halive hst hoff).mpr
  intro _ _
  decide +kernel

/-- **Malformed options end a connection** from outside the window: an option of length 0
in a segment whose number and acknowledgement fit nothing. -/
theorem malformed_deletes :
    ∃ s, run (step .rfc1982) accepted [segmentOf 0x50 0x10 101 1 []] = some s ∧
      s.alive = true ∧ connected s.state = true ∧
      (∀ seg ∈ tcpParse (bytesOf 0x60 0x10 50 99 4096 [2, 0, 0, 0]), OffWindow s seg) ∧
      (tcpInput .rfc1982 .ample s true (bytesOf 0x60 0x10 50 99 4096 [2, 0, 0, 0])).alive = false ∧
      (tcpInput .rfc1982 .ample s true (bytesOf 0x60 0x10 50 99 4096 [2, 0, 0, 0])).resets ≠
        s.resets := by
  decide +kernel

end TcpSession
