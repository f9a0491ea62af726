import Mathlib.Data.List.Chain
import WisunModem.TcpPeer

/-!
# The window that is offered

A session offers the numbers from `receive_next` up to `receive_adv`.  The edge is
raised when there is room for it, and not in small steps; numbers are also taken beyond
it, up to the room there is.  When the numbers taken go beyond the edge and the raise
behind them is withheld as too small, the edge is left behind.

* `windowIncr_cases` — a raise brings the edge to the free space;
* `Sends.raised` — sending raises it once at most;
* `Offered.advance` — numbers are taken within the edge, or it is raised beyond them;
* `window_never_exceeds` — then no run offers room that was not there.
-/

namespace TcpSession

open NsSocket Runs

/-- How far the window offered reaches beyond what is received. -/
def lead (s : Session) : Nat := (s.receiveAdv - s.receiveNext).toNat

/-- The room `tcp_compute_window_incr` goes by. -/
def freeSpace (q : Sockbuf) : Nat := (min (max q.space 0) 0xffff).toNat

/-- `b` does not lie to the left of `a`. -/
def NotLeft (a b : SeqNum) : Prop := (b - a).toNat < 2 ^ 31

/-- The window offered is one there was room for, in all that was sent of it. -/
structure Offered (s : Session) : Prop where
  small : Small s.rcvq
  lead_le : lead s ≤ 0xffff
  room_le : lead s ≤ s.room
  fields : ∀ seg ∈ s.sent, seg.window ≤ seg.room
  chain : s.edges.IsChain NotLeft
  last : ∀ e ∈ s.edges.getLast?, (e - s.receiveNext).toNat ≤ lead s

/-! ## Raising the window -/

/-- The edge is raised to the free space, or not at all. -/
theorem windowIncr_cases {s : Session} (h : lead s ≤ 0xffff) :
    windowIncr s = 0 ∨ lead s + windowIncr s = freeSpace s.rcvq := by
  have hlead : (s.receiveAdv - s.receiveNext).toInt = lead s := by
    rw [BitVec.toInt_eq_toNat_cond]
    unfold lead at h ⊢
    split <;> omega
  unfold windowIncr
  dsimp only
  rw [hlead]
  by_cases hleft : min (max s.rcvq.space 0) 0xffff < (lead s : Int)
  · left
    rw [if_pos hleft]
  · rw [if_neg hleft]
    have hadv : s.receiveAdv = s.receiveNext.plus (lead s) := by
      have heq := s.receiveNext.eq_plus s.receiveAdv
      rwa [hlead] at heq
    have hincr : (s.receiveNext.plus (min (max s.rcvq.space 0) 0xffff) - s.receiveAdv).toNat %
        2 ^ 16 = freeSpace s.rcvq - lead s := by
      rw [hadv, SeqNum.toNat_plus_sub]
      unfold freeSpace
      omega
    rw [hincr]
    split
    · exact .inl rfl
    · right
      unfold freeSpace
      omega

theorem freeSpace_le (q : Sockbuf) : freeSpace q ≤ 0xffff ∧ freeSpace q ≤ q.space.toNat := by
  unfold freeSpace
  omega

/-- Only the queue, the edges and the MSS decide. -/
theorem windowIncr_congr {s s' : Session} (hnext : s'.receiveNext = s.receiveNext)
    (hadv : s'.receiveAdv = s.receiveAdv) (hrcvq : s'.rcvq = s.rcvq)
    (hmss : s'.sendMssEff = s.sendMssEff) : windowIncr s' = windowIncr s := by
  unfold windowIncr
  rw [hnext, hadv, hrcvq, hmss]

/-- The edges behind `tcp_compute_window_incr`. -/
theorem incr_adv (s : Session) :
    (tcpComputeWindowIncr s).receiveAdv = s.receiveAdv + BitVec.ofNat 32 (windowIncr s) := by
  unfold tcpComputeWindowIncr
  split
  · rename_i hzero
    rw [hzero]
    exact (BitVec.add_zero _).symm
  · rfl

theorem incr_same (s : Session) :
    (tcpComputeWindowIncr s).receiveNext = s.receiveNext ∧
      (tcpComputeWindowIncr s).sent = s.sent ∧ (tcpComputeWindowIncr s).edges = s.edges ∧
      (tcpComputeWindowIncr s).rcvq = s.rcvq := by
  unfold tcpComputeWindowIncr
  split <;> exact ⟨rfl, rfl, rfl, rfl⟩

theorem windowIncr_lt (s : Session) : windowIncr s < 2 ^ 16 := by
  unfold windowIncr
  dsimp only
  split
  · omega
  · split
    · omega
    · exact Nat.mod_lt _ (by omega)

theorem lead_incr {s : Session} (h : lead s ≤ 0xffff) :
    lead (tcpComputeWindowIncr s) = lead s + windowIncr s := by
  have hlt := windowIncr_lt s
  unfold lead at h ⊢
  rw [incr_adv, (incr_same s).1]
  bv_omega

/-- The edge stays where there was room for it, or goes where there is. -/
theorem raised_within {s : Session} (hlead : lead s ≤ 0xffff) (hroom : lead s ≤ s.room) :
    lead (tcpComputeWindowIncr s) ≤ 0xffff ∧
      lead (tcpComputeWindowIncr s) ≤ (tcpComputeWindowIncr s).room := by
  have hincr := lead_incr hlead
  have hle := freeSpace_le s.rcvq
  have hcases := windowIncr_cases hlead
  refine ⟨by omega, ?_⟩
  unfold tcpComputeWindowIncr at hincr ⊢
  split
  · exact hroom
  · rename_i hraise
    rw [if_neg hraise] at hincr
    dsimp only
    omega

/-- A raise is made once. -/
theorem windowIncr_raised {s s' : Session} (h : lead s ≤ 0xffff)
    (hnext : s'.receiveNext = s.receiveNext) (hrcvq : s'.rcvq = s.rcvq)
    (hadv : s'.receiveAdv = s.receiveAdv + BitVec.ofNat 32 (windowIncr s))
    (hraise : windowIncr s ≠ 0) : windowIncr s' = 0 := by
  have hlead' : lead s' = lead s + windowIncr s := by
    rw [← lead_incr h]
    unfold lead
    rw [incr_adv, (incr_same s).1, hnext, hadv]
  rcases windowIncr_cases h with hzero | hspace
  · exact absurd hzero hraise
  · have hle := freeSpace_le s.rcvq
    rcases windowIncr_cases (s := s') (by omega) with hzero' | hspace'
    · exact hzero'
    · rw [hrcvq] at hspace'
      omega

/-- An edge within the window is not to the right of a raised one. -/
theorem notLeft_raised {s : Session} {e : SeqNum} (hlead : lead s ≤ 0xffff)
    (hlast : (e - s.receiveNext).toNat ≤ lead s) (hlt : windowIncr s < 2 ^ 16) :
    NotLeft e (tcpComputeWindowIncr s).receiveAdv := by
  unfold NotLeft
  rw [incr_adv]
  unfold lead at hlead hlast
  bv_omega

/-! ## Segments that are sent -/

/-- A segment goes out with the window as it is raised. -/
theorem offered_build {s : Session} (code : Code) (data : List UInt8)
    (hgoes : ¬(data.length ≠ 0 ∧ s.sentFin = true)) (hsmall : Small s.rcvq)
    (hlead : lead (tcpComputeWindowIncr s) ≤ 0xffff)
    (hroom : lead (tcpComputeWindowIncr s) ≤ (tcpComputeWindowIncr s).room)
    (hfields : ∀ seg ∈ s.sent, seg.window ≤ seg.room) (hchain : s.edges.IsChain NotLeft)
    (hlast : ∀ e ∈ s.edges.getLast?, NotLeft e (tcpComputeWindowIncr s).receiveAdv) :
    Offered (tcpBuild s code data) := by
  obtain ⟨hnext, hsent, hedges, hrcvq⟩ := incr_same s
  unfold tcpBuild
  rw [if_neg hgoes]
  dsimp only
  generalize tcpComputeWindowIncr s = u at *
  have huack (syn fin : Bool) (len : Nat) :
      (tcpUackSegment u syn fin len).receiveNext = u.receiveNext ∧
        (tcpUackSegment u syn fin len).receiveAdv = u.receiveAdv ∧
        (tcpUackSegment u syn fin len).rcvq = u.rcvq ∧
        (tcpUackSegment u syn fin len).room = u.room ∧
        (tcpUackSegment u syn fin len).sent = u.sent ∧
        (tcpUackSegment u syn fin len).edges = u.edges := by
    unfold tcpUackSegment
    dsimp only
    split <;> exact ⟨rfl, rfl, rfl, rfl, rfl, rfl⟩
  obtain ⟨hn, ha, hq, hr, hs, he⟩ :=
    huack (code.hasSyn s.state) (code.hasFin s data.length) data.length
  generalize tcpUackSegment u (code.hasSyn s.state) (code.hasFin s data.length) data.length = v
    at *
  have hwindow : (u.receiveAdv - u.receiveNext).toNat % 2 ^ 16 = lead u := by
    unfold lead at hlead ⊢
    omega
  have hedge : v.receiveNext + BitVec.ofNat 32 (lead u) = u.receiveAdv := by
    rw [hn]
    unfold lead
    rw [BitVec.ofNat_toNat, BitVec.setWidth_eq]
    bv_omega
  have hleadv : lead v = lead u := by
    unfold lead
    rw [hn, ha]
  rw [hwindow, hedge]
  constructor
  · rw [hq, hrcvq]
    exact hsmall
  · exact hleadv ▸ hlead
  · change lead v ≤ v.room
    rw [hleadv, hr]
    exact hroom
  · intro seg hseg
    rw [hs, hsent, List.mem_append, List.mem_singleton] at hseg
    rcases hseg with hold | rfl
    · exact hfields seg hold
    · exact hroom
  · rw [he, hedges]
    apply hchain.append (List.isChain_singleton _)
    intro e hlaste edge hnew
    cases hnew
    exact hlast e hlaste
  · intro e hlaste
    rw [List.getLast?_append, List.getLast?_singleton] at hlaste
    cases hlaste
    change (u.receiveAdv - v.receiveNext).toNat ≤ lead v
    rw [hn, hleadv]
    exact Nat.le_refl _

theorem Offered.build {s : Session} (h : Offered s) (code : Code) (data : List UInt8) :
    Offered (tcpBuild s code data) := by
  by_cases hgoes : data.length ≠ 0 ∧ s.sentFin = true
  · have hskip : tcpBuild s code data = s := if_pos hgoes
    rw [hskip]
    exact h
  · obtain ⟨hlead, hroom⟩ := raised_within h.lead_le h.room_le
    apply offered_build code data hgoes h.small hlead hroom
    · exact h.fields
    · exact h.chain
    · intro e he
      exact notLeft_raised h.lead_le (h.last e he) (windowIncr_lt s)

/-- The window is raised, and nothing sent. -/
theorem Offered.incr {s : Session} (h : Offered s) : Offered (tcpComputeWindowIncr s) := by
  have hlead := lead_incr h.lead_le
  obtain ⟨hlead', hroom'⟩ := raised_within h.lead_le h.room_le
  obtain ⟨hnext, hsent, hedges, hrcvq⟩ := incr_same s
  constructor
  · rw [hrcvq]
    exact h.small
  · exact hlead'
  · exact hroom'
  · rw [hsent]
    exact h.fields
  · rw [hedges]
    exact h.chain
  · rw [hedges, hnext]
    intro e he
    have hlast := h.last e he
    omega

/-- The receiving side is the same, whatever the state is. -/
theorem Offered.same {s s' : Session} (h : Offered s) (hnext : s'.receiveNext = s.receiveNext)
    (hadv : s'.receiveAdv = s.receiveAdv) (hsmall : Small s'.rcvq) (hroom : s'.room = s.room)
    (hsent : s'.sent = s.sent) (hedges : s'.edges = s.edges) : Offered s' := by
  have hlead : lead s' = lead s := by
    unfold lead
    rw [hnext, hadv]
  constructor
  · exact hsmall
  · rw [hlead]
    exact h.lead_le
  · rw [hlead, hroom]
    exact h.room_le
  · rw [hsent]
    exact h.fields
  · rw [hedges]
    exact h.chain
  · rw [hedges, hnext, hlead]
    exact h.last

theorem Sends.offered {s s' : Session} (hs : Sends s s') (h : Offered s) : Offered s' := by
  induction hs with
  | aside haside =>
      apply h.same haside.receiveNext haside.receiveAdv _ haside.room haside.sent haside.edges
      rw [haside.rcvq]
      exact h.small
  | build s code data => exact h.build code data
  | trans _ _ ih ih' => exact ih' (ih h)

/-- Sending raises the edge once at most. -/
theorem Sends.raised {s s' : Session} (hs : Sends s s') (h : Offered s) :
    s'.receiveAdv = s.receiveAdv ∨
      s'.receiveAdv = s.receiveAdv + BitVec.ofNat 32 (windowIncr s) := by
  induction hs with
  | aside haside => exact .inl haside.receiveAdv
  | build s code data =>
      unfold tcpBuild
      split
      · exact .inl rfl
      · right
        rw [← incr_adv s]
        dsimp only
        generalize code.hasSyn s.state = syn
        generalize code.hasFin s data.length = fin
        unfold tcpUackSegment
        dsimp only
        split <;> rfl
  | @trans s s' s'' hfirst hsecond ih ih' =>
      have hkeeps := hfirst.keeps
      have hnext := ih' (hfirst.offered h)
      rcases ih h with hadv | hadv
      · have hcongr : windowIncr s' = windowIncr s :=
          windowIncr_congr hkeeps.receiveNext hadv hkeeps.rcvq hkeeps.sendMssEff
        rw [hcongr, hadv] at hnext
        exact hnext
      · by_cases hraise : windowIncr s = 0
        · have hadv' : s'.receiveAdv = s.receiveAdv := by
            rw [hadv, hraise]
            exact BitVec.add_zero _
          have hcongr : windowIncr s' = windowIncr s :=
            windowIncr_congr hkeeps.receiveNext hadv' hkeeps.rcvq hkeeps.sendMssEff
          rw [hcongr, hadv'] at hnext
          exact hnext
        · have hdone : windowIncr s' = 0 :=
            windowIncr_raised h.lead_le hkeeps.receiveNext hkeeps.rcvq hadv hraise
          rw [hdone, hadv] at hnext
          right
          rcases hnext with h1 | h1
          · exact h1
          · rw [h1]
            exact BitVec.add_zero _

/-! ## Numbers that are taken -/

/-- When `n` numbers are taken, a window which reaches `lead` numbers far covers them, or
the raise behind them is no small one. -/
def covers (q : Sockbuf) (mss lead n : Nat) : Bool :=
  decide (n ≤ lead) ||
    decide (freeSpace q + (n - lead) < 2 ^ 16 ∧
      (q.dataByteLimit / 2 ≤ freeSpace q + (n - lead) ∨ mss ≤ freeSpace q + (n - lead)))

/-- Numbers beyond the edge leave it behind, and a raise catches up. -/
theorem windowIncr_beyond {s : Session} {n : Nat} (_hlow : lead s ≤ 0xffff) (hbeyond : lead s < n)
    (hfits : freeSpace s.rcvq + (n - lead s) < 2 ^ 16)
    (hlarge : s.rcvq.dataByteLimit / 2 ≤ freeSpace s.rcvq + (n - lead s) ∨
      s.sendMssEff ≤ freeSpace s.rcvq + (n - lead s)) :
    windowIncr { s with receiveNext := s.receiveNext + BitVec.ofNat 32 n } =
      freeSpace s.rcvq + (n - lead s) := by
  have hadv : s.receiveAdv = s.receiveNext.plus (lead s) := by
    unfold lead SeqNum.plus
    bv_omega
  have hnext : s.receiveNext + BitVec.ofNat 32 n = s.receiveNext.plus n := by
    nth_rewrite 1 [← s.receiveNext.plus_zero]
    rw [SeqNum.plus_add]
    congr 1
    omega
  have hbehind : (s.receiveNext.plus (lead s) - s.receiveNext.plus n).toInt = lead s - n := by
    apply SeqNum.toInt_plus_sub <;> omega
  have hincr : (s.receiveNext.plus (n + min (max s.rcvq.space 0) 0xffff) -
      s.receiveNext.plus (lead s)).toNat % 2 ^ 16 = freeSpace s.rcvq + (n - lead s) := by
    rw [SeqNum.toNat_plus_sub]
    unfold freeSpace at hfits ⊢
    omega
  unfold windowIncr
  dsimp only
  rw [hnext, hadv, hbehind, if_neg (by omega), SeqNum.plus_plus, hincr, if_neg (by omega)]

/-- **Numbers are taken within the edge, or it is raised beyond them.** -/
theorem Offered.advance {s : Session} (h : Offered s) {n : Nat} (code : Code)
    (hcovers : covers s.rcvq s.sendMssEff (lead s) n = true) :
    Offered (tcpBuild { s with receiveNext := s.receiveNext + BitVec.ofNat 32 n } code []) := by
  have hnothing (u : Session) : ¬(([] : List UInt8).length ≠ 0 ∧ u.sentFin = true) := by simp
  have hlow := h.lead_le
  have hroom := h.room_le
  have hle := freeSpace_le s.rcvq
  have hraised : lead (tcpComputeWindowIncr
        { s with receiveNext := s.receiveNext + BitVec.ofNat 32 n }) ≤ 0xffff ∧
      lead (tcpComputeWindowIncr { s with receiveNext := s.receiveNext + BitVec.ofNat 32 n }) ≤
        (tcpComputeWindowIncr
          { s with receiveNext := s.receiveNext + BitVec.ofNat 32 n }).room := by
    rw [covers, Bool.or_eq_true, decide_eq_true_eq, decide_eq_true_eq] at hcovers
    by_cases hwithin : n ≤ lead s
    · have hlead : lead { s with receiveNext := s.receiveNext + BitVec.ofNat 32 n } =
          lead s - n := by
        unfold lead at hlow hwithin ⊢
        bv_omega
      apply raised_within
      · omega
      · change _ ≤ s.room
        omega
    · obtain ⟨hfits, hlarge⟩ := hcovers.resolve_left hwithin
      have hincr := windowIncr_beyond hlow (Nat.lt_of_not_le hwithin) hfits hlarge
      have hlead : lead (tcpComputeWindowIncr
          { s with receiveNext := s.receiveNext + BitVec.ofNat 32 n }) = freeSpace s.rcvq := by
        unfold lead
        rw [incr_adv, (incr_same _).1, hincr]
        unfold lead at hlow hwithin hfits ⊢
        bv_omega
      rw [hlead]
      refine ⟨hle.1, ?_⟩
      unfold tcpComputeWindowIncr
      rw [hincr, if_neg (by omega)]
      exact hle.2
  refine offered_build code [] (hnothing _) h.small hraised.1 hraised.2 h.fields h.chain ?_
  intro e he
  have hlast := h.last e he
  have hlt := windowIncr_lt { s with receiveNext := s.receiveNext + BitVec.ofNat 32 n }
  unfold NotLeft
  rw [incr_adv]
  unfold lead at hlast hlow
  dsimp only
  bv_omega

/-- The numbers of a segment are covered, whether or not the edge is raised before. -/
def coversText (s : Session) (seg : Segment) : Bool :=
  covers (takeData s seg).rcvq s.sendMssEff (lead s) seg.segLen &&
    covers (takeData s seg).rcvq s.sendMssEff (lead s + windowIncr s) seg.segLen

theorem small_appendAndCompress {q : Sockbuf} (h : Small q) (buf : Buffer) :
    Small (q.appendAndCompress buf) := by
  unfold Small
  rw [Sockbuf.limit_appendAndCompress]
  exact h

theorem Offered.takeData {s : Session} (h : Offered s) (seg : Segment) :
    Offered (takeData s seg) := by
  unfold TcpSession.takeData
  split
  · exact h.same rfl rfl (small_appendAndCompress h.small _) rfl rfl rfl
  · exact h

theorem tcpFin_same (s : Session) :
    (tcpFin s).receiveNext = s.receiveNext ∧ (tcpFin s).receiveAdv = s.receiveAdv ∧
      (tcpFin s).rcvq = s.rcvq ∧ (tcpFin s).room = s.room ∧ (tcpFin s).sent = s.sent ∧
      (tcpFin s).edges = s.edges ∧ (tcpFin s).sendMssEff = s.sendMssEff := by
  unfold tcpFin
  split
  all_goals exact ⟨rfl, rfl, rfl, rfl, rfl, rfl, rfl⟩

/-- The text of a segment is taken, from a session which has only sent since `s`. -/
theorem Offered.take {env : Env} {s u : Session} {seg : Segment} (h : Offered u)
    (hadv : u.receiveAdv = s.receiveAdv ∨
      u.receiveAdv = s.receiveAdv + BitVec.ofNat 32 (windowIncr s))
    (hnext : u.receiveNext = s.receiveNext) (hlead : lead s ≤ 0xffff)
    (hqueue : (TcpSession.takeData u seg).rcvq = (TcpSession.takeData s seg).rcvq)
    (hmss : u.sendMssEff = s.sendMssEff)
    (hcovers : env.ack = true → coversText s seg = true) :
    Offered (tcpTake env (TcpSession.takeData u seg) seg) := by
  have hdata := h.takeData seg
  have hsame : (TcpSession.takeData u seg).receiveNext = u.receiveNext ∧
      (TcpSession.takeData u seg).receiveAdv = u.receiveAdv ∧
      (TcpSession.takeData u seg).sendMssEff = u.sendMssEff := by
    unfold TcpSession.takeData
    split <;> exact ⟨rfl, rfl, rfl⟩
  generalize TcpSession.takeData u seg = v at *
  have hfin : Offered (if seg.fin then tcpFin v else v) ∧
      (if seg.fin then tcpFin v else v).receiveNext = v.receiveNext ∧
      (if seg.fin then tcpFin v else v).receiveAdv = v.receiveAdv ∧
      (if seg.fin then tcpFin v else v).rcvq = v.rcvq ∧
      (if seg.fin then tcpFin v else v).sendMssEff = v.sendMssEff := by
    obtain ⟨hn, ha, hq, hr, hs, he, hm⟩ := tcpFin_same v
    split
    · exact ⟨hdata.same hn ha (hq ▸ hdata.small) hr hs he, hn, ha, hq, hm⟩
    · exact ⟨hdata, rfl, rfl, rfl, rfl⟩
  unfold tcpTake
  dsimp only
  generalize (if seg.fin then tcpFin v else v) = w at *
  obtain ⟨hw, hwn, hwa, hwq, hwm⟩ := hfin
  split
  · unfold tcpAckBuffer
    split
    · rename_i hack
      have hboth := hcovers hack
      rw [coversText, Bool.and_eq_true] at hboth
      apply hw.advance
      rw [hwq, hqueue, hwm, hsame.2.2, hmss]
      rcases hadv with hadv | hadv
      · have heq : lead w = lead s := by
          unfold lead
          rw [hwn, hwa, hsame.1, hsame.2.1, hnext, hadv]
        rw [heq]
        exact hboth.1
      · have heq : lead w = lead s + windowIncr s := by
          rw [← lead_incr hlead]
          unfold lead
          rw [incr_adv, (incr_same s).1, hwn, hwa, hsame.1, hsame.2.1, hnext, hadv]
        rw [heq]
        exact hboth.2
    · exact hw
  · exact hw

/-! ## Runs -/

/-- What the window has to cover when a segment comes. -/
def Covered (sn : SerialOrder) (s : Session) (env : Env) (buf : Buffer) : Prop :=
  ∀ seg ∈ tcpParse buf, seg.malformed = false → env.ack = true →
    if s.state = .synSent ∧ seg.syn = true then
      if seg.ack then
        nextText (tcpSessionEstablished (readSyn s seg) seg) seg = true →
          coversText (tcpSessionEstablished (readSyn s seg) seg) seg = true
      else covers s.rcvq (tcpRethinkMss seg.mss) 0 1 = true
    else consumes sn s seg = true → coversText (atText s) (trim sn s seg) = true

instance (sn : SerialOrder) (s : Session) (env : Env) (buf : Buffer) :
    Decidable (Covered sn s env buf) :=
  inferInstanceAs (Decidable (∀ seg ∈ tcpParse buf, _))

def Act.covered (sn : SerialOrder) (s : Session) : Act → Prop
  | .segment env true buf => Covered sn s env buf
  | _ => True

instance (sn : SerialOrder) (s : Session) : (a : Act) → Decidable (a.covered sn s)
  | .segment env true buf => inferInstanceAs (Decidable (Covered sn s env buf))
  | .segment _ false _ => isTrue trivial
  | .timer _ | .send _ _ | .recv _ _ | .close _ | .shutdownRead _ | .release => isTrue trivial

variable (sn : SerialOrder) {env : Env} {s : Session} {seg : Segment}

theorem offered_window (h : Offered s) (halive : s.alive = true)
    (hcovered : consumes sn s seg = true → env.ack = true →
      coversText (atText s) (trim sn s seg) = true) :
    Offered (tcpUpWindow sn env s seg) := by
  rcases tcpUpWindow_cases sn halive with hsends | ⟨hconsumes, u, -, hsame, heq⟩
  · exact hsends.offered h
  · rw [heq]
    have hat := (sends_atText s).offered h
    have hkeeps := hsame.sends.keeps
    exact (hsame.sends.offered hat).take (hsame.sends.raised hat) hkeeps.receiveNext
      hat.lead_le (takeData_congr hkeeps.rcvq hsame.takesData _) hkeeps.sendMssEff (hcovered hconsumes)

theorem Offered.readSyn (h : Offered s) (seg : Segment) : Offered (readSyn s seg) := by
  have hnone : lead (TcpSession.readSyn s seg) = 0 := by
    unfold lead TcpSession.readSyn
    simp
  constructor
  · exact h.small
  · omega
  · omega
  · exact h.fields
  · exact .nil
  · intro e he
    cases he

theorem offered_synSent (h : Offered s) (halive : s.alive = true) (hst : s.state = .synSent)
    (hcovered : env.ack = true →
      if s.state = .synSent ∧ seg.syn = true then
        if seg.ack then
          nextText (tcpSessionEstablished (readSyn s seg) seg) seg = true →
            coversText (tcpSessionEstablished (readSyn s seg) seg) seg = true
        else covers s.rcvq (tcpRethinkMss seg.mss) 0 1 = true
      else consumes sn s seg = true → coversText (atText s) (trim sn s seg) = true) :
    Offered (tcpUpSynSent sn env s seg) := by
  have hread := h.readSyn seg
  rcases tcpUpSynSent_cases sn env s seg with hsends | ⟨hsyn, -, heq⟩ |
    ⟨hsyn, -, hack, -, heq⟩ | ⟨hsyn, -, hack, heq⟩
  · exact hsends.offered h
  · rw [heq]
    apply offered_window sn h halive
    intro hconsumes henv
    have hwindow := hcovered henv
    rw [if_neg (by simp [hsyn])] at hwindow
    exact hwindow hconsumes
  · rw [heq]
    have hsends := sends_ackSegment env (readSyn s seg) seg.ackNo
    have hkeeps := hsends.keeps
    have hsent := hsends.offered hread
    have hshut := (ackSegment_same env (readSyn s seg) seg.ackNo).2
    have hraised := hsends.raised hread
    generalize tcpAckSegment env (readSyn s seg) seg.ackNo = v at *
    have hestablished : Offered (tcpSessionEstablished v seg) :=
      hsent.same rfl rfl hsent.small rfl rfl rfl
    rcases tcpText_cases env (tcpSessionEstablished v seg) seg with ⟨hnext, htake⟩ | ⟨-, hsends'⟩
    · rw [htake]
      have htext : nextText (tcpSessionEstablished v seg) seg =
          nextText (tcpSessionEstablished (readSyn s seg) seg) seg := by
        apply nextText_congr
        · exact hkeeps.receiveNext
        · exact hshut
        · rfl
      have hqueue : (takeData (tcpSessionEstablished v seg) seg).rcvq =
          (takeData (tcpSessionEstablished (readSyn s seg) seg) seg).rcvq := by
        apply takeData_congr
        · exact hkeeps.rcvq
        · rfl
      apply Offered.take (s := tcpSessionEstablished (readSyn s seg) seg) hestablished hraised
        hkeeps.receiveNext hread.lead_le hqueue hkeeps.sendMssEff
      intro henv
      have hopened := hcovered henv
      rw [if_pos ⟨hst, hsyn⟩, if_pos hack] at hopened
      exact hopened (htext ▸ hnext)
    · exact hsends'.offered hestablished
  · rw [heq]
    unfold tcpAckBuffer
    split
    · rename_i henv
      have hopened := hcovered henv
      rw [if_pos ⟨hst, hsyn⟩, if_neg (by simp [hack])] at hopened
      have hreceived : Offered { readSyn s seg with state := .synReceived } :=
        hread.same rfl rfl hread.small rfl rfl rfl
      apply hreceived.advance
      have hnone : lead { readSyn s seg with state := .synReceived } = 0 := by
        unfold lead readSyn
        simp
      rw [hnone]
      exact hopened
    · exact hread.same rfl rfl hread.small rfl rfl rfl

theorem offered_step {s t : Session} {a : Act} (h : Offered s) (ha : a.covered sn s)
    (hstep : step sn s a = some t) : Offered t := by
  unfold step at hstep
  split at hstep
  · cases hstep
  · rename_i halive
    have halive : s.alive = true := by simpa using halive
    cases a with
    | segment env intact buf =>
        cases hstep
        unfold tcpInput
        split
        · exact h
        · rename_i hdropped
          simp only [Bool.or_eq_true, Bool.not_eq_true', decide_eq_true_eq, not_or,
            Bool.not_eq_false] at hdropped
          obtain ⟨rfl, -⟩ := hdropped
          split
          · exact h
          · rename_i seg hparse
            have hcovered := ha seg hparse
            rcases tcpUp_cases sn env s seg with hsends | ⟨hmal, hst, heq⟩ | ⟨hmal, hst, heq⟩
            · exact hsends.offered h
            · rw [heq]
              exact offered_synSent sn h halive hst (hcovered hmal)
            · rw [heq]
              apply offered_window sn h halive
              intro hconsumes henv
              have hwindow := hcovered hmal henv
              rw [if_neg fun hsyn => hst hsyn.1] at hwindow
              exact hwindow hconsumes
    | timer env =>
        cases hstep
        exact (sends_timer env s).offered h
    | send env buf =>
        cases hstep
        exact (sends_send env s buf).offered h
    | recv env len =>
        cases hstep
        have hsmall : Small (s.rcvq.copyToUser true len).2 := by
          unfold Small
          rw [Sockbuf.limit_copyToUser]
          exact h.small
        have hread : Offered { s with rcvq := (s.rcvq.copyToUser true len).2 } :=
          h.same rfl rfl hsmall rfl rfl rfl
        unfold socketRecv
        dsimp only
        split
        · unfold tcpSessionDataReceived
          split
          · exact (sends_ackNothing env _).offered hread.incr
          · exact hread
        · exact hread
    | close env =>
        cases hstep
        exact (sends_close env s).offered h
    | shutdownRead env =>
        cases hstep
        have hshut : Sends s { s with cantRecvMore := true } := sends_of rfl
        have habort : Offered (if s.rcvq.dataBytes ≠ 0 then
            tcpSessionAbort env { s with cantRecvMore := true }
          else { s with cantRecvMore := true }) := by
          split
          · exact (hshut.trans (sends_abort env _)).offered h
          · exact hshut.offered h
        exact habort.same rfl rfl habort.small rfl rfl rfl
    | release =>
        cases hstep
        have hgone : Sends s { s with closed := true, cantRecvMore := true } := sends_of rfl
        exact hgone.offered h

/-- A new session; the receive queue of one the peer opens is not set to 65535 bytes, for
which the window behind the SYN cannot be told from none. -/
inductive Begun : Session → Prop
  | active (isn : SeqNum) (rcvLimit sndLimit : Nat) :
      Begun (tcpSessionOpen (allocate isn rcvLimit sndLimit))
  | passive (isn : SeqNum) (rcvLimit sndLimit : Nat) (seg : Segment) (h : rcvLimit ≠ 0xffff) :
      Begun (passiveOpen (allocate isn rcvLimit sndLimit) seg)

theorem offered_allocate (isn : SeqNum) (rcvLimit sndLimit : Nat) :
    Offered (allocate isn rcvLimit sndLimit) := by
  have hnone : lead (allocate isn rcvLimit sndLimit) = 0 := by
    unfold lead allocate
    simp
  constructor
  · exact small_reserve rcvLimit
  · omega
  · omega
  · intro seg hseg
    cases hseg
  · exact .nil
  · intro e he
    cases he

/-- The first window is all of an empty queue. -/
theorem covers_empty {n : Nat} (mss : Nat) (h : n ≠ 0xffff) :
    covers (Sockbuf.init.reserve n) mss 0 1 = true := by
  have hspace : freeSpace (Sockbuf.init.reserve n) =
      (Sockbuf.init.reserve n).dataByteLimit ∧ (Sockbuf.init.reserve n).dataByteLimit < 0xffff := by
    unfold freeSpace Sockbuf.space Sockbuf.reserve
    split
    · decide
    · simp [Sockbuf.init]
      omega
  simp only [covers, hspace.1, Bool.or_eq_true, decide_eq_true_eq]
  right
  omega

theorem Begun.offered (h : Begun s) : Offered s := by
  cases h with
  | active isn rcvLimit sndLimit =>
      have hnew := offered_allocate isn rcvLimit sndLimit
      have hsyn : Offered { allocate isn rcvLimit sndLimit with state := .synSent } :=
        hnew.same rfl rfl hnew.small rfl rfl rfl
      exact hsyn.build .syn []
  | passive isn rcvLimit sndLimit seg hlimit =>
      have hread := (offered_allocate isn rcvLimit sndLimit).readSyn seg
      have hreceived : Offered
          { readSyn (allocate isn rcvLimit sndLimit) seg with
            sendWindow := seg.window
            passiveOpen := true
            state := .synReceived } :=
        hread.same rfl rfl hread.small rfl rfl rfl
      have hnone : lead
          { readSyn (allocate isn rcvLimit sndLimit) seg with
            sendWindow := seg.window
            passiveOpen := true
            state := .synReceived } = 0 := by
        unfold lead readSyn
        simp
      apply hreceived.advance
      rw [hnone]
      exact covers_empty _ hlimit

/-- **The window offered is one there was room for** in every run in which the numbers
taken lie within it, or the raise behind them is no small one: the edge is not behind
what is received, and never moves to the left. -/
theorem window_never_exceeds (s t : Session) (as : List Act) (hbegun : Begun s)
    (hmeets : Meets (step sn) (fun s a => a.covered sn s) s as)
    (hrun : run (step sn) s as = some t) :
    (t.receiveAdv - t.receiveNext).toNat ≤ 0xffff ∧
      (t.receiveAdv - t.receiveNext).toNat ≤ t.room ∧
      (∀ seg ∈ t.sent, seg.window ≤ seg.room) ∧ t.edges.IsChain NotLeft := by
  have hend := run_invariant Offered (fun s a t hs ha ht => offered_step sn hs ha ht)
    hbegun.offered hmeets hrun
  exact ⟨hend.lead_le, hend.room_le, hend.fields, hend.chain⟩

/-- The window is filled to its edge, the data is read, and the FIN comes. -/
def filled : List Act :=
  [segmentOf 0x50 0x10 101 1 (List.replicate 1024 7),
    segmentOf 0x50 0x10 1125 1 (List.replicate 1024 8), .recv .ample 2048,
    segmentOf 0x50 0x11 2149 1 []]

theorem filled_within :
    ∃ t, run (step .rfc1982) accepted filled = some t ∧ t.receiveNext = 2150 ∧
      t.receiveAdv = 4197 ∧ (t.receiveAdv - t.receiveNext).toNat ≤ t.room := by
  have hrun : ∃ t, run (step .rfc1982) accepted filled = some t ∧ t.receiveNext = 2150 ∧
      t.receiveAdv = 4197 := by
    decide +kernel
  obtain ⟨t, ht, hnext, hadv⟩ := hrun
  refine ⟨t, ht, hnext, hadv, ?_⟩
  exact (window_never_exceeds .rfc1982 accepted t filled (.passive _ _ _ _ (by decide))
    (by decide +kernel) ht).2.1

/-- **A FIN at the edge.**  The FIN behind a window that is filled lies beyond the edge, and
the raise by one is withheld: the session offers 65535 bytes and has no room at all. -/
theorem fin_beyond_edge :
    ∃ t, run (step .rfc1982) accepted
        [segmentOf 0x50 0x10 101 1 (List.replicate 1024 7),
          segmentOf 0x50 0x11 1125 1 (List.replicate 1024 8)] = some t ∧
      t.alive = true ∧ t.receiveNext = 2150 ∧ t.receiveAdv = 2149 ∧ freeSpace t.rcvq = 0 ∧
      t.sent.getLast?.map Sent.window = some 0xffff := by
  decide +kernel

end TcpSession
