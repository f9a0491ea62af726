import WisunModem.TcpPeer

/-!
# What is received is the peer's stream

A session takes the stream in order, each byte once, as long as every segment it
takes has a whole header, finds memory for its acknowledgement and does not meet a
`TIME_WAIT` which came of the timer.

* `receiving_inOrder` — what is taken of a segment in order continues the stream;
* `receiving_window`, `receiving_synSent` — so does what `tcp_up` takes;
* `received_in_order` — and what any run takes.
-/

namespace TcpSession

open NsSocket Runs

/-! ## Taking the text -/

/-- What was taken is the beginning of the peer's stream, what is queued is the end of
it, and the states know of the FIN. -/
structure Taking (p : Peer) (s : Session) : Prop where
  bytes : s.taken = p.first s.taken.length
  queued : s.rcvq.content <:+ s.taken
  small : Small s.rcvq
  syn : s.state = .synSent → s.taken = []
  fin : s.finSeen = true → p.closedAt = some s.taken.length
  notSeen : open_ s.state = true → s.finSeen = false
  seen : unended s.state = false → s.finSeen = true

/-- And `receive_next` counts it. -/
structure Receiving (p : Peer) (s : Session) : Prop extends Taking p s where
  next : s.alive = true → s.state ≠ .synSent → s.receiveNext = p.irs.plus (1 + received s)

variable {p : Peer}

theorem Keeps.received_eq {s s' : Session} (h : Keeps s s') : received s' = received s := by
  unfold received
  rw [h.taken, h.finSeen]

theorem Taking.keeps {s s' : Session} (ht : Taking p s) (h : Keeps s s') : Taking p s' where
  bytes := by
    rw [h.taken]
    exact ht.bytes
  queued := by
    rw [h.rcvq, h.taken]
    exact ht.queued
  small := by
    rw [h.rcvq]
    exact ht.small
  syn hs := by
    rw [h.taken]
    exact ht.syn (h.synSent.mp hs)
  fin hf := by
    rw [h.taken]
    exact ht.fin (h.finSeen ▸ hf)
  notSeen ho := by
    rw [h.finSeen]
    exact ht.notSeen (h.isOpen ho)
  seen hu := by
    rw [h.finSeen]
    apply ht.seen
    by_contra hne
    rw [h.isUnended (Bool.eq_true_of_not_eq_false hne)] at hu
    cases hu

theorem Receiving.keeps {s s' : Session} (hr : Receiving p s) (h : Keeps s s') :
    Receiving p s' where
  toTaking := hr.toTaking.keeps h
  next halive hst := by
    rw [h.receiveNext, h.received_eq]
    exact hr.next (h.alive halive) fun hs => hst (h.synSent.mpr hs)

/-- The application takes bytes off the queue. -/
theorem Receiving.dequeue {s : Session} (hr : Receiving p s) {sb : Sockbuf}
    (hqueued : sb.content <:+ s.rcvq.content) (hlimit : sb.dataByteLimit = s.rcvq.dataByteLimit) :
    Receiving p { s with rcvq := sb } where
  bytes := hr.bytes
  queued := hqueued.trans hr.queued
  small := by
    unfold Small
    rw [hlimit]
    exact hr.small
  syn := hr.syn
  fin := hr.fin
  notSeen := hr.notSeen
  seen := hr.seen
  next := hr.next

variable {env : Env} {s : Session} {seg : Segment} (sn : SerialOrder)

/-- Bytes which continue the stream are put into the queue. -/
theorem Taking.append (h : Taking p s) (hst : s.state.takesData = true)
    (hcarries : Carries p s.taken.length false seg.fin seg.buf.data) :
    Taking p (enqueue s seg.buf) where
  bytes := by
    unfold enqueue
    dsimp only
    rw [List.length_append, ← hcarries.append]
    congr 1
    exact h.bytes
  queued := by
    unfold enqueue
    dsimp only
    rw [Sockbuf.content_appendAndCompress]
    obtain ⟨front, hfront⟩ := h.queued
    exact ⟨front, by rw [← List.append_assoc, hfront]⟩
  small := by
    unfold Small enqueue
    rw [Sockbuf.limit_appendAndCompress]
    exact h.small
  syn hs := by
    have hs : s.state = .synSent := hs
    rw [hs] at hst
    cases hst
  fin hf := by
    have hf : s.finSeen = true := hf
    rw [h.notSeen (by simp [open_, hst])] at hf
    cases hf
  notSeen := h.notSeen
  seen := h.seen

/-- The FIN is processed where it is due. -/
theorem Taking.finish (h : Taking p s) (hopen : open_ s.state = true)
    (hsyn : s.state ≠ .synSent) (hclosed : p.closedAt = some s.taken.length) :
    Taking p (tcpFin s) ∧ received (tcpFin s) = received s + 1 ∧
      (tcpFin s).receiveNext = s.receiveNext ∧ (tcpFin s).state ≠ .synSent := by
  have hseen := h.notSeen hopen
  have hfin (st : TcpState) (hst : open_ st = false) (hne : st ≠ .synSent) :
      Taking p { s with state := st, cantRecvMore := true, finSeen := true } := by
    refine ⟨h.bytes, h.queued, h.small, fun hs => absurd hs hne, fun _ => hclosed, fun ho => ?_,
      fun _ => rfl⟩
    rw [hst] at ho
    cases ho
  unfold tcpFin
  split
  · exact ⟨hfin .closeWait rfl (by simp), by simp [received, hseen], rfl, by simp⟩
  · exact ⟨hfin .closeWait rfl (by simp), by simp [received, hseen], rfl, by simp⟩
  · dsimp only
    split
    · exact ⟨hfin .timeWait rfl (by simp), by simp [received, hseen], rfl, by simp⟩
    · exact ⟨hfin .closing rfl (by simp), by simp [received, hseen], rfl, by simp⟩
  · exact ⟨hfin .timeWait rfl (by simp), by simp [received, hseen], rfl, by simp⟩
  · rename_i h1 h2 h3 h4
    revert hopen h1 h2 h3 h4 hsyn
    cases s.state <;> simp [open_, TcpState.takesData, TcpState.hasSyn]

/-- With the text taken, `receive_next` goes on by the numbers of the segment. -/
theorem receiving_take (h : Taking p s) (hst : s.state ≠ .synSent)
    (hack : 0 < seg.segLen → env.ack = true)
    (hnext : s.receiveNext + BitVec.ofNat 32 seg.segLen =
      p.irs.plus (1 + received s + seg.fin.toNat))
    (hfin : seg.fin = true →
      open_ s.state = true ∧ p.closedAt = some s.taken.length ∧ 0 < seg.segLen) :
    Receiving p (tcpTake env s seg) := by
  have hfinish : Taking p (if seg.fin then tcpFin s else s) ∧
      received (if seg.fin then tcpFin s else s) = received s + seg.fin.toNat ∧
      (if seg.fin then tcpFin s else s).receiveNext = s.receiveNext ∧
      (if seg.fin then tcpFin s else s).state ≠ .synSent := by
    cases hf : seg.fin
    · exact ⟨h, rfl, rfl, hst⟩
    · obtain ⟨hopen, hclosed, -⟩ := hfin hf
      exact h.finish hopen hst hclosed
  obtain ⟨htaking, hreceived, hrecv, hstate⟩ := hfinish
  unfold tcpTake
  dsimp only
  generalize (if seg.fin then tcpFin s else s) = u at htaking hreceived hrecv hstate ⊢
  split
  · rename_i hpos
    unfold tcpAckBuffer
    rw [if_pos (hack hpos)]
    have hcounted : Receiving p
        { u with receiveNext := u.receiveNext + BitVec.ofNat 32 seg.segLen } := by
      refine ⟨⟨htaking.bytes, htaking.queued, htaking.small, htaking.syn, htaking.fin,
        htaking.notSeen, htaking.seen⟩, fun _ _ => ?_⟩
      dsimp only
      rw [hrecv, hnext]
      congr 1
      change _ = 1 + (received u : Int)
      rw [hreceived]
      omega
    exact hcounted.keeps (transmits_build _ .ackOnly []).keeps
  · rename_i hzero
    have hlen : seg.segLen = 0 := by omega
    have hf : seg.fin = false := by
      by_contra hne
      have := (hfin (Bool.eq_true_of_not_eq_false hne)).2.2
      omega
    refine ⟨htaking, fun _ _ => ?_⟩
    rw [hlen, hf] at hnext
    rw [hrecv, hreceived, hf]
    simpa using hnext

/-- Past the end of the stream nothing is left to carry. -/
theorem Taking.unended_of_carries (h : Taking p s)
    (hcarries : Carries p (received s) false seg.fin seg.buf.data)
    (hsome : seg.buf.length ≠ 0 ∨ seg.fin = true) : s.finSeen = false := by
  by_contra hne
  have hf := Bool.eq_true_of_not_eq_false hne
  have hclosed := h.fin hf
  have hreceived : received s = s.taken.length + 1 := by simp [received, hf]
  rcases hsome with hdata | hfin
  · have := hcarries.within _ hclosed 0 (Nat.pos_of_ne_zero hdata)
    simp at this
    omega
  · obtain ⟨n, hn, heq⟩ := hcarries.last hfin
    rw [hclosed] at hn
    cases hn
    simp at heq
    omega

/-- **What is taken of a segment in order is the next of the peer's stream.** -/
theorem receiving_inOrder (h : Taking p s) (hst : s.state ≠ .synSent ∧ s.state ≠ .synReceived)
    (hack : env.ack = true) (hpos : seg.fin = true → 0 < seg.segLen)
    (hnext : s.receiveNext + BitVec.ofNat 32 seg.segLen =
      p.irs.plus (1 + received s + seg.buf.length + seg.fin.toNat))
    (hcarries : Carries p (received s) false seg.fin seg.buf.data)
    (hwait : s.state = .timeWait → s.finSeen = true) :
    Receiving p (tcpTake env (takeData s seg) seg) := by
  have hopen (hsome : seg.buf.length ≠ 0 ∨ seg.fin = true) :
      s.finSeen = false ∧ s.state.takesData = true := by
    have hunseen := h.unended_of_carries hcarries hsome
    refine ⟨hunseen, ?_⟩
    by_contra hne
    have hclosed : unended s.state = false := by
      revert hne hst hwait
      cases s.state <;> simp [unended, open_, TcpState.takesData, TcpState.hasSyn, hunseen]
    rw [h.seen hclosed] at hunseen
    cases hunseen
  unfold takeData
  by_cases hdata : seg.buf.length ≠ 0 ∧ s.state.takesData = true
  · rw [if_pos hdata]
    obtain ⟨hunseen, htakes⟩ := hopen (.inl hdata.1)
    have hreceived : received s = s.taken.length := by simp [received, hunseen]
    have htaking := h.append hdata.2 (hreceived ▸ hcarries)
    apply receiving_take htaking hst.1 fun _ => hack
    · change s.receiveNext + _ = _
      rw [hnext]
      congr 1
      simp [received, enqueue, Buffer.length]
      omega
    · intro hfin
      refine ⟨by simp [open_, enqueue, htakes], ?_, hpos hfin⟩
      obtain ⟨n, hn, heq⟩ := hcarries.last hfin
      rw [hn]
      congr 1
      simp [hreceived, enqueue] at heq ⊢
      omega
  · rw [if_neg hdata]
    have hempty : seg.buf.length = 0 := by
      by_contra hne
      exact hdata ⟨hne, (hopen (.inl hne)).2⟩
    apply receiving_take h hst.1 fun _ => hack
    · rw [hnext, hempty]
      congr 1
    · intro hfin
      obtain ⟨hunseen, htakes⟩ := hopen (.inr hfin)
      refine ⟨by simp [open_, htakes], ?_, hpos hfin⟩
      obtain ⟨n, hn, heq⟩ := hcarries.last hfin
      rw [hn]
      congr 1
      have hlen : seg.buf.data.length = 0 := hempty
      simp [received, hunseen, hlen] at heq
      omega

/-! ## Segments within the window -/

/-- A session which only sends before the text takes it as the segment found it. -/
theorem Same.waits_seen {s s' : Session} (h : Same s s') (ht : Taking p s)
    (hwait : s.state = .timeWait → s.finSeen = true) (hw : s'.state = .timeWait) :
    s'.finSeen = true := by
  rw [h.sends.keeps.finSeen]
  rcases h.waits hw with h1 | h1
  · exact hwait h1
  · exact ht.seen h1

theorem receiving_window (h : Receiving p s) (halive : s.alive = true) (hst : s.state ≠ .synSent)
    (hsound : consumes sn s seg = true →
      env.ack = true ∧ (s.state = .timeWait → s.finSeen = true) ∧ Counted seg ∧
        Carries p (position s seg.seqNo) seg.syn seg.fin seg.buf.data) :
    Receiving p (tcpUpWindow sn env s seg) := by
  rcases tcpUpWindow_cases sn halive with hsends | ⟨hconsumes, u, hlive, hsame, heq⟩
  · exact h.keeps hsends.keeps
  · rw [heq]
    obtain ⟨henv, hwait, hcount, hcarries⟩ := hsound hconsumes
    simp only [consumes, reachesText, Bool.and_eq_true, Bool.not_eq_true'] at hconsumes
    obtain ⟨⟨hok, hreaches⟩, hnext⟩ := hconsumes
    obtain ⟨d, hplaced⟩ := carries_trim sn h.small hcount hok hcarries hreaches.1.1.1.2
    generalize trim sn s seg = t at *
    have hsends := (sends_atText s).trans hsame.sends
    have hu := h.keeps hsends.keeps
    have hust : u.state ≠ .synSent ∧ u.state ≠ .synReceived :=
      ⟨fun hs => hst (hsends.keeps.synSent.mp hs),
        fun hs => atText_synReceived s (hsame.synReceived hs)⟩
    have hwaited : u.state = .timeWait → u.finSeen = true := by
      apply hsame.waits_seen (h.toTaking.keeps (sends_atText s).keeps)
      unfold atText
      split
      · intro hw
        cases hw
      · exact hwait
    have hlen := hplaced.segLen
    apply receiving_inOrder hu.toTaking hust henv _ _ _ hwaited
    · intro hfin
      rw [hlen, hfin]
      simp
    · rw [hu.next hlive hust.1, SeqNum.plus_add, hlen]
      congr 1
      omega
    · rw [hsends.keeps.received_eq]
      simp only [nextText, Bool.and_eq_true, decide_eq_true_eq] at hnext
      rcases hnext.1.1 with hzero | hseq
      · have hdata : t.buf.data = [] := by
          apply List.length_eq_zero_iff.mp
          unfold Buffer.length at hlen
          omega
        have hfin : t.fin = false := by
          by_contra hne
          rw [Bool.eq_true_of_not_eq_false hne] at hlen
          simp at hlen
          omega
        rw [hdata, hfin]
        exact .nil p _
      · rw [(sends_atText s).keeps.receiveNext, hplaced.seqNo] at hseq
        nth_rewrite 2 [← s.receiveNext.plus_zero] at hseq
        have hw := receiveWindow_lt h.small
        have hlt := hplaced.lt
        have hnonneg := hplaced.nonneg
        have hzero := (SeqNum.plus_inj s.receiveNext (by omega) (by omega)).mp hseq
        have hcarried := hplaced.carries
        rw [hzero] at hcarried
        simpa using hcarried

/-! ## Before the peer's SYN -/

/-- Before the peer's SYN no text is taken, whatever comes. -/
theorem waiting_window (h : Taking p s) (halive : s.alive = true) (hst : s.state = .synSent) :
    Taking p (tcpUpWindow sn env s seg) ∧ (tcpUpWindow sn env s seg).state = .synSent := by
  rcases tcpUpWindow_cases sn halive with hsends | ⟨-, u, -, hsame, heq⟩
  · exact ⟨h.keeps hsends.keeps, hsends.keeps.synSent.mpr hst⟩
  · rw [heq]
    have hsends := (sends_atText s).trans hsame.sends
    have hu := h.keeps hsends.keeps
    have hust := hsends.keeps.synSent.mpr hst
    generalize trim sn s seg = t
    have hdata : takeData u t = u := if_neg (by simp [hust, TcpState.takesData])
    have hfin : (if t.fin then tcpFin u else u) = u := by
      cases t.fin
      · rfl
      · simp [tcpFin, hust]
    unfold tcpTake
    rw [hdata, hfin]
    dsimp only
    split
    · unfold tcpAckBuffer
      split
      · have hframe := transmits_build
          { u with receiveNext := u.receiveNext + BitVec.ofNat 32 t.segLen } .ackOnly []
        refine ⟨Taking.keeps ?_ hframe.keeps, hframe.state.trans hust⟩
        exact ⟨hu.bytes, hu.queued, hu.small, hu.syn, hu.fin, hu.notSeen, hu.seen⟩
      · exact ⟨hu, hust⟩
    · exact ⟨hu, hust⟩

/-- The peer's SYN is taken, and with an acknowledgement the text behind it. -/
def opens (s : Session) (seg : Segment) : Bool :=
  seg.syn && !seg.rst && decide (seg.ack = true → seg.ackNo = s.sendNext) &&
    !(seg.ack && s.cantRecvMore && decide (seg.buf.length ≠ 0))

/-- The peer's SYN is read, and not yet counted. -/
structure Fresh (p : Peer) (s : Session) : Prop extends Taking p s where
  next : s.receiveNext = p.irs
  taken : s.taken = []
  unseen : s.finSeen = false

theorem Fresh.received_eq (h : Fresh p s) : received s = 0 := by
  simp [received, h.taken, h.unseen]

/-- The SYN in a session which waits for it. -/
theorem Taking.fresh {s' : Session} (h : Taking p s) (hst : s.state = .synSent)
    (hnext : s'.receiveNext = p.irs) (htaken : s'.taken = s.taken)
    (hseen : s'.finSeen = s.finSeen) (hrcvq : s'.rcvq = s.rcvq)
    (hunended : unended s'.state = true) : Fresh p s' := by
  have hnone := h.syn hst
  have hunseen : s.finSeen = false := h.notSeen (by simp [hst, open_, TcpState.hasSyn])
  refine ⟨⟨?_, ?_, ?_, fun _ => htaken.trans hnone, fun hf => ?_, fun _ => hseen.trans hunseen,
    fun hu => ?_⟩, hnext, htaken.trans hnone, hseen.trans hunseen⟩
  · rw [htaken]
    exact h.bytes
  · rw [htaken, hrcvq]
    exact h.queued
  · rw [hrcvq]
    exact h.small
  · rw [hseen, hunseen] at hf
    cases hf
  · rw [hunended] at hu
    cases hu

/-- The text of the segment with the SYN and an acknowledgement. -/
theorem Fresh.receiving_text (h : Fresh p s) (hst : s.state = .established)
    (hsyn : seg.syn = true) (hseq : seg.seqNo = p.irs)
    (hsound : refuses s seg = false →
      env.ack = true ∧ Counted seg ∧ Carries p (-1) seg.syn seg.fin seg.buf.data) :
    Receiving p (tcpText env s seg) := by
  have hin : seg.segLen = 0 ∨ seg.seqNo = s.receiveNext := .inr (hseq.trans h.next.symm)
  by_cases hrefuses : refuses s seg = true
  · have hdead := tcpText_refused env hin hrefuses
    rcases tcpText_cases env s seg with ⟨hnext, -⟩ | ⟨-, hsends⟩
    · simp [nextText, hrefuses] at hnext
    · refine ⟨h.keeps hsends.keeps, fun hlive => ?_⟩
      rw [hdead] at hlive
      cases hlive
  · have hrefuses := Bool.eq_false_of_not_eq_true hrefuses
    obtain ⟨henv, ⟨hlen, -⟩, hcarries⟩ := hsound hrefuses
    rw [hsyn] at hlen hcarries
    have hdrop := hcarries.drop (Nat.zero_le _)
    have hpos : seg.segLen ≠ 0 := by
      rw [hlen]
      simp
    rcases tcpText_cases env s seg with ⟨-, heq⟩ | ⟨hnext, -⟩
    · rw [heq]
      apply receiving_inOrder h.toTaking ⟨by simp [hst], by simp [hst]⟩ henv
      · intro _
        exact Nat.pos_of_ne_zero hpos
      · rw [h.next, hlen, h.received_eq]
        nth_rewrite 1 [← p.irs.plus_zero]
        rw [SeqNum.plus_add]
        congr 1
        simp
        omega
      · rw [h.received_eq]
        simpa using hdrop
      · intro hw
        rw [hst] at hw
        cases hw
    · simp [nextText, hrefuses, hseq.trans h.next.symm, hpos] at hnext

/-- The answer to a SYN without one. -/
theorem Fresh.receiving_answer (h : Fresh p s) (henv : env.ack = true) :
    Receiving p (tcpAckBuffer env s 1 .synAck) := by
  unfold tcpAckBuffer
  rw [if_pos henv]
  refine Receiving.keeps ?_ (transmits_build _ .synAck []).keeps
  refine ⟨⟨h.bytes, h.queued, h.small, h.syn, h.fin, h.notSeen, h.seen⟩, fun _ _ => ?_⟩
  dsimp only
  rw [h.next]
  nth_rewrite 1 [← p.irs.plus_zero]
  rw [SeqNum.plus_add]
  congr 1
  simp [received, h.taken, h.unseen]

theorem receiving_synSent (h : Receiving p s) (halive : s.alive = true)
    (hst : s.state = .synSent) (hirs : seg.syn = true → seg.seqNo = p.irs)
    (hsound : opens s seg = true →
      env.ack = true ∧ (seg.ack = true →
        Counted seg ∧ Carries p (-1) seg.syn seg.fin seg.buf.data)) :
    Receiving p (tcpUpSynSent sn env s seg) := by
  rcases tcpUpSynSent_cases sn env s seg with hsends | ⟨-, -, heq⟩ |
    ⟨hsyn, hrst, hack, hackNo, heq⟩ | ⟨hsyn, hrst, hack, heq⟩
  · exact h.keeps hsends.keeps
  · rw [heq]
    have hwaits : Taking p (tcpUpWindow sn env s seg) ∧ _ :=
      waiting_window sn h.toTaking halive hst
    exact ⟨hwaits.1, fun _ hne => absurd hwaits.2 hne⟩
  · rw [heq]
    have hkeeps := (sends_ackSegment env (readSyn s seg) seg.ackNo).keeps
    have hshut := (ackSegment_same env (readSyn s seg) seg.ackNo).2
    have hfresh : Fresh p
        (tcpSessionEstablished (tcpAckSegment env (readSyn s seg) seg.ackNo) seg) :=
      h.fresh hst (hkeeps.receiveNext.trans (hirs hsyn)) hkeeps.taken hkeeps.finSeen hkeeps.rcvq
        rfl
    apply hfresh.receiving_text rfl hsyn (hirs hsyn)
    intro hrefuses
    have hopens : opens s seg = true := by
      simp only [refuses, tcpSessionEstablished, hshut, TcpState.takesData, Bool.and_true]
        at hrefuses
      simp only [opens, hsyn, hrst, hackNo, hack]
      cases hgone : s.cantRecvMore <;> simp_all [readSyn]
    obtain ⟨henv, hdata⟩ := hsound hopens
    exact ⟨henv, hdata hack⟩
  · rw [heq]
    have hopens : opens s seg = true := by simp [opens, hsyn, hrst, hack]
    have hfresh : Fresh p { readSyn s seg with state := .synReceived } :=
      h.fresh hst (hirs hsyn) rfl rfl rfl rfl
    exact hfresh.receiving_answer (hsound hopens).1

/-! ## Runs -/

/-- A segment which is taken has a whole header, finds memory for the acknowledgement
and does not come into a `TIME_WAIT` with the FIN still outstanding. -/
def Sound (s : Session) (env : Env) (buf : Buffer) : Prop :=
  ∀ seg ∈ tcpParse buf, seg.malformed = false →
    if s.state = .synSent then
      opens s seg = true → env.ack = true ∧ (seg.ack = true → 20 ≤ dataOffset buf.data)
    else
      consumes sn s seg = true →
        env.ack = true ∧ 20 ≤ dataOffset buf.data ∧ (s.state = .timeWait → s.finSeen = true)

instance (s : Session) (env : Env) (buf : Buffer) : Decidable (Sound sn s env buf) :=
  inferInstanceAs (Decidable (∀ seg ∈ tcpParse buf, _))

/-- Intact segments come from the peer. -/
def Act.fromPeer (p : Peer) (s : Session) : Act → Prop
  | .segment _ true buf => FromPeer p s buf
  | _ => True

def Act.sound (s : Session) : Act → Prop
  | .segment env true buf => Sound sn s env buf
  | _ => True

instance (p : Peer) (s : Session) : (a : Act) → Decidable (a.fromPeer p s)
  | .segment _ true buf => inferInstanceAs (Decidable (FromPeer p s buf))
  | .segment _ false _ => isTrue trivial
  | .timer _ | .send _ _ | .recv _ _ | .close _ | .shutdownRead _ | .release => isTrue trivial

instance (s : Session) : (a : Act) → Decidable (a.sound sn s)
  | .segment env true buf => inferInstanceAs (Decidable (Sound sn s env buf))
  | .segment _ false _ => isTrue trivial
  | .timer _ | .send _ _ | .recv _ _ | .close _ | .shutdownRead _ | .release => isTrue trivial

theorem receiving_up (h : Receiving p s) (halive : s.alive = true) {buf : Buffer}
    (hlen : buf.length ≤ 0xffff) (hparse : tcpParse buf = some seg) (hpeer : FromPeer p s buf)
    (hsound : Sound sn s env buf) : Receiving p (tcpUp sn env s seg) := by
  have hpeer := hpeer seg hparse
  have hsound := hsound seg hparse
  rcases tcpUp_cases sn env s seg with hsends | ⟨hmal, hst, heq⟩ | ⟨hmal, hst, heq⟩
  · exact h.keeps hsends.keeps
  · rw [heq]
    rw [if_pos hst] at hpeer hsound
    apply receiving_synSent sn h halive hst fun hsyn => (hpeer hsyn).1
    intro hopens
    obtain ⟨henv, hwhole⟩ := hsound hmal hopens
    have hsyn : seg.syn = true := by
      simp only [opens, Bool.and_eq_true] at hopens
      exact hopens.1.1.1
    refine ⟨henv, fun hack => ?_⟩
    obtain ⟨hcount, hdata⟩ := parse_whole hlen hparse (hwhole hack)
    rw [hdata]
    exact ⟨hcount, (hpeer hsyn).2⟩
  · rw [heq]
    rw [if_neg hst] at hpeer hsound
    apply receiving_window sn h halive hst
    intro hconsumes
    obtain ⟨henv, hwhole, hwaits⟩ := hsound hmal hconsumes
    obtain ⟨hcount, hdata⟩ := parse_whole hlen hparse hwhole
    rw [hdata]
    exact ⟨henv, hwaits, hcount, hpeer⟩

theorem receiving_step {s t : Session} {a : Act} (h : Receiving p s)
    (ha : a.fromPeer p s ∧ a.sound sn s) (hstep : step sn s a = some t) : Receiving p t := by
  unfold step at hstep
  split at hstep
  · cases hstep
  · rename_i halive
    have halive : s.alive = true := by simpa using halive
    cases a with
    | segment env intact buf =>
        cases hstep
        unfold tcpInput
        split
        · exact h
        · rename_i hdropped
          simp only [Bool.or_eq_true, Bool.not_eq_true', decide_eq_true_eq, not_or,
            Bool.not_eq_false] at hdropped
          obtain ⟨rfl, hlen⟩ := hdropped
          split
          · exact h
          · rename_i seg hparse
            exact receiving_up sn h halive (Nat.le_of_not_lt hlen) hparse ha.1 ha.2
    | timer env =>
        cases hstep
        exact h.keeps (sends_timer env s).keeps
    | send env buf =>
        cases hstep
        exact h.keeps (sends_send env s buf).keeps
    | recv env len =>
        cases hstep
        have hread : Receiving p { s with rcvq := (s.rcvq.copyToUser true len).2 } := by
          refine h.dequeue ?_ (Sockbuf.limit_copyToUser _ _ _)
          exact ⟨_, Sockbuf.copyToUser_stream s.rcvq len⟩
        unfold socketRecv
        dsimp only
        split
        · unfold tcpSessionDataReceived
          split
          · exact (hread.keeps (transmits_incr _).keeps).keeps (sends_ackNothing env _).keeps
          · exact hread
        · exact hread
    | close env =>
        cases hstep
        exact h.keeps (sends_close env s).keeps
    | shutdownRead env =>
        cases hstep
        have hshut : Sends s { s with cantRecvMore := true } := sends_of rfl
        have habort : Receiving p (if s.rcvq.dataBytes ≠ 0 then
            tcpSessionAbort env { s with cantRecvMore := true }
          else { s with cantRecvMore := true }) := by
          split
          · exact h.keeps (hshut.trans (sends_abort env _)).keeps
          · exact h.keeps hshut.keeps
        exact habort.dequeue ⟨_, List.append_nil _⟩ rfl
    | release =>
        cases hstep
        exact h.keeps (sends_of rfl).keeps

/-- A session of which a SYN is the first segment: its own or the peer's. -/
inductive Opened (p : Peer) : Session → Prop
  | active (isn : SeqNum) (rcvLimit sndLimit : Nat) :
      Opened p (tcpSessionOpen (allocate isn rcvLimit sndLimit))
  | passive (isn : SeqNum) (rcvLimit sndLimit : Nat) (seg : Segment) (h : seg.seqNo = p.irs) :
      Opened p (passiveOpen (allocate isn rcvLimit sndLimit) seg)

theorem Opened.receiving (h : Opened p s) : Receiving p s := by
  cases h with
  | active isn rcvLimit sndLimit =>
      refine Receiving.keeps ?_ (transmits_build _ .syn []).keeps
      refine ⟨⟨rfl, ⟨[], Sockbuf.content_reserve _ _⟩, small_reserve rcvLimit, fun _ => rfl,
        fun hf => ?_, fun _ => rfl, fun hu => ?_⟩, fun _ hne => absurd rfl hne⟩
      · cases hf
      · cases hu
  | passive isn rcvLimit sndLimit seg hseq =>
      refine Fresh.receiving_answer ?_ rfl
      refine ⟨⟨rfl, ⟨[], Sockbuf.content_reserve _ _⟩, small_reserve rcvLimit, fun _ => rfl,
        fun hf => ?_, fun _ => rfl, fun hu => ?_⟩, hseq, rfl, rfl⟩
      · cases hf
      · cases hu

/-- **The peer's stream is received once and in order**, and `receive_next` counts it,
in every run in which no segment is taken that lacks a whole header, the memory for its
acknowledgement or a session that still reads. -/
theorem received_in_order (p : Peer) (s t : Session) (as : List Act) (hopened : Opened p s)
    (hmeets : Meets (step sn) (fun s a => a.fromPeer p s ∧ a.sound sn s) s as)
    (hrun : run (step sn) s as = some t) :
    t.taken = p.first t.taken.length ∧ t.rcvq.content <:+ t.taken ∧
      (t.alive = true → t.state ≠ .synSent →
        t.receiveNext =
          p.irs + BitVec.ofNat 32 (1 + t.taken.length + t.finSeen.toNat)) := by
  have hend := run_invariant (Receiving p) (fun s a t hs ha ht => receiving_step sn hs ha ht)
    hopened.receiving hmeets hrun
  refine ⟨hend.bytes, hend.queued, fun halive hst => ?_⟩
  rw [hend.next halive hst]
  nth_rewrite 2 [← p.irs.plus_zero]
  rw [SeqNum.plus_add]
  congr 1
  unfold received
  omega

/-- A peer which counts its bytes, and closes behind `n`. -/
def counting (n : Option Nat) : Peer where
  irs := 100
  stream k := UInt8.ofNat (k + 1)
  closedAt := n

/-- The last bytes come first, and are repeated with all the others and the FIN. -/
def reordered : List Act :=
  [segmentOf 0x50 0x10 101 1 [], segmentOf 0x50 0x10 103 1 [3, 4],
    segmentOf 0x50 0x10 101 1 [1, 2, 3], segmentOf 0x50 0x11 102 1 [2, 3, 4]]

theorem reordered_in_order :
    ∃ t, run (step .rfc1982) accepted reordered = some t ∧ t.taken = [1, 2, 3, 4] ∧
      t.finSeen = true ∧ t.receiveNext = 106 ∧
      t.taken = (counting (some 4)).first t.taken.length := by
  have hrun : ∃ t, run (step .rfc1982) accepted reordered = some t ∧
      t.taken = [1, 2, 3, 4] ∧ t.finSeen = true ∧ t.receiveNext = 106 := by
    decide +kernel
  obtain ⟨t, ht, htaken, hfin, hnext⟩ := hrun
  refine ⟨t, ht, htaken, hfin, hnext, ?_⟩
  exact (received_in_order .rfc1982 (counting (some 4)) accepted t reordered
    (.passive _ _ _ _ rfl) (by decide +kernel) ht).1

/-- **A header taken for data.**  An acknowledgement whose data offset is zero comes in
order: its header is put into the receive queue. -/
theorem header_received :
    Meets (step .rfc1982) (fun s a => a.fromPeer (counting none) s) accepted
        [segmentOf 0x50 0x10 101 1 [], segmentOf 0 0x10 101 1 []] ∧
      ∃ t, run (step .rfc1982) accepted
          [segmentOf 0x50 0x10 101 1 [], segmentOf 0 0x10 101 1 []] = some t ∧
        t.taken.length = 20 ∧ t.rcvq.content = t.taken ∧
        t.taken ≠ (counting none).first t.taken.length := by
  decide +kernel

end TcpSession
