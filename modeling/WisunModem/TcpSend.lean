import WisunModem.TcpAcks

/-!
# The stream a session sends

The SYN has position 0, the byte `i` of the stream position `1 + i`, and the FIN the
position behind the last byte.  `Streams` says at which positions the two sequence
numbers of the sending side stand and how many bytes have left the send queue;
sending keeps the one, an acknowledgement moves the other.

* `Streams.segmentStart` — what is sent is the front of the queue, under its number;
* `Streams.ackSegment` — as many bytes leave the queue as are acknowledged;
* `stream_intact` — in every run every byte ever sent stands where its number says.
-/

namespace TcpSession

open NsSocket Runs

variable (isn : SeqNum)

/-- The data and the FIN of a segment have the numbers they have in the stream. -/
def Carried (stream : List UInt8) (seg : Sent) : Prop :=
  ∃ k : Nat, seg.seqNo = isn.plus k ∧
    (seg.data ≠ [] →
      ∃ i, k = 1 + i ∧ seg.data = (stream.drop i).take seg.data.length) ∧
    (seg.fin = true → k + seg.data.length = 1 + stream.length)

/-- The SYN has been given two numbers, and the second is not acknowledged. -/
def Doubled (s : Session) (u n : Nat) : Prop :=
  n = 2 ∧ s.stream.length = 0 ∧ s.sentFin = false ∧ u ≤ 1 ∧
    (s.state.hasSyn = true ∨ ended s.state = true)

/-- `send_unacknowledged` and `send_next` stand at positions `u` and `n`, and `a` bytes
of the stream have left the queue. -/
structure Streams (s : Session) (u n a : Nat) : Prop where
  una : s.sendUnacknowledged = isn.plus u
  next : s.sendNext = isn.plus n
  queue : s.alive = true → s.sndq.content = s.stream.drop a
  order : u ≤ n ∧ n ≤ u + 0xffff
  head : a ≤ s.stream.length ∧
    (u = 0 ∧ s.stream.length = 0 ∨ u = 1 + a ∨
      u = 2 + a ∧ a = s.stream.length ∧ ended s.state = true)
  behind : n ≤ s.stream.length + 1 ∨
    n = s.stream.length + 2 ∧ ended s.state = true ∧ (s.sentFin = true ∨ u = n) ∨
    Doubled s u n
  idle : s.busy = false → n = u ∧ u ≠ 0
  fin : s.sentFin = true → n = s.stream.length + 2 ∧ ended s.state = true
  syn : s.state.hasSyn = true → s.stream.length = 0 ∧ u ≤ 1
  synSent : s.state = .synSent → s.persist = false ∧ n ≤ 1 ∧ (u = 1 → s.busy = false)
  done : u = 2 + a → s.sentFin = true ∨ s.state.hasFin = false
  mss : s.sendMssEff < 0xffff
  carried : ∀ seg ∈ s.sent, Carried isn s.stream seg
  finSent : ∀ seg ∈ s.sent, seg.fin = true → ended s.state = true

/-- Between two calls the handshake is over once the SYN is acknowledged, and so is the
session's end once its FIN is. -/
def Settled (s : Session) : Prop :=
  ∃ u n a, Streams isn s u n a ∧ (u = 0 → s.state.hasSyn = true ∨ ended s.state = true) ∧
    (s.alive = true → u = 2 + a → s.state.hasFin = false)

variable {isn} {s : Session} {u n a : Nat}

theorem ended_hasFin {st : TcpState} (h : st.hasFin = true) : ended st = true := by
  cases st <;> first | rfl | cases h

theorem ended_hasSyn {st : TcpState} (h : ended st = true) : st.hasSyn = false := by
  cases st <;> first | rfl | cases h

/-! ## What the sending side does not read -/

/-- The invariant is about the fields the sending side keeps. -/
theorem Streams.of_same (h : Streams isn s u n a) {s' : Session} (hs : SendSame s s') :
    Streams isn s' u n a where
  una := hs.sendUnacknowledged.trans h.una
  next := hs.sendNext.trans h.next
  queue halive := by
    rw [hs.sndq halive, hs.stream]
    exact h.queue (hs.alive halive)
  order := h.order
  head := by
    rw [hs.stream, hs.ended]
    exact h.head
  behind := by
    unfold Doubled
    rw [hs.stream, hs.ended, hs.sentFin, hs.hasSyn]
    exact h.behind
  idle := by
    rw [hs.busy]
    exact h.idle
  fin := by
    rw [hs.sentFin, hs.stream, hs.ended]
    exact h.fin
  syn := by
    rw [hs.hasSyn, hs.stream]
    exact h.syn
  synSent hst := by
    rw [hs.persist, hs.busy]
    exact h.synSent (hs.synSent hst)
  done hu := by
    rw [hs.sentFin]
    rcases h.done hu with hfin | hfin
    · exact .inl hfin
    · right
      by_contra hne
      rw [hs.hasFin (Bool.eq_true_of_not_eq_false hne)] at hfin
      cases hfin
  mss := by
    rw [hs.sendMssEff]
    exact h.mss
  carried := by
    rw [hs.sent, hs.stream]
    exact h.carried
  finSent := by
    rw [hs.sent, hs.ended]
    exact h.finSent

/-- The window of the peer and the retries are not read, and neither is the persist
state behind the SYN. -/
theorem Streams.of_window (h : Streams isn s u n a) {s' : Session}
    (hs : s' =
      { s with
        passiveOpen := s'.passiveOpen
        persist := s'.persist
        sendWindow := s'.sendWindow
        sendWl1 := s'.sendWl1
        sendWl2 := s'.sendWl2
        retry := s'.retry })
    (hpersist : s.state = .synSent → s'.persist = false) : Streams isn s' u n a := by
  have hst : s'.state = s.state := by rw [hs]
  have hbusy : s'.busy = s.busy := by rw [hs]
  have hsyn : s'.state = .synSent → s'.persist = false ∧ n ≤ 1 ∧ (u = 1 → s'.busy = false) := by
    intro h'
    rw [hst] at h'
    rw [hbusy]
    exact ⟨hpersist h', (h.synSent h').2⟩
  rw [hs] at hsyn ⊢
  exact
    { una := h.una
      next := h.next
      queue := h.queue
      order := h.order
      head := h.head
      behind := h.behind
      idle := h.idle
      fin := h.fin
      syn := h.syn
      synSent := hsyn
      done := h.done
      mss := h.mss
      carried := h.carried
      finSent := h.finSent }

/-! ## Segments -/

theorem plus_nat (isn : SeqNum) (k m : Nat) :
    isn.plus k + BitVec.ofNat 32 m = isn.plus ((k + m : Nat) : Int) := by
  rw [SeqNum.plus_add, Int.natCast_add]

/-- A segment built at `send_next`, of `size` numbers. -/
theorem Streams.built (h : Streams isn s u n a) (code : Code) {data : List UInt8} (size : Nat)
    (hgoes : ¬(data.length ≠ 0 ∧ s.sentFin = true))
    (hsize : segmentSize s code data.length = size)
    (hdata : data ≠ [] → n = 1 + a ∧ data = (s.stream.drop a).take data.length)
    (hfin : code.hasFin s data.length = true →
      ended s.state = true ∧ n + data.length = 1 + s.stream.length ∧
        n + size = s.stream.length + 2)
    (hflight : n + size ≤ u + 0xffff)
    (hbehind : n + size ≤ s.stream.length + 1 ∨ code.hasFin s data.length = true ∨
      size = 0 ∨ Doubled s u (n + size) ∧ code.hasFin s data.length = false)
    (hsent : s.sentFin = true → size = 0)
    (hsyn : s.state = .synSent → n + size ≤ 1 ∧ (u = 1 → size = 0)) :
    Streams isn (tcpBuild s code data) u (n + size) a := by
  have hkeep := transmits_build s code data
  have hbuilt := TcpSession.built code hgoes
  obtain ⟨seg, hseg, hseq, hsegData, hsegFin⟩ := hbuilt.sent
  have hnew : Carried isn s.stream seg := by
    refine ⟨n, hseq.trans h.next, ?_, ?_⟩
    · rw [hsegData]
      intro hne
      exact ⟨a, hdata hne⟩
    · rw [hsegData, hsegFin]
      intro hf
      exact (hfin hf).2.1
  constructor
  · exact hkeep.sendUnacknowledged.trans h.una
  · rw [hbuilt.sendNext, hsize, h.next, plus_nat]
  · rw [hkeep.alive, hkeep.sndq, hkeep.stream]
    exact h.queue
  · exact ⟨Nat.le_trans h.order.1 (Nat.le_add_right n size), hflight⟩
  · rw [hkeep.stream, hkeep.state]
    exact h.head
  · unfold Doubled
    rw [hkeep.stream, hkeep.state, hbuilt.sentFin]
    rcases hbehind with hle | hf | hzero | ⟨hdoubled, hf⟩
    · exact .inl hle
    · right; left
      obtain ⟨hended, -, hlast⟩ := hfin hf
      exact ⟨hlast, hended, .inl (by rw [hf, Bool.or_true])⟩
    · rcases h.behind with hle | ⟨hlast, hended, hor⟩ | hdoubled
      · left; omega
      · right; left
        refine ⟨by omega, hended, ?_⟩
        rcases hor with hf | heq
        · exact .inl (by rw [hf, Bool.true_or])
        · right; omega
      · by_cases hf : code.hasFin s data.length = true
        · right; left
          obtain ⟨hended, -, hlast⟩ := hfin hf
          exact ⟨hlast, hended, .inl (by rw [hf, Bool.or_true])⟩
        · right; right
          obtain ⟨htwo, hnone, hsentFin, hu, hst⟩ := hdoubled
          rw [hsentFin, Bool.false_or]
          exact ⟨by omega, hnone, Bool.eq_false_of_not_eq_true hf, hu, hst⟩
    · right; right
      obtain ⟨htwo, hnone, hsentFin, hu, hst⟩ := hdoubled
      rw [hsentFin, hf]
      exact ⟨htwo, hnone, rfl, hu, hst⟩
  · rw [hbuilt.busy, hsize]
    intro hidle
    simp only [Bool.or_eq_false_iff, decide_eq_false_iff_not, not_not] at hidle
    have := h.idle hidle.1
    omega
  · rw [hbuilt.sentFin, hkeep.stream, hkeep.state]
    intro hor
    rcases Bool.or_eq_true_iff.mp hor with hf | hf
    · rw [hsent hf]
      exact h.fin hf
    · exact ⟨(hfin hf).2.2, (hfin hf).1⟩
  · rw [hkeep.state, hkeep.stream]
    exact h.syn
  · rw [hkeep.state, hbuilt.persist, hbuilt.busy, hsize]
    intro hst
    obtain ⟨hpersist, -, hbusy⟩ := h.synSent hst
    obtain ⟨hle, hzero⟩ := hsyn hst
    refine ⟨hpersist, hle, fun hu => ?_⟩
    rw [hbusy hu, hzero hu]
    rfl
  · rw [hbuilt.sentFin, hkeep.state]
    intro hu
    rcases h.done hu with hf | hf
    · exact .inl (by rw [hf, Bool.true_or])
    · exact .inr hf
  · rw [hkeep.sendMssEff]
    exact h.mss
  · rw [hkeep.stream, hseg]
    intro t ht
    rcases List.mem_append.mp ht with hold | hlast
    · exact h.carried t hold
    · rw [List.mem_singleton.mp hlast]
      exact hnew
  · rw [hkeep.state, hseg]
    intro t ht hf
    rcases List.mem_append.mp ht with hold | hlast
    · exact h.finSent t hold hf
    · rw [List.mem_singleton.mp hlast, hsegFin] at hf
      exact (hfin hf).1

/-- A bare acknowledgement has no number. -/
theorem Streams.ack (h : Streams isn s u n a) : Streams isn (tcpBuild s .ackOnly []) u n a := by
  apply h.built .ackOnly 0 (by simp) rfl
  · intro hne
    exact absurd rfl hne
  · intro hf
    cases hf
  · exact h.order.2
  · exact .inr (.inr (.inl rfl))
  · exact fun _ => rfl
  · intro hst
    exact ⟨(h.synSent hst).2.1, fun _ => rfl⟩

/-- What is sent from `send_unacknowledged` on is the front of the queue. -/
theorem Streams.front (h : Streams isn s u u a) (halive : s.alive = true) {data : List UInt8}
    (hdata : data = s.sndq.content.take data.length) (hlen : data.length < 0xffff)
    (hfin : s.state.hasFin = true → u = 1 + a) (hsyn : s.state = .synSent → u = 0) :
    ∃ n, Streams isn (tcpBuild s .fromState data) u n a := by
  by_cases hgoes : data.length ≠ 0 ∧ s.sentFin = true
  · have hskip : tcpBuild s .fromState data = s := if_pos hgoes
    rw [hskip]
    exact ⟨u, h⟩
  · obtain ⟨ha, hhead⟩ := h.head
    have hqueue := h.queue halive
    have hbytes : s.sndq.dataBytes = s.stream.length - a := by
      rw [s.sndq.dataBytes_eq, hqueue, List.length_drop]
    have hle : data.length ≤ s.stream.length - a := by
      have hcongr := congrArg List.length hdata
      rw [List.length_take, ← s.sndq.dataBytes_eq, hbytes] at hcongr
      omega
    have hplace : data.length ≠ 0 → u = 1 + a := by
      intro hne
      rcases hhead with ⟨-, hnone⟩ | hu | ⟨-, hall, -⟩ <;> omega
    have hflag : Code.hasFin s data.length .fromState = true →
        s.state.hasFin = true ∧ s.stream.length - a ≤ data.length := by
      simp [Code.hasFin, hbytes]
    have hnoSyn : s.state.hasFin = true → s.state.hasSyn = false :=
      fun hf => ended_hasSyn (ended_hasFin hf)
    have hone : (Code.hasSyn s.state .fromState).toNat +
        (Code.hasFin s data.length .fromState).toNat ≤ 1 := by
      by_cases hf : Code.hasFin s data.length .fromState = true
      · simp [Code.hasSyn, hnoSyn (hflag hf).1, hf]
      · rw [Bool.eq_false_of_not_eq_true hf]
        exact Bool.toNat_le _
    have hsize : segmentSize s .fromState data.length =
        data.length + (Code.hasSyn s.state .fromState).toNat +
          (Code.hasFin s data.length .fromState).toNat := by
      apply Nat.mod_eq_of_lt
      omega
    have hsynSize : s.state.hasSyn = true → Code.hasSyn s.state .fromState = true ∧
        Code.hasFin s data.length .fromState = false ∧ data.length = 0 := by
      intro hs
      have hnone := (h.syn hs).1
      refine ⟨hs, ?_, by omega⟩
      by_contra hf
      have := hnoSyn (hflag (Bool.eq_true_of_not_eq_false hf)).1
      rw [hs] at this
      cases this
    refine ⟨_, h.built .fromState _ hgoes hsize ?_ ?_ ?_ ?_ ?_ ?_⟩
    · intro hne
      have hpos : data.length ≠ 0 := fun hzero => hne (List.length_eq_zero_iff.mp hzero)
      exact ⟨hplace hpos, by rw [← hqueue]; exact hdata⟩
    · intro hf
      obtain ⟨hf', hall⟩ := hflag hf
      have hu := hfin hf'
      have hs : Code.hasSyn s.state .fromState = false := hnoSyn hf'
      rw [hs, hf]
      simp only [Bool.toNat_false, Bool.toNat_true]
      exact ⟨ended_hasFin hf', by omega, by omega⟩
    · omega
    · by_cases hf : Code.hasFin s data.length .fromState = true
      · exact .inr (.inl hf)
      · have hf := Bool.eq_false_of_not_eq_true hf
        by_cases hs : s.state.hasSyn = true
        · obtain ⟨hflagSyn, -, hnone⟩ := hsynSize hs
          obtain ⟨hempty, hu⟩ := h.syn hs
          rw [hflagSyn, hf, hnone]
          simp only [Bool.toNat_false, Bool.toNat_true]
          by_cases hzero : u = 0
          · left; omega
          · right; right; right
            refine ⟨⟨by omega, hempty, ?_, hu, .inl hs⟩, trivial⟩
            by_contra hsent
            have := ended_hasSyn (h.fin (Bool.eq_true_of_not_eq_false hsent)).2
            rw [hs] at this
            cases this
        · have hs : Code.hasSyn s.state .fromState = false := Bool.eq_false_of_not_eq_true hs
          rw [hs, hf]
          simp only [Bool.toNat_false]
          by_cases hnone : data.length = 0
          · right; right; left; omega
          · left
            have := hplace hnone
            omega
    · intro hsent
      obtain ⟨hlast, hended⟩ := h.fin hsent
      have hs : Code.hasSyn s.state .fromState = false := ended_hasSyn hended
      have hf : Code.hasFin s data.length .fromState = false := by
        by_contra hf
        have := hfin (hflag (Bool.eq_true_of_not_eq_false hf)).1
        omega
      rw [hs, hf]
      simp only [Bool.toNat_false]
      omega
    · intro hst
      have hzero := hsyn hst
      have hs : s.state.hasSyn = true := by rw [hst]; rfl
      obtain ⟨-, hf, hnone⟩ := hsynSize hs
      rw [hf]
      simp only [Bool.toNat_false]
      have := Bool.toNat_le (Code.hasSyn s.state .fromState)
      exact ⟨by omega, by omega⟩

/-- **What is sent is the front of the queue, under its number.**  A timeout goes back to
`send_unacknowledged` first. -/
theorem Streams.segmentStart (h : Streams isn s u n a) (halive : s.alive = true) (env : Env)
    (timeout : Bool) (hnext : timeout = false → n = u)
    (hfin : s.state.hasFin = true → env.segment = true → u = 1 + a)
    (hdone : timeout = true → u = 2 + a → s.state.hasFin = false)
    (hsyn : s.state = .synSent → timeout = true ∧ u = 0) :
    ∃ n', Streams isn (tcpSegmentStart env s timeout) u n' a := by
  have hback : Streams isn
      (if timeout then { s with sendNext := s.sendUnacknowledged, sentFin := false } else s)
      u u a := by
    split
    · rename_i htimeout
      exact
        { una := h.una
          next := h.una
          queue := h.queue
          order := ⟨Nat.le_refl u, Nat.le_add_right u _⟩
          head := h.head
          behind := by
            rcases h.head with ⟨ha, ⟨hu, -⟩ | hu | ⟨hu, hall, hended⟩⟩
            · left; dsimp only; omega
            · left; dsimp only; omega
            · right; left
              exact ⟨by dsimp only; omega, hended, .inr rfl⟩
          idle := fun hidle => ⟨rfl, (h.idle hidle).2⟩
          fin := fun hf => by cases hf
          syn := h.syn
          synSent := fun hst =>
            ⟨(h.synSent hst).1, by rw [(hsyn hst).2]; exact Nat.zero_le 1, (h.synSent hst).2.2⟩
          done := fun hu => .inr (hdone htimeout hu)
          mss := h.mss
          carried := h.carried
          finSent := h.finSent }
    · rename_i htimeout
      rw [hnext (Bool.eq_false_of_not_eq_true htimeout)] at h
      exact h
  have hsame : (if timeout then { s with sendNext := s.sendUnacknowledged, sentFin := false }
      else s).state = s.state ∧
      (if timeout then { s with sendNext := s.sendUnacknowledged, sentFin := false }
      else s).alive = s.alive := by
    split <;> exact ⟨rfl, rfl⟩
  unfold tcpSegmentStart
  dsimp only
  generalize (if timeout then { s with sendNext := s.sendUnacknowledged, sentFin := false }
      else s) = v at hback hsame ⊢
  rw [← hsame.1] at hfin hsyn
  have halive : v.alive = true := hsame.2.trans halive
  have hbuild (b : Bool) (hb : v.state = .synSent → b = false) (data : List UInt8)
      (hdata : data = v.sndq.content.take data.length) (hlen : data.length < 0xffff) :
      ∃ n', Streams isn (buildSegment env { v with persist := b } data) u n' a := by
    have hv : Streams isn { v with persist := b } u u a := hback.of_window rfl hb
    unfold buildSegment
    split
    · rename_i hmem
      exact hv.front halive hdata hlen (fun hf => hfin hf hmem) (fun hst => (hsyn hst).2)
    · exact ⟨u, hv⟩
  have hmss := hback.mss
  split
  · split
    · exact hbuild false (fun _ => rfl) [] rfl (by simp)
    · exact ⟨u, hback⟩
  · rename_i buf bufs hbufs
    have hfront (m : Nat) :
        buf.data.take m = v.sndq.content.take (buf.data.take m).length := by
      have hcontent : v.sndq.content = buf.data ++ bufs.flatMap Buffer.data := by
        rw [Sockbuf.content, hbufs, List.flatMap_cons]
      rw [hcontent, List.length_take, List.take_append_of_le_length (Nat.min_le_right m _),
        List.take_eq_take_min]
    split
    · split
      · have hprobe := hbuild v.persist (fun hst => (hback.synSent hst).1) (buf.data.take 1)
          (hfront 1) (by rw [List.length_take]; omega)
        exact hprobe
      · rename_i htimeout
        refine ⟨u, hback.of_window rfl ?_⟩
        intro hst
        exact absurd (hsyn hst).1 htimeout
    · apply hbuild false (fun _ => rfl) _ (hfront _)
      rw [List.length_take]
      unfold sendable
      omega

/-! ## Acknowledgements -/

/-- As many bytes leave the queue as are acknowledged: the SYN and the FIN are not in it. -/
theorem Streams.acknowledged (h : Streams isn s u n a) (halive : s.alive = true) {k : Nat}
    (hk : u ≤ k ∧ k ≤ n) (hpos : k ≠ 0) (hnew : u < k ∨ s.state.hasFin = false)
    (hdoubled : ¬(s.stream.length = 0 ∧ s.sentFin = false ∧ k = 2)) (busy : Bool)
    (hbusy : busy = false → k = n)
    (hsyn : s.state.hasSyn = true → s.state = .synSent ∧ k = n ∧ busy = false) :
    ∃ a', Streams isn
      { s with
        sndq := s.sndq.drop (min (isn.plus k - s.sendUnacknowledged).toNat s.sndq.dataBytes)
        sendUnacknowledged := isn.plus k
        busy := busy } k n a' := by
  obtain ⟨ha, hhead⟩ := h.head
  have hqueue := h.queue halive
  have hbytes : s.sndq.dataBytes = s.stream.length - a := by
    rw [s.sndq.dataBytes_eq, hqueue, List.length_drop]
  have hacked : (isn.plus k - s.sendUnacknowledged).toNat = k - u := by
    have := h.order
    rw [h.una, SeqNum.toNat_plus_sub]
    omega
  have hlast : k = s.stream.length + 2 → ended s.state = true ∧
      (s.sentFin = true ∨ s.state.hasFin = false) := by
    intro hk'
    rcases h.behind with hle | ⟨hn, hended, hor⟩ | ⟨htwo, hnone, hfin, hu, -⟩
    · omega
    · refine ⟨hended, ?_⟩
      rcases hor with hf | heq
      · exact .inl hf
      · rcases hnew with hlt | hf
        · omega
        · exact .inr hf
    · exact absurd ⟨hnone, hfin, by omega⟩ hdoubled
  refine ⟨a + min (k - u) (s.stream.length - a), ?_⟩
  exact
    { una := rfl
      next := h.next
      queue := by
        intro _
        rw [hacked, hbytes, Sockbuf.content_drop, hqueue, List.drop_drop]
      order := ⟨hk.2, by have := h.order; omega⟩
      head := by
        dsimp only
        refine ⟨by omega, ?_⟩
        by_cases hend : k = s.stream.length + 2
        · right; right
          refine ⟨?_, ?_, (hlast hend).1⟩ <;>
            rcases hhead with ⟨hu, hnone⟩ | hu | ⟨hu, hall, -⟩ <;> omega
        · right; left
          rcases h.behind with hle | ⟨hn, -, -⟩ | ⟨htwo, hnone, -, hu, -⟩ <;>
            rcases hhead with ⟨hu, hnone⟩ | hu | ⟨hu, hall, -⟩ <;> omega
      behind := by
        rcases h.behind with hle | ⟨hn, hended, hor⟩ | ⟨htwo, hnone, hfin, hu, hst⟩
        · exact .inl hle
        · right; left
          refine ⟨hn, hended, ?_⟩
          rcases hor with hf | heq
          · exact .inl hf
          · right; omega
        · right; right
          have hk' : k ≠ 2 := fun heq => hdoubled ⟨hnone, hfin, heq⟩
          exact ⟨htwo, hnone, hfin, by omega, hst⟩
      idle := fun hidle => ⟨(hbusy hidle).symm, hpos⟩
      fin := h.fin
      syn := by
        intro hs
        obtain ⟨hst, hkn, -⟩ := hsyn hs
        have := (h.synSent hst).2.1
        exact ⟨(h.syn hs).1, by omega⟩
      synSent := by
        intro hst
        obtain ⟨hpersist, hn, -⟩ := h.synSent hst
        have hs : s.state.hasSyn = true := by
          have hst : s.state = .synSent := hst
          rw [hst]
          rfl
        exact ⟨hpersist, hn, fun _ => (hsyn hs).2.2⟩
      done := by
        intro hu
        apply fun hend => (hlast hend).2
        rcases hhead with ⟨hu', hnone⟩ | hu' | ⟨hu', hall, -⟩ <;> omega
      mss := h.mss
      carried := h.carried
      finSent := h.finSent }

/-- **As many bytes leave the queue as are acknowledged**, and what is sent next is the
front of what is left. -/
theorem Streams.ackSegment (h : Streams isn s u n a) (halive : s.alive = true) (env : Env)
    {k : Nat} (hk : u ≤ k ∧ k ≤ n) (hpos : k ≠ 0) (hnew : u < k ∨ s.state.hasFin = false)
    (hdoubled : ¬(s.stream.length = 0 ∧ s.sentFin = false ∧ k = 2))
    (hsyn : s.state.hasSyn = true → s.state = .synSent ∧ k = n) :
    ∃ n' a', Streams isn (tcpAckSegment env s (isn.plus k)) k n' a' := by
  have hcaught : isn.plus k = s.sendNext ↔ k = n := by
    have := h.order
    rw [h.next, SeqNum.plus_inj isn (by omega) (by omega)]
    omega
  unfold tcpAckSegment
  dsimp only
  by_cases hall : k = n
  · rw [if_pos (hcaught.mpr hall)]
    by_cases hmore : (s.sndq.drop
          (min (isn.plus k - s.sendUnacknowledged).toNat s.sndq.dataBytes)).dataBytes ≠ 0 ∨
        s.state.hasFin = true ∧ s.sentFin = false
    · rw [if_pos hmore]
      have hnoSyn : s.state.hasSyn = true → False := by
        intro hs
        rcases hmore with hleft | ⟨hf, -⟩
        · have hnone := (h.syn hs).1
          rw [Sockbuf.dataBytes_drop, s.sndq.dataBytes_eq, h.queue halive,
            List.length_drop] at hleft
          omega
        · rw [ended_hasSyn (ended_hasFin hf)] at hs
          cases hs
      obtain ⟨a', hacked⟩ := h.acknowledged halive hk hpos hnew hdoubled s.busy
        (fun _ => hall) (fun hs => (hnoSyn hs).elim)
      have hretry : Streams isn
          { s with
            sndq := s.sndq.drop (min (isn.plus k - s.sendUnacknowledged).toNat s.sndq.dataBytes)
            sendUnacknowledged := isn.plus k
            retry := 0 } k n a' :=
        hacked.of_window rfl (fun hst => (hacked.synSent hst).1)
      have hfin : s.state.hasFin = true → k = 1 + a' := by
        intro hf
        obtain ⟨-, ⟨hzero, -⟩ | hplace | ⟨hplace, hlast, -⟩⟩ := hacked.head
        · exact absurd hzero hpos
        · exact hplace
        · rcases hmore with hleft | ⟨-, hfinSent⟩
          · have hlast : a' = s.stream.length := hlast
            have hnone := hacked.queue halive
            dsimp only at hnone
            rw [hlast, List.drop_length] at hnone
            rw [Sockbuf.dataBytes_eq, hnone] at hleft
            exact absurd rfl hleft
          · rcases hacked.done hplace with hf' | hf'
            · rw [hf'] at hfinSent
              cases hfinSent
            · rw [hf'] at hf
              cases hf
      have hsynSent : s.state ≠ .synSent := by
        intro hst
        apply hnoSyn
        rw [hst]
        rfl
      obtain ⟨n', hn'⟩ := hretry.segmentStart halive env false (fun _ => hall.symm)
        (fun hf _ => hfin hf) (fun hne => by cases hne) (fun hst => absurd hst hsynSent)
      exact ⟨n', a', hn'⟩
    · rw [if_neg hmore]
      obtain ⟨a', hacked⟩ := h.acknowledged halive hk hpos hnew hdoubled false
        (fun _ => hall) (fun hs => ⟨(hsyn hs).1, hall, rfl⟩)
      exact ⟨n, a', hacked.of_window rfl (fun hst => (hacked.synSent hst).1)⟩
  · rw [if_neg (fun heq => hall (hcaught.mp heq))]
    have hbusy : s.busy = false → k = n := by
      intro hidle
      have := h.idle hidle
      omega
    obtain ⟨a', hacked⟩ := h.acknowledged halive hk hpos hnew hdoubled s.busy hbusy
      (fun hs => absurd (hsyn hs).2 hall)
    exact ⟨n, a', hacked⟩

/-! ## Between two calls -/

theorem Answers.streams {s' : Session} (hs : Answers s s') (h : Streams isn s u n a) :
    Streams isn s' u n a := by
  induction hs with
  | same hsame => exact h.of_same hsame
  | ack s => exact h.ack
  | trans _ _ ih ih' => exact ih' (ih h)

theorem Answers.settled {s s' : Session} (hs : Answers s s') (h : Settled isn s) :
    Settled isn s' := by
  induction hs with
  | @same s s' hsame =>
      obtain ⟨u, n, a, hstreams, hopen, hrest⟩ := h
      refine ⟨u, n, a, hstreams.of_same hsame, ?_, ?_⟩
      · rw [hsame.hasSyn, hsame.ended]
        exact hopen
      · intro halive hu
        by_contra hfin
        have hfin := hsame.hasFin (Bool.eq_true_of_not_eq_false hfin)
        rw [hrest (hsame.alive halive) hu] at hfin
        cases hfin
  | ack s =>
      obtain ⟨u, n, a, hstreams, hopen, hrest⟩ := h
      have hkeep := transmits_build s .ackOnly []
      refine ⟨u, n, a, hstreams.ack, ?_, ?_⟩
      · rw [hkeep.state]
        exact hopen
      · rw [hkeep.state, hkeep.alive]
        exact hrest
  | trans _ _ ih ih' => exact ih' (ih h)

/-- A retransmission does not give the FIN the number of the SYN. -/
def Again (isn : SeqNum) (s : Session) (env : Env) : Prop :=
  s.state.hasFin = true → env.segment = true → s.stream = [] → s.sendUnacknowledged ≠ isn

/-- Then the FIN follows the stream. -/
theorem Streams.again (h : Streams isn s u n a) {env : Env} (hagain : Again isn s env)
    (hrest : u = 2 + a → s.state.hasFin = false) (hfin : s.state.hasFin = true)
    (hmem : env.segment = true) : u = 1 + a := by
  obtain ⟨-, ⟨hzero, hnone⟩ | hu | ⟨hu, -⟩⟩ := h.head
  · have huna := hagain hfin hmem (List.length_eq_zero_iff.mp hnone)
    rw [h.una, hzero] at huna
    exact absurd (SeqNum.plus_zero isn) huna
  · exact hu
  · rw [hrest hu] at hfin
    cases hfin

theorem Streams.resend (h : Streams isn s u n a) (halive : s.alive = true) (env : Env)
    (hagain : s.retry < retryLimit s.state → Again isn s env)
    (hrest : u = 2 + a → s.state.hasFin = false) (hsyn : s.state = .synSent → u = 0) :
    ∃ n', Streams isn (tcpResendSegment env s) u n' a := by
  unfold tcpResendSegment
  split
  · exact ⟨n, (answers_delete s).streams h⟩
  · rename_i hlimit
    have hretry : Streams isn { s with retry := s.retry + 1 } u n a :=
      h.of_window rfl (fun hst => (h.synSent hst).1)
    apply hretry.segmentStart halive env true (fun hne => by cases hne)
    · intro hfin hmem
      exact h.again (hagain (Nat.lt_of_not_le hlimit)) hrest hfin hmem
    · exact fun _ => hrest
    · exact fun hst => ⟨rfl, hsyn hst⟩

variable (sn : SerialOrder)

/-- **The stream behind an acknowledgement** of what was sent. -/
theorem Streams.acked (h : Streams isn s u n a) (halive : s.alive = true) (env : Env)
    {seg : Segment} {k : Nat} (hack : seg.ackNo = isn.plus k) (hk : u ≤ k ∧ k ≤ n)
    (hdoubled : ¬(s.stream.length = 0 ∧ s.sentFin = false ∧ k = 2))
    (hagain : updatesWindow sn s seg = true → Again isn s env)
    (hrest : u = 2 + a → s.state.hasFin = false)
    (hsyn : s.state.hasSyn = true → s.state = .synSent ∧ k = n) :
    ∃ n' a', Streams isn (tcpAcked sn env s seg) k n' a' := by
  have hsame : seg.ackNo = s.sendUnacknowledged ↔ k = u := by
    have := h.order
    rw [hack, h.una, SeqNum.plus_inj isn (by omega) (by omega)]
    omega
  have hpersist : s.state = .synSent → (noteWindow sn s seg).persist = false := by
    intro hst
    have hs : s.state.hasSyn = true := by
      rw [hst]
      rfl
    have hnext : seg.ackNo = s.sendNext := by rw [hack, h.next, (hsyn hs).2]
    have hold := (h.synSent hst).1
    unfold noteWindow
    split
    · simp [hold, hnext]
    · exact hold
  have hnoted : Streams isn (noteWindow sn s seg) u n a := by
    apply h.of_window _ hpersist
    unfold noteWindow
    split <;> rfl
  have hstate : (noteWindow sn s seg).state = s.state ∧ (noteWindow sn s seg).stream = s.stream ∧
      (noteWindow sn s seg).sentFin = s.sentFin ∧ (noteWindow sn s seg).alive = s.alive := by
    unfold noteWindow
    split <;> exact ⟨rfl, rfl, rfl, rfl⟩
  have huna := (noteWindow_same sn s seg).2.2
  unfold updatesWindow at hagain
  unfold Again at hagain
  unfold tcpAcked
  dsimp only
  rw [← hstate.1, ← hstate.2.1, ← huna] at hagain
  rw [← hstate.1] at hsyn hrest hpersist
  rw [← hstate.2.1, ← hstate.2.2.1] at hdoubled
  rw [← huna] at hsame
  rw [← hstate.2.2.2] at halive
  generalize noteWindow sn s seg = v at *
  by_cases hnew : seg.ackNo = v.sendUnacknowledged
  · rw [if_neg (not_not.mpr hnew), hsame.mp hnew]
    split
    · rename_i hp
      split
      · rename_i hwindow
        have hopen : Streams isn { v with retry := 0, persist := false } u n a :=
          hnoted.of_window rfl (fun _ => rfl)
        obtain ⟨n', hn'⟩ := hopen.resend halive env
          (fun _ => hagain (by simp [hnew, hp, hwindow])) hrest
          (fun hst => by rw [hpersist hst] at hp; cases hp)
        exact ⟨n', a, hn'⟩
      · exact ⟨n, a, hnoted.of_window rfl hpersist⟩
    · exact ⟨n, a, hnoted⟩
  · have hne : k ≠ u := fun heq => hnew (hsame.mpr heq)
    rw [if_pos hnew, hack]
    exact hnoted.ackSegment halive env hk (by omega) (.inl (by omega)) hdoubled hsyn

/-- The acknowledgement of the FIN ends the states which send it. -/
theorem Streams.finAcked (h : Streams isn s u n a)
    (hopen : u = 0 → s.state.hasSyn = true ∨ ended s.state = true) :
    Settled isn (tcpFinAcked s) := by
  have hsettled {s' : Session} (hs : Answers s s')
      (hst : s'.state.hasSyn = s.state.hasSyn ∧ ended s'.state = ended s.state)
      (hfin : s'.alive = true → s'.state.hasFin = false) : Settled isn s' :=
    ⟨u, n, a, hs.streams h, by rw [hst.1, hst.2]; exact hopen, fun halive _ => hfin halive⟩
  unfold tcpFinAcked
  by_cases hacked : s.sentFin = true ∧ s.sendUnacknowledged = s.sendNext
  · rw [if_pos hacked]
    split
    · rename_i hst
      apply hsettled
      · apply answers_state <;> simp [hst, TcpState.hasSyn, TcpState.hasFin, ended]
      · simp [hst, TcpState.hasSyn, ended]
      · exact fun _ => rfl
    · rename_i hst
      apply hsettled
      · apply answers_state <;> simp [hst, TcpState.hasSyn, TcpState.hasFin, ended]
      · simp [hst, TcpState.hasSyn, ended]
      · exact fun _ => rfl
    · apply hsettled (answers_delete s) ⟨rfl, rfl⟩
      intro hdead
      cases hdead
    · rename_i hwait hclosing hlast
      apply hsettled (.refl s) ⟨rfl, rfl⟩
      intro _
      cases hst : s.state <;> first | rfl | exact absurd hst ‹_›
  · rw [if_neg hacked]
    refine ⟨u, n, a, h, hopen, ?_⟩
    intro _ hu
    rcases h.done hu with hfin | hfin
    · have hn := (h.fin hfin).1
      have heq : u = n := by
        rcases h.head with ⟨ha, ⟨hu', -⟩ | hu' | ⟨-, hall, -⟩⟩ <;> omega
      exact absurd ⟨hfin, by rw [h.una, h.next, heq]⟩ hacked
    · exact hfin

/-- The handshake is over: one number is sent, that of the SYN. -/
theorem Streams.established (h : Streams isn s u n a) (hs : s.state.hasSyn = true) (hn : n ≤ 1)
    (seg : Segment) : Streams isn (tcpSessionEstablished s seg) u n a := by
  have hnotEnded : ended s.state = true → False := by
    intro hended
    rw [ended_hasSyn hended] at hs
    cases hs
  exact
    { una := h.una
      next := h.next
      queue := h.queue
      order := h.order
      head := by
        obtain ⟨ha, hzero | hu | ⟨-, -, hended⟩⟩ := h.head
        · exact ⟨ha, .inl hzero⟩
        · exact ⟨ha, .inr (.inl hu)⟩
        · exact (hnotEnded hended).elim
      behind := .inl (Nat.le_trans hn (Nat.le_add_left 1 _))
      idle := h.idle
      fin := fun hf => (hnotEnded (h.fin hf).2).elim
      syn := fun hne => by cases hne
      synSent := fun hne => by cases hne
      done := fun _ => .inr rfl
      mss := h.mss
      carried := h.carried
      finSent := fun t ht hf => (hnotEnded (h.finSent t ht hf)).elim }

/-! ## Segments -/

/-- What the segment acknowledges was sent: it does not lie half way round, the handshake
is acknowledged by the number behind the SYN, and nothing else counts as sent before it
is. -/
def Counts (isn : SeqNum) (s : Session) (env : Env) (seg : Segment) : Prop :=
  (seg.ackNo - s.sendUnacknowledged).toNat ≤ inFlight s ∧
    (s.state = .synReceived → seg.ackNo = isn + 1) ∧
    (s.stream = [] → s.sentFin = false → seg.ackNo ≠ isn + 2) ∧
    (updatesWindow sn s seg = true → Again isn s env)

/-- The position which is acknowledged. -/
theorem Streams.position (h : Streams isn s u n a) {ack : SeqNum}
    (hle : (ack - s.sendUnacknowledged).toNat ≤ inFlight s) :
    ∃ k : Nat, ack = isn.plus k ∧ u ≤ k ∧ k ≤ n := by
  have hflight : inFlight s = n - u := by
    have := h.order
    unfold inFlight
    rw [h.una, h.next, SeqNum.toNat_plus_sub]
    omega
  have horder := h.order
  refine ⟨u + (ack - s.sendUnacknowledged).toNat, ?_, by omega, by omega⟩
  rw [← plus_nat, ← h.una]
  apply BitVec.eq_of_toNat_eq
  bv_omega

theorem plus_two (isn : SeqNum) : isn.plus (2 : Nat) = isn + 2 := rfl

/-- The session is answered from behind the acknowledgement. -/
theorem Follows.settled {env : Env} {seg : Segment} {s' : Session} {k : Nat}
    (hfollows : Follows sn env s seg s') (h : Streams isn (tcpAcked sn env s seg) k n a)
    (hopen : k = 0 → s.state.hasSyn = true ∨ ended s.state = true) : Settled isn s' := by
  rw [← (acked_same sn env s seg).1] at hopen
  rcases hfollows with ⟨rfl, hdead⟩ | hanswers
  · refine ⟨k, n, a, h, hopen, ?_⟩
    rw [hdead]
    intro hne
    cases hne
  · exact hanswers.settled (h.finAcked hopen)

/-- **A segment within the window.** -/
theorem settled_window {env : Env} {seg : Segment} (h : Settled isn s) (halive : s.alive = true)
    (hcounts : acknowledges sn s seg = true →
      accepts sn (atAck s (trim sn s seg)) (trim sn s seg) = true →
      Counts sn isn s env (trim sn s seg))
    (hsynSent : s.state = .synSent → seg.ack = true → seg.ackNo = s.sendNext) :
    Settled isn (tcpUpWindow sn env s seg) := by
  have hkept := h
  obtain ⟨u, n, a, hstreams, hopen, hrest⟩ := h
  have horder := hstreams.order
  have hreaches (hacks : acknowledges sn s seg = true) : seg.ack = true ∧
      (s.state = .synReceived → (trim sn s seg).ackNo = s.sendNext) := by
    simp only [acknowledges, reachesAck, Bool.and_eq_true, decide_eq_true_eq] at hacks
    rw [← (trim_ack sn s seg).1]
    exact ⟨hacks.2.1.2, hacks.2.2⟩
  rcases tcpUpWindow_acks sn env s seg with
    hanswers | ⟨hacks, ⟨hrefused, hanswers⟩ | ⟨haccepts, hfollows⟩⟩
  · exact hanswers.settled hkept
  · by_cases hreceived : s.state = .synReceived
    · -- What acknowledges `send_next` is accepted.
      exfalso
      have hnext := (hreaches hacks).2 hreceived
      have hat : (atAck s (trim sn s seg)).sendUnacknowledged = s.sendUnacknowledged ∧
          (atAck s (trim sn s seg)).sendNext = s.sendNext := by
        rw [atAck, if_pos hreceived]
        exact ⟨rfl, rfl⟩
      have hold : sn.greater (isn.plus u) (isn.plus n) = false := by
        rw [← Bool.not_eq_true, sn.greater_plus isn (by omega) (by omega)]
        omega
      have hself : sn.greater (isn.plus n) (isn.plus n) = false := by
        rw [← Bool.not_eq_true, sn.greater_plus isn (by omega) (by omega)]
        omega
      rw [accepts, hat.1, hat.2, hnext, hstreams.una, hstreams.next, hold, hself] at hrefused
      cases hrefused
    · rw [atAck, if_neg hreceived] at hanswers
      exact hanswers.settled hkept
  · obtain ⟨hle, hone, htwo, hagain⟩ := hcounts hacks haccepts
    by_cases hreceived : s.state = .synReceived
    · have hs : s.state.hasSyn = true := by
        rw [hreceived]
        rfl
      have hack : (trim sn s seg).ackNo = isn.plus (1 : Nat) := hone hreceived
      have hn : n = 1 := by
        have hu := (hstreams.syn hs).2
        have hnext := (hreaches hacks).2 hreceived
        rw [hack, hstreams.next, SeqNum.plus_inj isn (by omega) (by omega)] at hnext
        omega
      rw [atAck, if_pos hreceived] at hfollows
      have hest := hstreams.established hs (Nat.le_of_eq hn) (trim sn s seg)
      obtain ⟨n', a', hacked⟩ := hest.acked sn halive env hack ⟨by omega, by omega⟩
        (fun h => by omega) (fun _ hf => by cases hf) (fun _ => rfl) (fun hne => by cases hne)
      exact hfollows.settled sn hacked (fun hne => by cases hne)
    · rw [atAck, if_neg hreceived] at hfollows
      obtain ⟨k, hack, hk⟩ := hstreams.position hle
      have hdoubled : ¬(s.stream.length = 0 ∧ s.sentFin = false ∧ k = 2) := by
        rintro ⟨hnone, hfin, hk2⟩
        rw [hk2, plus_two] at hack
        exact htwo (List.length_eq_zero_iff.mp hnone) hfin hack
      have hsyn : s.state.hasSyn = true → s.state = .synSent ∧ k = n := by
        intro hs
        have hst : s.state = .synSent := by
          cases hst : s.state <;> simp_all [TcpState.hasSyn]
        refine ⟨hst, ?_⟩
        have hnext := hsynSent hst (hreaches hacks).1
        rw [← (trim_ack sn s seg).2, hack, hstreams.next,
          SeqNum.plus_inj isn (by omega) (by omega)] at hnext
        omega
      obtain ⟨n', a', hacked⟩ :=
        hstreams.acked sn halive env hack hk hdoubled hagain (hrest halive) hsyn
      apply hfollows.settled sn hacked
      intro hzero
      exact hopen (by omega)

/-- The peer's SYN has no part in what is sent but for its MSS. -/
theorem Streams.readSyn (h : Streams isn s u n a) (seg : Segment) :
    Streams isn (TcpSession.readSyn s seg) u n a :=
  { una := h.una
    next := h.next
    queue := h.queue
    order := h.order
    head := h.head
    behind := h.behind
    idle := h.idle
    fin := h.fin
    syn := h.syn
    synSent := h.synSent
    done := h.done
    mss := by
      dsimp only [TcpSession.readSyn]
      unfold tcpRethinkMss tcpLowpanMssLimit ipv6MinLinkMtu
      omega
    carried := h.carried
    finSent := h.finSent }

/-- Both sides open the connection. -/
theorem Streams.openBoth (h : Streams isn s u n a) (hst : s.state = .synSent) :
    Streams isn { s with state := .synReceived } u n a := by
  have hs : s.state.hasSyn = true := by
    rw [hst]
    rfl
  have hnotEnded : ended s.state = true → False := by
    rw [hst]
    intro hne
    cases hne
  have hn := (h.synSent hst).2.1
  exact
    { una := h.una
      next := h.next
      queue := h.queue
      order := h.order
      head := by
        obtain ⟨ha, hzero | hu | ⟨-, -, hended⟩⟩ := h.head
        · exact ⟨ha, .inl hzero⟩
        · exact ⟨ha, .inr (.inl hu)⟩
        · exact (hnotEnded hended).elim
      behind := .inl (Nat.le_trans hn (Nat.le_add_left 1 _))
      idle := h.idle
      fin := fun hf => (hnotEnded (h.fin hf).2).elim
      syn := fun _ => h.syn hs
      synSent := fun hne => by cases hne
      done := fun _ => .inr rfl
      mss := h.mss
      carried := h.carried
      finSent := fun t ht hf => (hnotEnded (h.finSent t ht hf)).elim }

/-- The SYN goes out with an acknowledgement, and takes a number of its own. -/
theorem Streams.synAck (h : Streams isn s u n a) (hst : s.state = .synReceived) (hn : n ≤ 1) :
    Streams isn (tcpBuild s .synAck []) u (n + 1) a := by
  have hs : s.state.hasSyn = true := by
    rw [hst]
    rfl
  have hnotEnded : ended s.state = true → False := by
    rw [hst]
    intro hne
    cases hne
  obtain ⟨hnone, hu⟩ := h.syn hs
  apply h.built .synAck 1 (by simp) rfl
  · intro hne
    exact absurd rfl hne
  · intro hf
    cases hf
  · have := h.order
    omega
  · by_cases hzero : n = 0
    · left
      omega
    · right; right; right
      refine ⟨⟨by omega, hnone, ?_, hu, .inl hs⟩, rfl⟩
      by_contra hf
      exact hnotEnded (h.fin (Bool.eq_true_of_not_eq_false hf)).2
  · intro hf
    exact (hnotEnded (h.fin hf).2).elim
  · rw [hst]
    intro hne
    cases hne

/-- A SYN which acknowledges ours acknowledges its number. -/
def Opens (isn : SeqNum) (s : Session) (seg : Segment) : Prop :=
  seg.syn = true → seg.rst = false → seg.ack = true → seg.ackNo = s.sendNext →
    seg.ackNo = isn + 1

theorem settled_synSent {env : Env} {seg : Segment} (h : Settled isn s) (halive : s.alive = true)
    (hst : s.state = .synSent) (hopens : Opens isn s seg)
    (hcounts : acknowledges sn s seg = true →
      accepts sn (atAck s (trim sn s seg)) (trim sn s seg) = true →
      Counts sn isn s env (trim sn s seg)) :
    Settled isn (tcpUpSynSent sn env s seg) := by
  have hs : s.state.hasSyn = true := by
    rw [hst]
    rfl
  rcases tcpUpSynSent_acks sn env s seg with hanswers | ⟨hnext, heq⟩ |
    ⟨hsyn, hrst, hack, hnext, hanswers⟩ | ⟨-, -, -, heq⟩
  · exact hanswers.settled h
  · rw [heq]
    exact settled_window sn h halive hcounts (fun _ => hnext)
  · apply hanswers.settled
    obtain ⟨u, n, a, hstreams, -, -⟩ := h
    have hackNo : seg.ackNo = isn.plus (1 : Nat) := hopens hsyn hrst hack hnext
    obtain ⟨-, hle, -⟩ := hstreams.synSent hst
    have hu := (hstreams.syn hs).2
    have hn : n = 1 := by
      rw [hackNo, hstreams.next, SeqNum.plus_inj isn (by omega) (by omega)] at hnext
      omega
    rw [hackNo]
    have hread := hstreams.readSyn seg
    obtain ⟨n', a', hacked⟩ := hread.ackSegment halive env (k := 1) ⟨hu, Nat.le_of_eq hn.symm⟩
      (by omega) (.inr (by rw [show (readSyn s seg).state = s.state from rfl, hst]; rfl))
      (fun h => by omega) (fun _ => ⟨hst, hn.symm⟩)
    have hstate := (ackSegment_same env (readSyn s seg) (isn.plus (1 : Nat))).1
    have hst' : (tcpAckSegment env (readSyn s seg) (isn.plus (1 : Nat))).state = .synSent :=
      hstate.trans hst
    have hn' := (hacked.synSent hst').2.1
    refine ⟨1, n', a', hacked.established (by rw [hst']; rfl) hn' seg, ?_, ?_⟩
    · intro hne
      cases hne
    · exact fun _ _ => rfl
  · rw [heq]
    obtain ⟨u, n, a, hstreams, -, -⟩ := h
    have hn := (hstreams.synSent hst).2.1
    have hboth := (hstreams.readSyn seg).openBoth hst
    unfold tcpAckBuffer
    split
    · have hacked : Streams isn
          { readSyn s seg with
            state := .synReceived
            receiveNext := (readSyn s seg).receiveNext + BitVec.ofNat 32 1 } u n a :=
        (answers_of rfl).streams hboth
      have hbuilt := hacked.synAck rfl hn
      have hstate := (transmits_build
        { readSyn s seg with
          state := .synReceived
          receiveNext := (readSyn s seg).receiveNext + BitVec.ofNat 32 1 } .synAck []).state
      refine ⟨u, n + 1, a, hbuilt, ?_, ?_⟩
      · exact fun _ => .inl (congrArg TcpState.hasSyn hstate)
      · exact fun _ _ => congrArg TcpState.hasFin hstate
    · exact ⟨u, n, a, hboth, fun _ => .inl rfl, fun _ _ => rfl⟩

/-! ## Calls of the application -/

/-- What is sent next leaves the settled session settled. -/
theorem Streams.started (h : Streams isn s u n a) (halive : s.alive = true) (env : Env)
    (hnext : n = u) (hfin : s.state.hasFin = true → u = 1 + a)
    (hsyn : s.state.hasSyn = false) (hopen : u ≠ 0) :
    Settled isn (tcpSegmentStart env s false) := by
  have hkeep := transmits_segmentStart env s false
  obtain ⟨n', hn'⟩ := h.segmentStart halive env false (fun _ => hnext) (fun hf _ => hfin hf)
    (fun hne => by cases hne) (fun hst => by rw [hst] at hsyn; cases hsyn)
  refine ⟨u, n', a, hn', fun hzero => absurd hzero hopen, ?_⟩
  rw [hkeep.state]
  intro _ hu
  by_contra hf
  have := hfin (Bool.eq_true_of_not_eq_false hf)
  omega

/-- Bytes of a stream stay in their place when it grows. -/
theorem stays_in_place {stream more data : List UInt8} {i : Nat} (hne : data ≠ [])
    (h : data = (stream.drop i).take data.length) :
    data = ((stream ++ more).drop i).take data.length := by
  have hpos : 0 < data.length := List.length_pos_iff.mpr hne
  have hlen := congrArg List.length h
  rw [List.length_take, List.length_drop] at hlen
  rw [List.drop_append_of_le_length (by omega),
    List.take_append_of_le_length (by rw [List.length_drop]; omega)]
  exact h

/-- The stream grows as long as it has not ended. -/
theorem Streams.grow (h : Streams isn s u n a) (hopen : u = 0 → s.state.hasSyn = true)
    (hst : s.state = .established ∨ s.state = .closeWait) (buf : Buffer) (busy : Bool)
    (hbusy : busy = false → s.busy = false) :
    u = 1 + a ∧ Streams isn
      { s with
        sndq := s.sndq.appendAndCompress buf
        stream := s.stream ++ buf.data
        busy := busy } u n a := by
  have hended : ended s.state = false ∧ s.state.hasSyn = false := by
    rcases hst with hst | hst <;> rw [hst] <;> exact ⟨rfl, rfl⟩
  have hnotEnded : ended s.state = true → False := by
    rw [hended.1]
    intro hne
    cases hne
  have hplace : u = 1 + a := by
    obtain ⟨-, ⟨hzero, -⟩ | hu | ⟨-, -, hend⟩⟩ := h.head
    · have hs := hopen hzero
      rw [hended.2] at hs
      cases hs
    · exact hu
    · exact (hnotEnded hend).elim
  have ha := h.head.1
  refine ⟨hplace, ?_⟩
  exact
    { una := h.una
      next := h.next
      queue := by
        intro halive
        rw [Sockbuf.content_appendAndCompress, h.queue halive,
          List.drop_append_of_le_length ha]
      order := h.order
      head := by
        dsimp only
        rw [List.length_append]
        exact ⟨by omega, .inr (.inl hplace)⟩
      behind := by
        left
        dsimp only
        rw [List.length_append]
        rcases h.behind with hle | ⟨-, hend, -⟩ | ⟨-, -, -, -, hs | hend⟩
        · omega
        · exact (hnotEnded hend).elim
        · rw [hended.2] at hs
          cases hs
        · exact (hnotEnded hend).elim
      idle := fun hidle => h.idle (hbusy hidle)
      fin := fun hf => (hnotEnded (h.fin hf).2).elim
      syn := by
        dsimp only
        rw [hended.2]
        intro hne
        cases hne
      synSent := by
        intro hne
        dsimp only at hne
        rw [hne] at hst
        simp at hst
      done := by
        intro hu
        omega
      mss := h.mss
      carried := by
        intro seg hseg
        obtain ⟨k, hseq, hdata, hfin⟩ := h.carried seg hseg
        refine ⟨k, hseq, ?_, fun hf => (hnotEnded (h.finSent seg hseg hf)).elim⟩
        intro hne
        obtain ⟨i, hk, hd⟩ := hdata hne
        exact ⟨i, hk, stays_in_place hne hd⟩
      finSent := h.finSent }

theorem settled_send {env : Env} {buf : Buffer} (h : Settled isn s) (halive : s.alive = true) :
    Settled isn (tcpSessionSend env s buf) := by
  unfold tcpSessionSend
  split
  · exact h
  · rename_i hopens
    obtain ⟨u, n, a, hstreams, hopen, -⟩ := h
    have hst : s.state = .established ∨ s.state = .closeWait := by
      by_contra hne
      exact hopens (not_or.mp hne)
    have hflags : ended s.state = false ∧ s.state.hasSyn = false ∧ s.state.hasFin = false := by
      rcases hst with hst | hst <;> rw [hst] <;> exact ⟨rfl, rfl, rfl⟩
    have hopen : u = 0 → s.state.hasSyn = true := by
      intro hzero
      rcases hopen hzero with hs | hend
      · exact hs
      · rw [hflags.1] at hend
        cases hend
    have hgrow := hstreams.grow hopen hst buf
    dsimp only
    split
    · obtain ⟨hplace, hgrown⟩ := hgrow s.busy id
      refine ⟨u, n, a, hgrown, fun hzero => by omega, fun _ hu => by omega⟩
    · rename_i hidle
      have hidle := hstreams.idle (Bool.eq_false_of_not_eq_true hidle)
      obtain ⟨hplace, hgrown⟩ := hgrow true (fun hne => by cases hne)
      have hretry : Streams isn
          { s with
            sndq := s.sndq.appendAndCompress buf
            stream := s.stream ++ buf.data
            retry := 0
            busy := true } u n a :=
        hgrown.of_window rfl (fun hst => (hgrown.synSent hst).1)
      exact hretry.started halive env hidle.1 (fun _ => hplace) hflags.2.1 hidle.2

/-- The stream ends: from now on there is a FIN behind it. -/
theorem Streams.close (h : Streams isn s u n a) (hended : ended s.state = false)
    (st : TcpState) (hst : ended st = true) (busy : Bool) (hbusy : busy = false → s.busy = false) :
    (u = 0 ∨ u = 1 + a) ∧ Streams isn { s with state := st, busy := busy } u n a := by
  have hnotEnded : ended s.state = true → False := by
    rw [hended]
    intro hne
    cases hne
  have hnoSyn := ended_hasSyn hst
  obtain ⟨ha, hhead⟩ := h.head
  have hplace : u = 0 ∧ s.stream.length = 0 ∨ u = 1 + a := by
    rcases hhead with hzero | hu | ⟨-, -, hend⟩
    · exact .inl hzero
    · exact .inr hu
    · exact (hnotEnded hend).elim
  refine ⟨hplace.imp_left And.left, ?_⟩
  exact
    { una := h.una
      next := h.next
      queue := h.queue
      order := h.order
      head := by
        rcases hplace with hzero | hu
        · exact ⟨ha, .inl hzero⟩
        · exact ⟨ha, .inr (.inl hu)⟩
      behind := by
        rcases h.behind with hle | ⟨-, hend, -⟩ | ⟨htwo, hnone, hfin, hu, -⟩
        · exact .inl hle
        · exact (hnotEnded hend).elim
        · exact .inr (.inr ⟨htwo, hnone, hfin, hu, .inr hst⟩)
      idle := fun hidle => h.idle (hbusy hidle)
      fin := fun hf => (hnotEnded (h.fin hf).2).elim
      syn := by
        dsimp only
        rw [hnoSyn]
        intro hne
        cases hne
      synSent := by
        intro hne
        dsimp only at hne
        rw [hne] at hst
        cases hst
      done := by
        intro hu
        omega
      mss := h.mss
      carried := h.carried
      finSent := fun _ _ _ => hst }

theorem settled_close {env : Env} (h : Settled isn s) (halive : s.alive = true) :
    Settled isn (tcpSessionClose env s) := by
  have hclose (hended : ended s.state = false) (st : TcpState) (hst : ended st = true) :
      Settled isn (if s.busy then { s with state := st }
        else tcpSegmentStart env { s with state := st, busy := true } false) := by
    obtain ⟨u, n, a, hstreams, -, -⟩ := h
    split
    · obtain ⟨hplace, hclosed⟩ := hstreams.close hended st hst s.busy id
      refine ⟨u, n, a, hclosed, fun _ => .inr hst, fun _ hu => ?_⟩
      rcases hplace with hzero | hu' <;> omega
    · rename_i hidle
      have hidle := hstreams.idle (Bool.eq_false_of_not_eq_true hidle)
      obtain ⟨hplace, hclosed⟩ := hstreams.close hended st hst true (fun hne => by cases hne)
      exact hclosed.started halive env hidle.1 (fun _ => hplace.resolve_left hidle.2)
        (ended_hasSyn hst) hidle.2
  unfold tcpSessionClose
  split
  all_goals
    rename_i hst
    first
    | exact h
    | exact (answers_delete s).settled h
    | skip
  · exact hclose (by rw [hst]; rfl) _ (by simp [hst, ended])
  · exact hclose (by rw [hst]; rfl) _ (by simp [hst, ended])
  · exact hclose (by rw [hst]; rfl) _ (by simp [hst, ended])

theorem settled_timer {env : Env} (h : Settled isn s) (halive : s.alive = true)
    (hagain : s.state ≠ .closed → s.state ≠ .timeWait → s.busy = true →
      s.retry < retryLimit s.state → Again isn s env) :
    Settled isn (tcpHandleTimeEvent env s) := by
  unfold tcpHandleTimeEvent
  split
  · exact h
  · exact (answers_delete s).settled h
  · rename_i hclosed hwaits
    split
    · rename_i hbusy
      obtain ⟨u, n, a, hstreams, hopen, hrest⟩ := h
      have hsyn : s.state = .synSent → u = 0 := by
        intro hst
        have hu := (hstreams.syn (by rw [hst]; rfl)).2
        by_contra hne
        have hidle := (hstreams.synSent hst).2.2 (by omega)
        rw [hbusy] at hidle
        cases hidle
      obtain ⟨n', hn'⟩ :=
        hstreams.resend halive env (hagain hclosed hwaits hbusy) (hrest halive) hsyn
      have hstate := (resend_same env s).1
      refine ⟨u, n', a, hn', ?_, ?_⟩
      · rw [hstate]
        exact hopen
      · rw [hstate]
        exact fun _ => hrest halive
    · split
      · rename_i hwait
        have hwaiting : Answers s { s with state := .timeWait } := by
          apply answers_state <;> simp [hwait.1, TcpState.hasSyn, TcpState.hasFin, ended]
        exact hwaiting.settled h
      · exact h

theorem answers_abort (env : Env) (s : Session) : Answers s (tcpSessionAbort env s) := by
  unfold tcpSessionAbort
  split
  all_goals first
    | exact .refl s
    | exact answers_delete s
    | exact (answers_reset env s _).trans (answers_delete _)

theorem answers_shutdownRead (env : Env) (s : Session) :
    Answers s (tcpSessionShutdownRead env s) := by
  have hshut : Answers s { s with cantRecvMore := true } := answers_of rfl
  unfold tcpSessionShutdownRead
  dsimp only
  split
  · exact (hshut.trans (answers_abort env _)).trans (answers_of rfl)
  · exact hshut.trans (answers_of rfl)

theorem answers_recv (env : Env) (s : Session) (len : Nat) :
    Answers s (socketRecv env s len) := by
  have hread : Answers s { s with rcvq := (s.rcvq.copyToUser true len).2 } := answers_of rfl
  unfold socketRecv
  dsimp only
  split
  · unfold tcpSessionDataReceived
    split
    · have hincr (v : Session) : Answers v (tcpComputeWindowIncr v) := by
        unfold tcpComputeWindowIncr
        split
        · exact .refl v
        · exact answers_of rfl
      exact (hread.trans (hincr _)).trans (answers_ackBuffer env _ 0)
    · exact hread
  · exact hread

/-! ## Runs -/

/-- What arrives acknowledges what was sent, and the FIN is sent again only behind the
SYN. -/
def Act.numbered (isn : SeqNum) (s : Session) : Act → Prop
  | .segment env true buf =>
      ∀ seg ∈ tcpParse buf, seg.malformed = false →
        (s.state = .synSent → Opens isn s seg) ∧
          (acknowledges sn s seg = true →
            accepts sn (atAck s (trim sn s seg)) (trim sn s seg) = true →
            Counts sn isn s env (trim sn s seg))
  | .timer env =>
      s.state ≠ .closed → s.state ≠ .timeWait → s.busy = true →
        s.retry < retryLimit s.state → Again isn s env
  | _ => True

instance (s : Session) (seg : Segment) : Decidable (Opens isn s seg) :=
  inferInstanceAs (Decidable (_ → _))

instance (s : Session) (env : Env) : Decidable (Again isn s env) :=
  inferInstanceAs (Decidable (_ → _))

instance (s : Session) (env : Env) (seg : Segment) : Decidable (Counts sn isn s env seg) :=
  inferInstanceAs (Decidable (_ ∧ _))

instance (s : Session) : (a : Act) → Decidable (a.numbered sn isn s)
  | .segment _ true buf =>
      inferInstanceAs (Decidable (∀ seg ∈ tcpParse buf, seg.malformed = false → _))
  | .segment _ false _ => isTrue trivial
  | .timer _ => inferInstanceAs (Decidable (_ → _))
  | .send _ _ | .recv _ _ | .close _ | .shutdownRead _ | .release => isTrue trivial

theorem settled_step {s t : Session} {a : Act} (h : Settled isn s) (hnumbered : a.numbered sn isn s)
    (hstep : step sn s a = some t) : Settled isn t := by
  unfold step at hstep
  split at hstep
  · cases hstep
  · rename_i hlive
    have halive : s.alive = true := by simpa using hlive
    cases a with
    | segment env intact buf =>
        cases hstep
        unfold tcpInput
        split
        · exact h
        · rename_i hdropped
          simp only [Bool.or_eq_true, Bool.not_eq_true', decide_eq_true_eq, not_or,
            Bool.not_eq_false] at hdropped
          obtain ⟨rfl, -⟩ := hdropped
          cases hparse : tcpParse buf with
          | none => exact h
          | some seg =>
              dsimp only
              rcases tcpUp_acks sn env s seg with hanswers | ⟨hmal, hst, heq⟩ | ⟨hmal, hst, heq⟩
              · exact hanswers.settled h
              · rw [heq]
                obtain ⟨hopens, hcounts⟩ := hnumbered seg hparse hmal
                exact settled_synSent sn h halive hst (hopens hst) hcounts
              · rw [heq]
                exact settled_window sn h halive (hnumbered seg hparse hmal).2
                  (fun hsent => absurd hsent hst)
    | timer env =>
        cases hstep
        exact settled_timer h halive hnumbered
    | send env buf =>
        cases hstep
        exact settled_send h halive
    | recv env len =>
        cases hstep
        exact (answers_recv env s len).settled h
    | close env =>
        cases hstep
        exact settled_close h halive
    | shutdownRead env =>
        cases hstep
        exact (answers_shutdownRead env s).settled h
    | release =>
        cases hstep
        have hreleased : Answers s { s with closed := true, cantRecvMore := true } :=
          answers_of rfl
        exact hreleased.settled h

/-! ## New sessions -/

/-- A SYN makes the session busy. -/
theorem build_busy (s : Session) {code : Code} (hcode : code = .syn ∨ code = .synAck) :
    tcpBuild s code [] = tcpBuild { s with busy := true } code [] := by
  have hincr : tcpComputeWindowIncr { s with busy := true } =
      { tcpComputeWindowIncr s with busy := true } := by
    have hsame : windowIncr { s with busy := true } = windowIncr s := rfl
    unfold tcpComputeWindowIncr
    rw [hsame]
    split <;> rfl
  unfold tcpBuild
  rw [hincr]
  rcases hcode with rfl | rfl <;> rfl

theorem settled_opened {code : Code} (hcode : code = .syn ∨ code = .synAck)
    (hsyn : s.state.hasSyn = true) (huna : s.sendUnacknowledged = isn) (hnext : s.sendNext = isn)
    (hsndq : s.sndq.content = []) (hstream : s.stream = []) (hsent : s.sent = [])
    (hfin : s.sentFin = false) (hpersist : s.persist = false) (hmss : s.sendMssEff < 0xffff) :
    Settled isn (tcpBuild s code []) := by
  have hzero : isn = isn.plus (0 : Nat) := (SeqNum.plus_zero isn).symm
  have hfresh : Streams isn { s with busy := true } 0 0 0 :=
    { una := huna.trans hzero
      next := hnext.trans hzero
      queue := fun _ => by simp [hsndq, hstream]
      order := ⟨Nat.le_refl 0, Nat.zero_le _⟩
      head := ⟨Nat.zero_le _, .inl ⟨rfl, by simp [hstream]⟩⟩
      behind := .inl (Nat.zero_le _)
      idle := fun hne => by cases hne
      fin := fun hf => by simp [hfin] at hf
      syn := fun _ => ⟨by simp [hstream], Nat.zero_le 1⟩
      synSent := fun _ => ⟨hpersist, Nat.zero_le 1, fun hne => by cases hne⟩
      done := fun hne => by cases hne
      mss := hmss
      carried := fun t ht => by simp [hsent] at ht
      finSent := fun t ht => by simp [hsent] at ht }
  have hsize : segmentSize { s with busy := true } code ([] : List UInt8).length = 1 ∧
      code.hasFin { s with busy := true } ([] : List UInt8).length = false := by
    rcases hcode with rfl | rfl <;> exact ⟨rfl, rfl⟩
  have hbuilt : Streams isn (tcpBuild { s with busy := true } code []) 0 1 0 := by
    apply hfresh.built code 1 (by simp) hsize.1
    · intro hne
      exact absurd rfl hne
    · intro hf
      rw [hsize.2] at hf
      cases hf
    · omega
    · left
      omega
    · intro hf
      have hf : s.sentFin = true := hf
      rw [hfin] at hf
      cases hf
    · exact fun _ => ⟨Nat.le_refl 1, fun hne => by cases hne⟩
  have hstate := (transmits_build s code []).state
  rw [← build_busy s hcode] at hbuilt
  refine ⟨0, 1, 0, hbuilt, ?_, fun _ hne => by cases hne⟩
  rw [hstate]
  exact fun _ => .inl hsyn

theorem Started.settled {s : Session} (h : Started isn s) : Settled isn s := by
  have hempty (limit : Nat) : (Sockbuf.init.reserve limit).content = [] := by
    rw [Sockbuf.content_reserve]
    rfl
  cases h with
  | active rcvLimit sndLimit =>
      have hmss : 536 < 0xffff := by decide
      apply settled_opened (.inl rfl) <;> first | rfl | exact hempty sndLimit | exact hmss
  | passive rcvLimit sndLimit seg =>
      have hopened : Settled isn (tcpBuild
          { readSyn (allocate isn rcvLimit sndLimit) seg with
            receiveNext := seg.seqNo + BitVec.ofNat 32 1
            sendWindow := seg.window
            passiveOpen := true
            state := .synReceived } .synAck []) := by
        apply settled_opened (.inr rfl) <;> first | rfl | exact hempty sndLimit | skip
        dsimp only [readSyn]
        unfold tcpRethinkMss tcpLowpanMssLimit ipv6MinLinkMtu
        omega
      exact hopened

/-- **The stream is sent as it is** in every run in which what arrives acknowledges what
was sent, and the FIN is not sent before the SYN is acknowledged: the head of the queue
is the byte with the number `send_unacknowledged`, every segment ever sent carries the
bytes of the stream its number stands for, and every FIN the number behind them. -/
theorem stream_intact (isn : SeqNum) (s t : Session) (as : List Act) (hstarted : Started isn s)
    (hmeets : Meets (step sn) (fun s a => a.numbered sn isn s) s as)
    (hrun : run (step sn) s as = some t) :
    (t.alive = true → ∃ i : Nat, t.sndq.content = t.stream.drop i ∧
        (t.sndq.content ≠ [] → t.sendUnacknowledged = isn.plus (1 + i))) ∧
      ∀ seg ∈ t.sent, Carried isn t.stream seg := by
  obtain ⟨u, n, a, h, -⟩ := run_invariant (Settled isn)
    (fun _ _ _ hs ha ht => settled_step sn hs ha ht) hstarted.settled hmeets hrun
  refine ⟨fun halive => ⟨a, h.queue halive, fun hne => ?_⟩, h.carried⟩
  rw [h.queue halive] at hne
  have hmore : a < t.stream.length := by
    by_contra hle
    exact hne (List.drop_eq_nil_of_le (Nat.le_of_not_lt hle))
  rw [h.una]
  rcases h.head with ⟨-, ⟨-, hnone⟩ | hu | ⟨-, hall, -⟩⟩
  · omega
  · rw [hu, Int.natCast_add]
    rfl
  · omega

/-- Data is packed and acknowledged in part, sent again, and followed by a FIN. -/
def sentInParts : List Act :=
  [segmentOf 0x50 0x10 101 1 [], .send .ample (.get 0 [1, 2, 3]), .send .ample (.get 0 [4, 5]),
    ackOf 10 3, .timer .ample, .close .ample, ackOf 10 4, .timer .ample, ackOf 10 6]

theorem parts_intact :
    ∃ t, run (step .rfc1982) accepted sentInParts = some t ∧ t.stream = [1, 2, 3, 4, 5] ∧
      (∃ seg ∈ t.sent, seg.fin = true ∧ seg.seqNo = 4 ∧ seg.data = [4, 5]) ∧
      ∀ seg ∈ t.sent, Carried 0 t.stream seg := by
  have hrun : ∃ t, run (step .rfc1982) accepted sentInParts = some t ∧
      t.stream = [1, 2, 3, 4, 5] ∧
      ∃ seg ∈ t.sent, seg.fin = true ∧ seg.seqNo = 4 ∧ seg.data = [4, 5] := by
    decide +kernel
  obtain ⟨t, ht, hstream, hfin⟩ := hrun
  refine ⟨t, ht, hstream, hfin, ?_⟩
  exact (stream_intact .rfc1982 0 accepted t sentInParts (.passive _ _ _) (by decide +kernel)
    ht).2

/-- **A FIN with the number of the SYN.**  The connection is closed before the handshake
is over, and the time runs out. -/
theorem fin_for_syn :
    ∃ t, run (step .rfc1982) accepted [.close .ample, .timer .ample] = some t ∧
      t.stream = [] ∧ ∃ seg ∈ t.sent, seg.fin = true ∧ seg.seqNo = 0 ∧ ¬Carried 0 t.stream seg := by
  have hrun : ∃ t, run (step .rfc1982) accepted [.close .ample, .timer .ample] = some t ∧
      t.stream = [] ∧ ∃ seg ∈ t.sent, seg.fin = true ∧ seg.seqNo = 0 ∧ seg.data = [] := by
    decide +kernel
  obtain ⟨t, ht, hstream, seg, hseg, hfin, hseq, hdata⟩ := hrun
  refine ⟨t, ht, hstream, seg, hseg, hfin, hseq, ?_⟩
  rintro ⟨k, hk, -, hlast⟩
  have hone : k = 1 := by
    have := hlast hfin
    rw [hdata, hstream] at this
    exact this
  rw [hseq, hone] at hk
  revert hk
  decide

end TcpSession
