import WisunModem.TcpFrames

/-!
# The peer and its segments

The peer numbers its SYN `irs` and its bytes from `irs + 1` on.  A segment is the
peer's when the bytes behind its header stand at their place in that stream; which
place that is, its number says relative to what is received already.

The window checks of `tcp_up` cut a segment at both ends, and count its numbers as
they do.  `carries_trim` says that what they leave is the peer's still.
-/

namespace TcpSession

open NsSocket

/-- The other end: the number of its SYN, the bytes it sends, and how many there are
once it has closed. -/
structure Peer where
  irs : SeqNum
  stream : Nat → UInt8
  closedAt : Option Nat

/-- The first `n` bytes of the peer. -/
def Peer.first (p : Peer) (n : Nat) : List UInt8 := (List.range n).map p.stream

/-- The numbers taken behind that of the SYN: the bytes, and the FIN. -/
def received (s : Session) : Nat := s.taken.length + s.finSeen.toNat

/-- The place in the peer's stream of the number `seq`; the SYN is at -1. -/
def position (s : Session) (seq : SeqNum) : Int := received s + (seq - s.receiveNext).toInt

/-- A segment with its first number at place `q` carries bytes of the peer. -/
structure Carries (p : Peer) (q : Int) (syn fin : Bool) (data : List UInt8) : Prop where
  bytes : ∀ i, i < data.length → 0 ≤ q + syn.toNat + i →
    data[i]? = some (p.stream (q + syn.toNat + i).toNat)
  within : ∀ n ∈ p.closedAt, ∀ i, i < data.length → q + syn.toNat + i < n
  last : fin = true → ∃ n ∈ p.closedAt, q + syn.toNat + data.length = (n : Int)

instance (p : Peer) (q : Int) (syn fin : Bool) (data : List UInt8) :
    Decidable (Carries p q syn fin data) :=
  decidable_of_iff
    ((∀ i, i < data.length → 0 ≤ q + syn.toNat + i →
        data[i]? = some (p.stream (q + syn.toNat + i).toNat)) ∧
      (∀ n ∈ p.closedAt, ∀ i, i < data.length → q + syn.toNat + i < n) ∧
      (fin = true → ∃ n ∈ p.closedAt, q + syn.toNat + data.length = (n : Int)))
    ⟨fun h => ⟨h.1, h.2.1, h.2.2⟩, fun h => ⟨h.bytes, h.within, h.last⟩⟩

variable {p : Peer} {q : Int} {syn fin : Bool} {data : List UInt8}

/-- Without its front a segment begins further on. -/
theorem Carries.drop (h : Carries p q syn fin data) {a : Nat} (ha : a ≤ data.length) :
    Carries p (q + syn.toNat + a) false fin (data.drop a) where
  bytes i hi hq := by
    have hlen : a + i < data.length := by
      rw [List.length_drop] at hi
      omega
    have hbyte := h.bytes (a + i) hlen (by simp at hq; omega)
    rw [List.getElem?_drop, hbyte]
    congr 2
    simp
    omega
  within n hn i hi := by
    rw [List.length_drop] at hi
    have := h.within n hn (a + i) (by omega)
    simp
    omega
  last hfin := by
    obtain ⟨n, hn, heq⟩ := h.last hfin
    refine ⟨n, hn, ?_⟩
    rw [List.length_drop]
    simp
    omega

/-- Nor is its end needed. -/
theorem Carries.take (h : Carries p q syn fin data) (b : Nat) :
    Carries p q syn false (data.take b) where
  bytes i hi hq := by
    rw [List.length_take] at hi
    rw [List.getElem?_take_of_lt (by omega)]
    exact h.bytes i (by omega) hq
  within n hn i hi := by
    rw [List.length_take] at hi
    exact h.within n hn i (by omega)
  last hfin := by cases hfin

/-- Nothing is always the peer's. -/
theorem Carries.nil (p : Peer) (q : Int) : Carries p q false false [] where
  bytes i hi _ := by cases hi
  within n hn i hi := by cases hi
  last hfin := by cases hfin

/-- Bytes which begin where the stream is continue it. -/
theorem Carries.append {n : Nat} (h : Carries p n false fin data) :
    p.first n ++ data = p.first (n + data.length) := by
  have hdata : data = (List.range data.length).map fun i => p.stream (n + i) := by
    apply List.ext_getElem?
    intro i
    by_cases hi : i < data.length
    · rw [h.bytes i hi (by simp; omega), List.getElem?_map, List.getElem?_range hi]
      have hplace : ((n : Int) + (false : Bool).toNat + i).toNat = n + i := by
        simp
        omega
      rw [hplace]
      rfl
    · rw [List.getElem?_eq_none (by omega), List.getElem?_eq_none (by simp; omega)]
  conv_lhs => rw [hdata]
  unfold Peer.first
  rw [List.range_add, List.map_append, List.map_map]
  rfl

/-! ## What the window checks leave of a segment -/

/-- A queue which holds no more than 16 bits of bytes. -/
def Small (sb : Sockbuf) : Prop := sb.dataByteLimit < 2 ^ 16

theorem small_reserve (n : Nat) : Small (Sockbuf.init.reserve n) := by
  unfold Small Sockbuf.reserve
  split
  · decide
  · dsimp only
    omega

theorem receiveWindow_lt {s : Session} (h : Small s.rcvq) : receiveWindow s < 2 ^ 31 := by
  have hspace := s.rcvq.space_le
  have hadv := BitVec.toInt_lt (x := s.receiveAdv - s.receiveNext)
  unfold Small at h
  unfold receiveWindow
  omega

theorem receiveWindow_nonneg (s : Session) : 0 ≤ receiveWindow s := by
  unfold receiveWindow
  omega

/-- A segment holds `segLen` numbers. -/
def Counted (seg : Segment) : Prop :=
  seg.segLen = seg.buf.length + seg.syn.toNat + seg.fin.toNat ∧ seg.segLen < 2 ^ 16

/-- A segment in the window has some number in it. -/
theorem seqOk_within {s : Session} {seg : Segment} {d : Int} (hsmall : Small s.rcvq)
    (hlen : seg.segLen < 2 ^ 16) (hseq : seg.seqNo = s.receiveNext.plus d)
    (hlow : -2 ^ 31 ≤ d) (hhigh : d < 2 ^ 31) (hok : seqOk s seg = true) :
    (0 ≤ d ∧ d < receiveWindow s) ∨
      (0 < seg.segLen ∧ 0 ≤ d + seg.segLen - 1 ∧ d + seg.segLen - 1 < receiveWindow s) ∨
      (seg.segLen = 0 ∧ d = 0) := by
  have hw := receiveWindow_lt hsmall
  have hw0 := receiveWindow_nonneg s
  unfold seqOk at hok
  dsimp only at hok
  split at hok
  · rename_i hzero
    obtain ⟨hempty, hnext⟩ := of_decide_eq_true hok
    right; right
    refine ⟨hempty, ?_⟩
    rw [hseq, ← s.receiveNext.plus_zero, SeqNum.plus_plus] at hnext
    have := (SeqNum.plus_inj s.receiveNext (by omega) (by omega)).mp hnext
    omega
  · rw [Bool.or_eq_true, Bool.and_eq_true] at hok
    rcases hok with hfirst | ⟨hpos, hlast⟩
    · left
      rw [hseq, SeqNum.inRange_plus] at hfirst
      omega
    · right; left
      rw [hseq, SeqNum.plus_plus, SeqNum.inRange_plus] at hlast
      exact ⟨of_decide_eq_true hpos, by omega, by omega⟩

variable (sn : SerialOrder)

/-- A segment within the window, `d` numbers behind what is received, carries bytes of
the peer from there on. -/
structure Placed (p : Peer) (s : Session) (d : Int) (seg : Segment) : Prop where
  seqNo : seg.seqNo = s.receiveNext.plus d
  nonneg : 0 ≤ d
  lt : d < receiveWindow s ∨ seg.segLen = 0 ∧ d = 0
  segLen : seg.segLen = seg.buf.length + seg.fin.toNat
  bound : seg.segLen < 2 ^ 16
  carries : Carries p (received s + d) false seg.fin seg.buf.data

/-- The bytes already received are stripped, and the SYN with them. -/
theorem placed_preceding {s : Session} {seg : Segment} (hsmall : Small s.rcvq)
    (hcount : Counted seg) (hok : seqOk s seg = true)
    (hcarries : Carries p (position s seg.seqNo) seg.syn seg.fin seg.buf.data)
    (hsyn : (stripPreceding sn s seg).syn = false) :
    ∃ d, Placed p s d (stripPreceding sn s seg) := by
  obtain ⟨hlen, hbound⟩ := hcount
  have hseq := s.receiveNext.eq_plus seg.seqNo
  have hlow := BitVec.le_toInt (x := seg.seqNo - s.receiveNext)
  have hhigh := BitVec.toInt_lt (x := seg.seqNo - s.receiveNext)
  unfold position at hcarries
  generalize (seg.seqNo - s.receiveNext).toInt = d at hseq hlow hhigh hcarries
  have hw := receiveWindow_lt hsmall
  have hwithin := seqOk_within hsmall hbound hseq (by omega) (by omega) hok
  have hgreater : sn.greater s.receiveNext seg.seqNo = true ↔ d < 0 := by
    have hplus := sn.greater_plus s.receiveNext (i := 0) (j := d) (by omega) (by omega)
    rwa [SeqNum.plus_zero, ← hseq] at hplus
  unfold stripPreceding at hsyn ⊢
  dsimp only at hsyn ⊢
  split
  · rename_i hbefore
    rw [hgreater] at hbefore
    have hexcess : (s.receiveNext - seg.seqNo).toNat % 2 ^ 16 = (-d).toNat := by
      rw [hseq]
      nth_rewrite 1 [← s.receiveNext.plus_zero]
      rw [SeqNum.toNat_plus_sub]
      omega
    have hsynle := Bool.toNat_le seg.syn
    have hfinle := Bool.toNat_le seg.fin
    have hcut : (-d).toNat - seg.syn.toNat ≤ seg.buf.data.length := by
      unfold Buffer.length at hlen
      omega
    rw [hexcess]
    refine ⟨0, ?_, Int.le_refl 0, ?_, ?_, ?_, ?_⟩
    · dsimp only
      rw [hseq, SeqNum.plus_add, SeqNum.plus_add]
      congr 1
      omega
    · left
      omega
    · simp only [Buffer.length, Buffer.stripHeader, List.length_drop] at hlen ⊢
      omega
    · dsimp only
      omega
    · have hdrop := hcarries.drop hcut
      have hplace : (received s : Int) + d + seg.syn.toNat + ((-d).toNat - seg.syn.toNat : Nat) =
          received s + 0 := by omega
      rwa [hplace] at hdrop
  · rename_i hbefore
    rw [hgreater] at hbefore
    rw [if_neg (by rwa [hgreater])] at hsyn
    rw [hsyn] at hlen hcarries
    refine ⟨d, hseq, by omega, ?_, by simpa using hlen, hbound, ?_⟩
    · rcases hwithin with h | h | h
      · exact .inl h.2
      · left
        omega
      · exact .inr h
    · exact hcarries

/-- So are the bytes beyond the window, and the FIN with them. -/
theorem placed_following {s : Session} {seg : Segment} {d : Int} (hsmall : Small s.rcvq)
    (h : Placed p s d seg) : Placed p s d (stripFollowing sn s seg) := by
  have hw := receiveWindow_lt hsmall
  have hw0 := receiveWindow_nonneg s
  have hlen := h.segLen
  have hbound := h.bound
  have hlt := h.lt
  have hnonneg := h.nonneg
  have hafter : seg.seqNo + BitVec.ofNat 32 seg.buf.length =
      s.receiveNext.plus (d + seg.buf.length) := by
    rw [h.seqNo, SeqNum.plus_add]
  unfold stripFollowing
  dsimp only
  rw [hafter]
  split
  · rename_i hbeyond
    rw [sn.greater_plus s.receiveNext (by omega) (by omega)] at hbeyond
    rw [SeqNum.toNat_plus_sub]
    have hexcess : ((d + seg.buf.length - receiveWindow s) % 2 ^ 32).toNat % 2 ^ 16 =
        (d + seg.buf.length - receiveWindow s).toNat := by omega
    rw [hexcess]
    refine ⟨h.seqNo, hnonneg, ?_, ?_, ?_, ?_⟩
    · left
      omega
    · simp only [Buffer.length_truncate, Bool.toNat_false]
      omega
    · dsimp only
      omega
    · exact h.carries.take _
  · exact h

/-- **What the window checks leave of a peer's segment is the peer's**, and is counted
by its length. -/
theorem carries_trim {s : Session} {seg : Segment} (hsmall : Small s.rcvq)
    (hcount : Counted seg) (hok : seqOk s seg = true)
    (hcarries : Carries p (position s seg.seqNo) seg.syn seg.fin seg.buf.data)
    (hsyn : (trim sn s seg).syn = false) : ∃ d, Placed p s d (trim sn s seg) := by
  have hfollow : (stripFollowing sn s (stripPreceding sn s seg)).syn =
      (stripPreceding sn s seg).syn := by
    unfold stripFollowing
    dsimp only
    split <;> rfl
  unfold trim at hsyn
  rw [hfollow] at hsyn
  obtain ⟨d, hplaced⟩ := placed_preceding sn hsmall hcount hok hcarries hsyn
  exact ⟨d, placed_following sn hsmall hplaced⟩

/-- The data of a segment: what is behind its header, of 20 bytes at least. -/
def payload (buf : Buffer) : List UInt8 := buf.data.drop (max 20 (dataOffset buf.data))

/-- A parsed segment with a whole header is counted by its length. -/
theorem parse_whole {buf : Buffer} (hlen : buf.length ≤ 0xffff)
    {seg : Segment} (hparse : tcpParse buf = some seg) (hwhole : 20 ≤ dataOffset buf.data) :
    Counted seg ∧ seg.buf.data = payload buf := by
  unfold tcpParse at hparse
  dsimp only at hparse
  split at hparse
  · cases hparse
  · rename_i hshort
    simp only [Option.some.injEq] at hparse
    subst hparse
    refine ⟨?_, ?_⟩
    · unfold Counted
      simp only [Buffer.length, Buffer.stripHeader, List.length_drop] at hlen hshort ⊢
      have hsyn := Bool.toNat_le ((buf.data.getD 13 0).toNat.testBit 1)
      have hfin := Bool.toNat_le ((buf.data.getD 13 0).toNat.testBit 0)
      omega
    · simp only [Buffer.stripHeader, payload, Nat.max_eq_right hwhole]

/-- The peer's bytes stand where the number of the segment says. -/
def FromPeer (p : Peer) (s : Session) (buf : Buffer) : Prop :=
  ∀ seg ∈ tcpParse buf,
    if s.state = .synSent then
      seg.syn = true → seg.seqNo = p.irs ∧ Carries p (-1) seg.syn seg.fin (payload buf)
    else Carries p (position s seg.seqNo) seg.syn seg.fin (payload buf)

instance (p : Peer) (s : Session) (buf : Buffer) : Decidable (FromPeer p s buf) :=
  inferInstanceAs (Decidable (∀ seg ∈ tcpParse buf, _))

end TcpSession
