import WisunModem.TcpReceive
import WisunModem.TcpSend

/-!
# From one session to the other

The segments of a session as `tcp_build` writes them are read by the `tcp_up` of the
session at the other end.  Between the two the network may lose a segment, repeat it,
or bring it later than the ones behind it.

* `parse_frame` — what is written is what is read;
* `carried_carries` — the segments of a session are those of a peer with its stream;
* `stream_delivered` — what arrives is what was sent, from its beginning on.
-/

namespace TcpSession

open NsSocket Runs

/-! ## Segments as they are written -/

/-- The flags of a segment; PSH is set where the queue ends. -/
def flagsOf (psh : Bool) (seg : Sent) : UInt8 :=
  UInt8.ofNat (seg.fin.toNat + 2 * seg.syn.toNat + 8 * psh.toNat + 16 * seg.ack.toNat)

/-- A segment of `tcp_build` without a SYN; its ports and checksum are left out. -/
def frame (psh : Bool) (seg : Sent) : List UInt8 :=
  (bytesOf 0x50 (flagsOf psh seg) seg.seqNo.toNat seg.ackNo.toNat seg.window seg.data).data

theorem read16_bytes (n : Nat) :
    (UInt8.ofNat (n / 2 ^ 8)).toNat * 2 ^ 8 + (UInt8.ofNat n).toNat = n % 2 ^ 16 := by
  simp only [UInt8.toNat_ofNat']
  omega

theorem read32_bytes (x : SeqNum) :
    BitVec.ofNat 32 (((UInt8.ofNat (x.toNat / 2 ^ 16 / 2 ^ 8)).toNat * 2 ^ 8 +
      (UInt8.ofNat (x.toNat / 2 ^ 16)).toNat) * 2 ^ 16 +
        ((UInt8.ofNat (x.toNat / 2 ^ 8)).toNat * 2 ^ 8 + (UInt8.ofNat x.toNat).toNat)) = x := by
  have hlt := x.isLt
  apply BitVec.eq_of_toNat_eq
  rw [read16_bytes, read16_bytes, BitVec.toNat_ofNat]
  omega

/-- The flags are told apart. -/
theorem testBit_flags (fin syn psh ack : Bool) :
    let flags := UInt8.ofNat (fin.toNat + 2 * syn.toNat + 8 * psh.toNat + 16 * ack.toNat)
    flags.toNat.testBit 1 = syn ∧ flags.toNat.testBit 0 = fin := by
  revert fin syn psh ack
  decide

/-- What `tcp_build` writes is what `tcp_up` reads. -/
theorem parse_frame {psh : Bool} {seg : Sent} {buf : Buffer} (hbuf : buf.data = frame psh seg) :
    ∃ sg, tcpParse buf = some sg ∧ sg.seqNo = seg.seqNo ∧ sg.syn = seg.syn ∧
      sg.fin = seg.fin ∧ payload buf = seg.data := by
  have hfits : ¬((frame psh seg).length < 20 ∨ 20 > (frame psh seg).length) := by
    have hmore : 20 ≤ (frame psh seg).length := Nat.le_add_left 20 _
    omega
  have hseq : read32 (frame psh seg) 4 = seg.seqNo := read32_bytes seg.seqNo
  have hoffset : (0x50 : UInt8).toNat / 2 ^ 4 * 4 = 20 := rfl
  have hbase : dataOffset (frame psh seg) = 20 := hoffset
  have hflags : (frame psh seg).getD 13 0 = flagsOf psh seg := rfl
  have hdata : (frame psh seg).drop 20 = seg.data := rfl
  obtain ⟨hsyn, hfin⟩ := testBit_flags seg.fin seg.syn psh seg.ack
  unfold tcpParse payload Buffer.length
  dsimp only
  rw [hbuf, hbase, if_neg hfits, hflags, hseq]
  exact ⟨_, rfl, rfl, hsyn, hfin, hdata⟩

/-! ## The other end -/

variable (sn : SerialOrder) (isn : SeqNum) {a s : Session} {fill : UInt8}

/-- A session as the peer of another; behind its stream stands whatever we like. -/
def endOf (a : Session) (fill : UInt8) : Peer where
  irs := isn
  stream i := a.stream.getD i fill
  closedAt := some a.stream.length

theorem first_endOf {n : Nat} (h : n ≤ a.stream.length) :
    (endOf isn a fill).first n = a.stream.take n := by
  apply List.ext_getElem?
  intro i
  unfold Peer.first
  by_cases hi : i < n
  · rw [List.getElem?_map, List.getElem?_range hi, List.getElem?_take_of_lt hi]
    simp [endOf, List.getD_eq_getElem?_getD, List.getElem?_eq_getElem (Nat.lt_of_lt_of_le hi h)]
  · rw [List.getElem?_eq_none (by simp; omega), List.getElem?_eq_none (by simp; omega)]

/-- What is taken of it whatever stands behind its stream is taken of the stream. -/
theorem taken_within (h : ∀ fill, Receiving (endOf isn a fill) s) :
    s.taken.length ≤ a.stream.length := by
  by_contra hmore
  have hbyte (fill : UInt8) : s.taken[a.stream.length]? = some fill := by
    have hlast : (endOf isn a fill).stream a.stream.length = fill := by simp [endOf]
    rw [(h fill).bytes, Peer.first, List.getElem?_map, List.getElem?_range (by omega)]
    exact congrArg some hlast
  have hsame := (hbyte 0).symm.trans (hbyte 1)
  cases hsame

/-- Data and a FIN behind the SYN stand where their number says. -/
theorem carried_carries {seg : Sent} (hcarried : Carried isn a.stream seg)
    (hsyn : seg.syn = false) (h : ∀ fill, Receiving (endOf isn a fill) s)
    (halive : s.alive = true) (hst : s.state ≠ .synSent) (hshort : a.stream.length + 2 ≤ 2 ^ 31) :
    Carries (endOf isn a fill) (position s seg.seqNo) seg.syn seg.fin seg.data := by
  obtain ⟨k, hk, hdata, hfin⟩ := hcarried
  have hreceived : received s ≤ a.stream.length + 1 := by
    have hle := Bool.toNat_le s.finSeen
    have := taken_within isn h
    unfold received
    omega
  have hplace (hle : k ≤ a.stream.length + 1) : position s seg.seqNo = (k : Int) - 1 := by
    unfold position
    rw [hk, (h fill).next halive hst, endOf, SeqNum.toInt_plus_sub isn (by omega) (by omega)]
    omega
  have hbyte (i : Nat) (hi : i < seg.data.length) : ∃ j, k = 1 + j ∧ j + i < a.stream.length ∧
      seg.data[i]? = a.stream[j + i]? := by
    obtain ⟨j, hj, htake⟩ := hdata (List.ne_nil_of_length_pos (Nat.zero_lt_of_lt hi))
    have hlen := congrArg List.length htake
    rw [List.length_take, List.length_drop] at hlen
    refine ⟨j, hj, by omega, ?_⟩
    rw [htake, List.getElem?_take_of_lt hi, List.getElem?_drop]
  rw [hsyn]
  constructor
  · intro i hi _
    obtain ⟨j, rfl, hlt, heq⟩ := hbyte i hi
    have hnat : ((((1 + j : Nat) : Int) - 1) + (false : Bool).toNat + i).toNat = j + i := by
      simp
      omega
    rw [heq, hplace (by omega), hnat, List.getElem?_eq_getElem hlt]
    simp [endOf, List.getD_eq_getElem?_getD, List.getElem?_eq_getElem hlt]
  · rintro n hn i hi
    obtain ⟨j, rfl, hlt, -⟩ := hbyte i hi
    cases hn
    rw [hplace (by omega)]
    simp
    omega
  · intro hf
    have := hfin hf
    refine ⟨_, rfl, ?_⟩
    rw [hplace (by omega)]
    simp
    omega

theorem frame_fromPeer {psh : Bool} {seg : Sent} {buf : Buffer} (hbuf : buf.data = frame psh seg)
    (hcarried : Carried isn a.stream seg) (hsyn : seg.syn = false)
    (h : ∀ fill, Receiving (endOf isn a fill) s) (halive : s.alive = true)
    (hshort : a.stream.length + 2 ≤ 2 ^ 31) : FromPeer (endOf isn a fill) s buf := by
  obtain ⟨sg, hparse, hseq, hsgSyn, hfin, hdata⟩ := parse_frame hbuf
  rintro sg' hsg'
  obtain rfl : sg = sg' := Option.some.inj (hparse.symm.trans hsg')
  rw [hseq, hsgSyn, hfin, hdata]
  split
  · rw [hsyn]
    exact fun hne => by cases hne
  · rename_i hst
    exact carried_carries isn hcarried hsyn h halive hst hshort

/-- Nothing but flags: an acknowledgement, a reset, or a SYN, which opens a session only
with the first number of the other end. -/
def CarriesNothing (s : Session) (buf : Buffer) : Prop :=
  ∀ sg ∈ tcpParse buf, payload buf = [] ∧ sg.fin = false ∧
    (s.state = .synSent → sg.syn = true → sg.seqNo = isn)

instance (s : Session) (buf : Buffer) : Decidable (CarriesNothing isn s buf) :=
  inferInstanceAs (Decidable (∀ sg ∈ tcpParse buf, _))

theorem CarriesNothing.fromPeer {buf : Buffer} (h : CarriesNothing isn s buf) :
    FromPeer (endOf isn a fill) s buf := by
  intro sg hsg
  obtain ⟨hnone, hfin, hopens⟩ := h sg hsg
  have hempty (q : Int) : Carries (endOf isn a fill) q sg.syn sg.fin (payload buf) := by
    rw [hnone, hfin]
    exact ⟨fun i hi => (Nat.not_lt_zero i hi).elim, fun _ _ i hi => (Nat.not_lt_zero i hi).elim,
      fun hne => by cases hne⟩
  split
  · rename_i hst
    exact fun hsyn => ⟨hopens hst hsyn, hempty _⟩
  · exact hempty _

/-- Whatever is brought intact was sent at the other end behind the SYN, or carries nothing. -/
def Act.sentBy (a s : Session) : Act → Prop
  | .segment _ true buf =>
      (∃ seg ∈ a.sent, seg.syn = false ∧ (buf.data = frame false seg ∨ buf.data = frame true seg)) ∨
        CarriesNothing isn s buf
  | _ => True

instance (a s : Session) : (x : Act) → Decidable (x.sentBy isn a s)
  | .segment _ true _ => inferInstanceAs (Decidable (_ ∨ _))
  | .segment _ false _ => isTrue trivial
  | .timer _ | .send _ _ | .recv _ _ | .close _ | .shutdownRead _ | .release => isTrue trivial

/-- **From the application at one end to the application at the other.**  However the
network repeats, loses and reorders the segments of a session, what the other one takes
is the beginning of what was sent, and all of it once it has seen the FIN. -/
theorem stream_delivered (a₀ a b₀ b : Session) (as bs : List Act) (hstarted : Started isn a₀)
    (hnumbered : Meets (step sn) (fun s x => x.numbered sn isn s) a₀ as)
    (harun : run (step sn) a₀ as = some a) (hopened : Opened (endOf isn a 0) b₀)
    (hsent : Meets (step sn) (fun s x => x.sentBy isn a s ∧ x.sound sn s) b₀ bs)
    (hbrun : run (step sn) b₀ bs = some b) (hshort : a.stream.length + 2 ≤ 2 ^ 31) :
    b.taken <+: a.stream ∧ (b.finSeen = true → b.taken = a.stream) := by
  obtain ⟨u, n, k, hstreams, -⟩ := run_invariant (Settled isn)
    (fun _ _ _ hs ha ht => settled_step sn hs ha ht) hstarted.settled hnumbered harun
  have hend : ∀ fill, Receiving (endOf isn a fill) b := by
    refine run_invariant (fun s => ∀ fill, Receiving (endOf isn a fill) s)
      (fun s x t hs hx ht fill => ?_) (fun fill => ?_) hsent hbrun
    · refine receiving_step sn (hs fill) ⟨?_, hx.2⟩ ht
      have halive : s.alive = true := by
        by_contra hdead
        simp [step, hdead] at ht
      have hsent := hx.1
      cases x with
      | segment env intact buf =>
          cases intact with
          | false => trivial
          | true =>
              rcases hsent with ⟨seg, hseg, hsyn, hbuf⟩ | hnothing
              · have hcarried := hstreams.carried seg hseg
                rcases hbuf with hbuf | hbuf
                all_goals exact frame_fromPeer isn hbuf hcarried hsyn hs halive hshort
              · exact hnothing.fromPeer isn
      | timer | send | recv | close | shutdownRead | release => trivial
    · apply Opened.receiving
      cases hopened with
      | active isn' rcvLimit sndLimit => exact .active isn' rcvLimit sndLimit
      | passive isn' rcvLimit sndLimit seg h => exact .passive isn' rcvLimit sndLimit seg h
  have hbytes : b.taken = a.stream.take b.taken.length :=
    (hend 0).bytes.trans (first_endOf isn (taken_within isn hend))
  refine ⟨hbytes ▸ List.take_prefix _ _, fun hfin => ?_⟩
  have hall := Option.some.inj ((hend 0).fin hfin)
  rw [hbytes, ← hall, List.take_length]

/-- **Nothing is in flight without its timer.**  A session sends no more than 65535 numbers
ahead of what is acknowledged, and has nothing in flight when it is not busy; a FIN that
was sent is behind everything the application sent. -/
theorem flight_timed (s t : Session) (as : List Act) (hstarted : Started isn s)
    (hnumbered : Meets (step sn) (fun s x => x.numbered sn isn s) s as)
    (hrun : run (step sn) s as = some t) :
    inFlight t ≤ 0xffff ∧ (t.busy = false → t.sendNext = t.sendUnacknowledged) ∧
      (t.sentFin = true → t.sendNext = isn.plus (t.stream.length + 2 : Nat)) := by
  obtain ⟨u, n, k, h, -⟩ := run_invariant (Settled isn)
    (fun _ _ _ hs ha ht => settled_step sn hs ha ht) hstarted.settled hnumbered hrun
  have horder := h.order
  refine ⟨?_, fun hidle => ?_, fun hfin => ?_⟩
  · unfold inFlight
    rw [h.una, h.next, SeqNum.toNat_plus_sub]
    omega
  · rw [h.next, h.una, (h.idle hidle).1]
  · rw [h.next, (h.fin hfin).1]

theorem flight_timed_parts :
    ∃ t, run (step .rfc1982) accepted sentInParts = some t ∧ t.sentFin = true ∧
      inFlight t ≤ 0xffff := by
  obtain ⟨t, ht, hfin⟩ :
      ∃ t, run (step .rfc1982) accepted sentInParts = some t ∧ t.sentFin = true := by
    decide +kernel
  exact ⟨t, ht, hfin, (flight_timed .rfc1982 0 accepted t sentInParts (.passive _ _ _)
    (by decide +kernel) ht).1⟩

/-- The SYN and the segments behind it, the last one first and the first one again. -/
def arrivals (a : Session) : List Act :=
  .segment .ample true (bytesOf 0x50 0x12 0 101 2048 []) ::
    [3, 1, 2, 1, 3].flatMap fun i =>
      (a.sent[i]?).toList.map fun seg => .segment .ample true (.get 0 (frame true seg))

theorem parts_delivered :
    ∃ a b, run (step .rfc1982) accepted sentInParts = some a ∧
      run (step .rfc1982) (tcpSessionOpen (allocate 100 2048 2048)) (arrivals a) = some b ∧
      b.taken = [1, 2, 3, 4, 5] ∧ b.taken <+: a.stream ∧
        (b.finSeen = true → b.taken = a.stream) := by
  have hrun : ∃ a, run (step .rfc1982) accepted sentInParts = some a ∧
      a.stream.length + 2 ≤ 2 ^ 31 ∧
      Meets (step .rfc1982) (fun s x => x.sentBy 0 a s ∧ x.sound .rfc1982 s)
        (tcpSessionOpen (allocate 100 2048 2048)) (arrivals a) ∧
      ∃ b, run (step .rfc1982) (tcpSessionOpen (allocate 100 2048 2048)) (arrivals a) = some b ∧
        b.taken = [1, 2, 3, 4, 5] := by
    decide +kernel
  obtain ⟨a, ha, hshort, hmeets, b, hb, htaken⟩ := hrun
  refine ⟨a, b, ha, hb, htaken, ?_⟩
  exact stream_delivered .rfc1982 0 accepted a _ b sentInParts (arrivals a) (.passive _ _ _)
    (by decide +kernel) ha (.active _ _ _) hmeets hb hshort

end TcpSession
