import WisunModem.EapTlsFragments

/-!
# Flights in fragments

What the functions of the fragments do for a whole flight of TLS messages: the send buffer
holds what is left of the flight and builds one fragment after the other, the receive buffer
what came of it.
-/

namespace EapTls

/-- What TLS hands over, its size a 16-bit number. -/
structure Flight where
  octets : List UInt8
  size : octets.length < 2 ^ 16
  deriving DecidableEq

/-- TLS hands over a flight, in a buffer with room for the header. -/
def Flight.pdu (flight : Flight) : TlsData :=
  ⟨some (List.replicate tlsHeadLen none ++ flight.octets.map some), flight.octets.length, 0⟩

/-- The message of a flight from this octet on. -/
def fragmentOf (flight : List UInt8) (handled : Nat) : List UInt8 :=
  if handled + fragmentLen < flight.length then
    if handled = 0 then 0xc0 :: be32 flight.length ++ flight.take fragmentLen
    else 0x40 :: (flight.drop handled).take fragmentLen
  else 0 :: flight.drop handled

/-- The send buffer has the flight from `handled` on. -/
structure Holds (send : TlsData) (flight : List UInt8) (handled : Nat) : Prop where
  data : ∃ head : Buffer, send.data = some (head ++ (flight.drop handled).map some) ∧
    head.length = tlsHeadLen + handled
  totalLen : send.totalLen = flight.length
  handledLen : send.handledLen = handled
  le : handled ≤ flight.length

section

variable {send recv : TlsData} {flight : List UInt8} {handled i len : Nat} {head tail buf : Buffer}
  {bytes : List UInt8} {flags : UInt8}

/-! ## Sending -/

theorem poke_head (hlen : i + bytes.length = head.length) :
    poke (head ++ tail) i bytes = .ok (head.take i ++ bytes.map some ++ tail) := by
  unfold poke
  rw [if_pos (by rw [List.length_append]; omega), List.take_append_of_le_length (by omega), hlen,
    List.drop_left]
  rfl

theorem poke_last {b c : UInt8} (hi : head.length = i) :
    poke (head ++ [some b] ++ tail) i [c] = .ok (head ++ [some c] ++ tail) := by
  have hlen : i + [c].length = (head ++ [some b]).length := by
    rw [List.length_append, hi]
    rfl
  rw [poke_head hlen, ← hi, List.take_left]
  rfl

theorem mapM_written : (bytes.map some).mapM written = .ok bytes := by
  induction bytes with
  | nil => rfl
  | cons b bytes ih =>
      rw [List.map_cons, List.mapM_cons, ih]
      rfl

theorem peek_tail (hi : head.length = i) (hlen : len ≤ bytes.length) :
    peek (head ++ bytes.map some) i len = .ok (bytes.take len) := by
  unfold peek
  rw [if_pos (by rw [List.length_append, List.length_map]; omega), ← hi, List.drop_left,
    ← List.map_take, mapM_written]

theorem Flight.holds (f : Flight) : Holds f.pdu f.octets 0 where
  data := ⟨List.replicate tlsHeadLen none, rfl, List.length_replicate ..⟩
  totalLen := rfl
  handledLen := rfl
  le := Nat.zero_le _

theorem holds_nothing (tls : TlsData) : Holds (tls.allocate tlsHeadLen 0 true) [] 0 where
  data := ⟨List.replicate tlsHeadLen none, rfl, List.length_replicate ..⟩
  totalLen := rfl
  handledLen := rfl
  le := Nat.zero_le _

/-- The header of a message is written over what is in front of its data. -/
theorem fragmentWrite_ok (hhead : head.length = tlsHeadLen + handled)
    (hle : handled ≤ flight.length) :
    ∃ head' header, fragmentWrite (head ++ (flight.drop handled).map some) flight.length handled 0 =
        .ok (head' ++ (header ++ flight.drop handled).map some, head'.length,
          (fragmentOf flight handled).length) ∧
      (header ++ flight.drop handled).take (fragmentOf flight handled).length =
        fragmentOf flight handled ∧
      head'.length + header.length = tlsHeadLen + handled := by
  have hlength : (head.take (tlsHeadLen + handled - 1)).length = tlsHeadLen + handled - 1 := by
    rw [List.length_take, hhead]
    exact Nat.min_eq_left (Nat.sub_le ..)
  have hfirst : poke (head ++ (flight.drop handled).map some) (tlsHeadLen + handled - 1) [0] =
      .ok (head.take (tlsHeadLen + handled - 1) ++ [some 0] ++ (flight.drop handled).map some) :=
    poke_head (by rw [hhead]; simp [tlsHeadLen]; omega)
  unfold fragmentWrite
  dsimp only [bind, Except.bind]
  rw [if_pos (by decide), hfirst]
  dsimp only [pure, Except.pure]
  unfold fragmentOf
  by_cases hmore : handled + fragmentLen < flight.length
  · have htake : ∀ header : List UInt8,
        (header ++ flight.drop handled).take (header.length + fragmentLen) =
          header ++ (flight.drop handled).take fragmentLen := fun header => List.take_length_add_append ..
    have hshort : fragmentLen ≤ flight.length := by omega
    rw [if_pos hmore, if_pos hmore]
    by_cases hzero : handled = 0
    · subst hzero
      refine ⟨[], 0xc0 :: be32 flight.length, ?_, ?_, rfl⟩
      · rw [if_pos rfl, poke_head (by rw [List.length_append, hlength]; rfl)]
        refine congrArg Except.ok (Prod.ext ?_ (Prod.ext rfl ?_))
        · have hflags : moreFragments ||| fragmentLength = 0xc0 := by decide
          simp [tlsHeadLen, hflags]
        · simp only [if_true, List.length_append, List.length_cons, List.length_take,
            Nat.min_eq_left hshort, be32, List.length_nil]
          omega
      · rw [if_pos rfl]
        have := htake (0xc0 :: be32 flight.length)
        rw [List.drop_zero] at this ⊢
        rw [List.length_append, List.length_take, Nat.min_eq_left hshort, this]
    · have hdata : ((flight.drop handled).take fragmentLen).length = fragmentLen := by
        rw [List.length_take, List.length_drop]
        omega
      refine ⟨head.take (tlsHeadLen + handled - 1), [0x40], ?_, ?_, ?_⟩
      · rw [if_neg hzero, if_neg hzero, poke_last hlength]
        refine congrArg Except.ok (Prod.ext ?_ (Prod.ext hlength.symm ?_))
        · simp [moreFragments]
        · show 1 + fragmentLen = ((flight.drop handled).take fragmentLen).length + 1
          rw [hdata, Nat.add_comm]
      · rw [if_neg hzero, List.length_cons, hdata, Nat.add_comm]
        exact htake [0x40]
      · rw [hlength]
        exact Nat.sub_add_cancel (Nat.le_add_right_of_le (by decide))
  · rw [if_neg hmore, if_neg hmore]
    refine ⟨head.take (tlsHeadLen + handled - 1), [0], ?_, ?_, ?_⟩
    · refine congrArg Except.ok (Prod.ext ?_ (Prod.ext hlength.symm ?_))
      · simp
      · show 1 + (flight.length - handled) = (flight.drop handled).length + 1
        rw [List.length_drop, Nat.add_comm]
    · exact List.take_of_length_le (by simp)
    · rw [hlength]
      exact Nat.sub_add_cancel (Nat.le_add_right_of_le (by decide))

/-- A message is built from the flight, which stays as it is. -/
theorem Holds.build (h : Holds send flight handled) :
    ∃ send', eap_tls_sec_prot_lib_message_build 0 send = .ok (fragmentOf flight handled, send') ∧
      Holds send' flight handled := by
  obtain ⟨⟨head, hdata, hhead⟩, htotal, hhandled, hle⟩ := h
  obtain ⟨head', header, hwrite, htake, hlength⟩ := fragmentWrite_ok hhead hle
  have hlong : (fragmentOf flight handled).length ≤ (header ++ flight.drop handled).length := by
    rw [← htake, List.length_take]
    exact Nat.min_le_right ..
  unfold eap_tls_sec_prot_lib_message_build
  rw [hdata, htotal, hhandled]
  dsimp only [bind, Except.bind]
  rw [hwrite]
  dsimp only
  rw [peek_tail rfl hlong, htake]
  refine ⟨_, rfl, ⟨head' ++ header.map some, ?_, ?_⟩, rfl, rfl, hle⟩
  · simp
  · simpa using hlength

/-- The start has no data. -/
theorem build_start (tls : TlsData) :
    ∃ send', eap_tls_sec_prot_lib_message_build startFlag (tls.allocate tlsHeadLen 0 true) =
      .ok ([startFlag], send') ∧ Holds send' [] 0 := by
  refine ⟨_, rfl, ⟨?_, rfl, rfl, Nat.zero_le _⟩⟩
  exact ⟨List.replicate 4 none ++ [some startFlag], rfl, rfl⟩

/-- An acknowledged fragment is followed by the next. -/
theorem Holds.next (h : Holds send flight handled) (hmore : handled + fragmentLen < flight.length) :
    send.ackUpdate = (false, { send with handledLen := handled + fragmentLen }) ∧
      Holds { send with handledLen := handled + fragmentLen } flight (handled + fragmentLen) := by
  obtain ⟨⟨head, hdata, hhead⟩, htotal, hhandled, hle⟩ := h
  constructor
  · unfold TlsData.ackUpdate
    rw [if_neg, if_pos, hhandled]
    · rw [hhandled, htotal]
      exact hmore
    · rw [hdata, htotal]
      simp only [reduceCtorEq, false_or]
      omega
  · refine ⟨⟨head ++ ((flight.drop handled).take fragmentLen).map some, ?_, ?_⟩, htotal, rfl, by omega⟩
    · rw [List.append_assoc, ← List.map_append]
      have : (flight.drop handled).take fragmentLen ++ flight.drop (handled + fragmentLen) =
          flight.drop handled := by
        rw [← List.drop_drop, List.take_append_drop]
      rw [this]
      exact hdata
    · rw [List.length_append, List.length_map, List.length_take, List.length_drop, hhead]
      omega

/-- Behind the last fragment of a flight, the flight is done; nothing is never done. -/
theorem Holds.ackUpdate_last (h : Holds send flight handled)
    (hlast : ¬ handled + fragmentLen < flight.length) :
    send.ackUpdate.1 = decide (flight ≠ []) ∧ (flight = [] → send.ackUpdate.2 = send) := by
  obtain ⟨⟨head, hdata, hhead⟩, htotal, hhandled, hle⟩ := h
  unfold TlsData.ackUpdate
  by_cases hnil : flight = []
  · subst hnil
    rw [if_pos (.inr htotal)]
    exact ⟨by simp, fun _ => rfl⟩
  · have : send.totalLen ≠ 0 := by
      rw [htotal]
      exact fun hzero => hnil (List.length_eq_zero_iff.mp hzero)
    rw [if_neg (by rw [hdata]; simpa using this), if_neg (by rw [hhandled, htotal]; exact hlast)]
    exact ⟨by simp [hnil], fun h => absurd h hnil⟩

/-! ## Receiving -/

/-- The receive buffer with the first octets of a flight. -/
def gathered (flight : List UInt8) (received : Nat) : TlsData :=
  ⟨some ((flight.take received).map some ++ List.replicate (flight.length - received) none),
    flight.length, received⟩

/-- There is no buffer before the first of them. -/
def receiving (flight : List UInt8) (received : Nat) : TlsData :=
  if received = 0 then .init else gathered flight received

theorem be32_read (hlen : flight.length < 2 ^ 16) (rest : List UInt8) :
    read32 (0xc0 :: be32 flight.length ++ rest) 1 = .ok flight.length := by
  have h0 : readByte (0xc0 :: be32 flight.length ++ rest) 1 = .ok _ := rfl
  have h1 : readByte (0xc0 :: be32 flight.length ++ rest) 2 = .ok _ := rfl
  have h2 : readByte (0xc0 :: be32 flight.length ++ rest) 3 = .ok _ := rfl
  have h3 : readByte (0xc0 :: be32 flight.length ++ rest) 4 = .ok _ := rfl
  unfold read32
  rw [h0, h1, h2, h3]
  refine congrArg Except.ok ?_
  simp only [UInt8.toNat_ofNat']
  omega

/-- The next octets of the flight go behind those there are. -/
theorem gathered_read (hle : handled ≤ flight.length) (hbytes : bytes <+: flight.drop handled) :
    (gathered flight handled).fragmentRead bytes bytes.length =
      .ok (decide (handled + bytes.length = flight.length), gathered flight (handled + bytes.length)) := by
  have hlength := hbytes.length_le
  rw [List.length_drop] at hlength
  have htake : flight.take (handled + bytes.length) = flight.take handled ++ bytes := by
    rw [List.take_add, ← List.prefix_iff_eq_take.mp hbytes]
  have hhead : (flight.take handled).length = handled := by
    rw [List.length_take, Nat.min_eq_left hle]
  have hbuf : ((flight.take handled).map some ++
      List.replicate (flight.length - handled) (none : Option UInt8)).length = flight.length := by
    rw [List.length_append, List.length_map, List.length_replicate, hhead]
    omega
  have hpre : ((flight.take handled).map some).length = handled := by
    rw [List.length_map, hhead]
  unfold TlsData.fragmentRead gathered
  rw [if_neg (by dsimp only; omega)]
  dsimp only
  rw [if_pos ⟨by rw [hbuf]; omega, Nat.le_refl _⟩, List.take_left' hpre, List.take_length,
    List.drop_append, List.drop_eq_nil_of_le (by rw [hpre]; omega), hpre, Nat.add_sub_cancel_left,
    List.drop_replicate, List.nil_append, htake, List.map_append, Nat.sub_sub]
  rfl

theorem gathered_all : (gathered flight flight.length).data = some (flight.map some) := by
  unfold gathered
  rw [List.take_length, Nat.sub_self, List.replicate_zero, List.append_nil]

/-- An allocated buffer has the first 0 octets of the flight. -/
theorem allocate_gathered (hsize : flight.length < 2 ^ 16) (tls : TlsData) :
    tls.allocate 0 flight.length true = gathered flight 0 := by
  unfold TlsData.allocate gathered
  rw [if_pos rfl, Nat.mod_eq_of_lt hsize]
  simp

/-- The data of a packet behind its header. -/
theorem handle_data {newSeqId : Bool} {rest : List UInt8} {result : Result} {send' recv' : TlsData}
    {skip : Nat} (hstart : flags &&& startFlag = 0)
    (hheader : headerHandle (flags :: rest) (flags :: rest).length flags newSeqId send recv .full =
      .ok (result, send', recv', skip)) (hresult : result ≠ .decodeError) :
    eap_tls_sec_prot_lib_message_handle (flags :: rest) (flags :: rest).length newSeqId send recv
        .full =
      if rest.length - skip = 0 then
        .ok (if newSeqId ∧ result = .continue then .fail else result, send', recv')
      else if newSeqId then
        ((recv'.opened (rest.length - skip) true).fragmentRead (rest.drop skip)
          (rest.length - skip)).map fun read =>
            (if read.1 then .receiveDone else result, send', read.2)
      else .ok (result, send', recv') := by
  have hlength : (flags :: rest).length - skip - 1 = rest.length - skip := by
    rw [List.length_cons]
    omega
  unfold eap_tls_sec_prot_lib_message_handle
  rw [readByte_ok (Nat.zero_lt_succ _)]
  dsimp only [List.getElem_cons_zero, bind, Except.bind]
  rw [if_neg (not_not.mpr hstart), hheader]
  dsimp only
  rw [if_neg hresult, hlength, List.drop_succ_cons]
  split
  · split <;> rfl
  · split
    · rw [show Memory.full.fragment = true from rfl]
      cases (recv'.opened (rest.length - skip) true).fragmentRead (rest.drop skip)
        (rest.length - skip) <;> rfl
    · rfl

/-- Data that are the next octets of a flight. -/
theorem handle_next {result : Result} {send' recv' : TlsData} {header : List UInt8}
    (hstart : flags &&& startFlag = 0) (hle : handled ≤ flight.length)
    (hbytes : bytes <+: flight.drop handled) (hpos : bytes ≠ [])
    (hheader : headerHandle (flags :: (header ++ bytes)) (flags :: (header ++ bytes)).length flags
      true send recv .full = .ok (result, send', recv', header.length)) (hresult : result ≠ .decodeError)
    (hopened : recv'.opened bytes.length true = gathered flight handled) :
    eap_tls_sec_prot_lib_message_handle (flags :: (header ++ bytes))
        (flags :: (header ++ bytes)).length true send recv .full =
      .ok (if handled + bytes.length = flight.length then .receiveDone else result, send',
        gathered flight (handled + bytes.length)) := by
  have hlength : (header ++ bytes).length - header.length = bytes.length := by
    rw [List.length_append, Nat.add_sub_cancel_left]
  rw [handle_data hstart hheader hresult, hlength,
    if_neg (fun h => hpos (List.length_eq_zero_iff.mp h)), if_pos rfl, List.drop_left, hopened,
    gathered_read hle hbytes]
  show Except.ok _ = _
  simp only [decide_eq_true_eq]

theorem receiving_next :
    receiving flight (handled + fragmentLen) = gathered flight (handled + fragmentLen) :=
  if_neg (Nat.add_one_ne_zero _)

theorem receiving_opened (hsize : flight.length < 2 ^ 16) (hmore : handled = 0 → len = flight.length) :
    (receiving flight handled).opened len true = gathered flight handled := by
  unfold receiving TlsData.opened
  by_cases hzero : handled = 0
  · subst hzero
    rw [if_pos rfl, if_pos (show TlsData.init.data = none from rfl), hmore rfl]
    exact allocate_gathered hsize _
  · rw [if_neg hzero]
    exact if_neg (by simp [gathered])

/-- **A fragment.**  All but the last are followed by more; with the last the flight is done. -/
theorem handle_fragment (hsize : flight.length < 2 ^ 16) (hlt : handled < flight.length)
    (send : TlsData) :
    eap_tls_sec_prot_lib_message_handle (fragmentOf flight handled)
        (fragmentOf flight handled).length true send (receiving flight handled) .full =
      .ok (if handled + fragmentLen < flight.length then
        (.moreFrag, send.allocate tlsHeadLen 0 true, gathered flight (handled + fragmentLen))
      else (.receiveDone, if send.ackUpdate.1 then send.ackUpdate.2.allocate tlsHeadLen 0 true
        else send.ackUpdate.2, gathered flight flight.length)) := by
  have hdrop : (flight.drop handled).length = flight.length - handled := List.length_drop ..
  unfold fragmentOf
  by_cases hmore : handled + fragmentLen < flight.length
  · have hdata : ((flight.drop handled).take fragmentLen).length = fragmentLen := by
      rw [List.length_take, hdrop]
      omega
    have hne : (flight.drop handled).take fragmentLen ≠ [] := by
      intro hnil
      rw [hnil] at hdata
      cases hdata
    rw [if_pos hmore, if_pos hmore]
    by_cases hzero : handled = 0
    · subst hzero
      rw [if_pos rfl]
      have hheader : headerHandle (0xc0 :: (be32 flight.length ++ flight.take fragmentLen))
          (0xc0 :: (be32 flight.length ++ flight.take fragmentLen)).length 0xc0 true send
          (receiving flight 0) .full = .ok (.moreFrag, send.allocate tlsHeadLen 0 true,
            gathered flight 0, (be32 flight.length).length) := by
        unfold headerHandle
        rw [if_pos (by decide), if_pos (by decide), if_neg (by simp [be32])]
        have hread := be32_read hsize (flight.take fragmentLen)
        rw [List.cons_append] at hread
        rw [hread, ← allocate_gathered hsize (receiving flight 0)]
        rfl
      rw [List.drop_zero] at hdata hne
      have hprefix : flight.take fragmentLen <+: flight.drop 0 := List.take_prefix ..
      have := handle_next (by decide) (Nat.zero_le _) hprefix hne hheader (by decide)
        (if_neg (by simp [gathered]))
      rw [hdata, if_neg (by omega)] at this
      exact this
    · rw [if_neg hzero]
      have hheader : headerHandle (0x40 :: ([] ++ (flight.drop handled).take fragmentLen))
          (0x40 :: ([] ++ (flight.drop handled).take fragmentLen)).length 0x40 true send
          (receiving flight handled) .full = .ok (.moreFrag, send.allocate tlsHeadLen 0 true,
            receiving flight handled, 0) := by
        unfold headerHandle
        rw [if_pos (by decide), if_neg (by decide)]
        rfl
      have := handle_next (by decide) (Nat.le_of_lt hlt) (List.take_prefix ..) hne hheader (by decide)
        (receiving_opened hsize fun h => absurd h hzero)
      rw [hdata, if_neg (by omega)] at this
      exact this
  · have hne : flight.drop handled ≠ [] := by
      intro hnil
      rw [hnil, List.length_nil] at hdrop
      omega
    rw [if_neg hmore, if_neg hmore]
    have hheader : ∃ result, headerHandle (0 :: ([] ++ flight.drop handled))
        (0 :: ([] ++ flight.drop handled)).length 0 true send (receiving flight handled) .full =
          .ok (result, if send.ackUpdate.1 then send.ackUpdate.2.allocate tlsHeadLen 0 true
            else send.ackUpdate.2, receiving flight handled, 0) ∧ result ≠ .decodeError := by
      unfold headerHandle
      rw [if_neg (by decide), if_pos (.inl rfl), if_neg (fun h => absurd h.1 (by decide)), if_pos rfl,
        if_neg (by decide)]
      dsimp only
      split
      · exact ⟨_, rfl, by decide⟩
      · exact ⟨_, rfl, by decide⟩
    obtain ⟨result, hheader, hresult⟩ := hheader
    have := handle_next (by decide) (Nat.le_of_lt hlt) (List.prefix_refl _) hne hheader hresult
      (receiving_opened hsize fun h => by rw [h, List.drop_zero])
    rw [hdrop, if_pos (by omega), Nat.add_sub_cancel' (Nat.le_of_lt hlt)] at this
    exact this

/-- An acknowledgement: the next fragment is up, or the flight is done. -/
theorem handle_ack (send recv : TlsData) :
    eap_tls_sec_prot_lib_message_handle [0] 1 true send recv .full =
      .ok (if send.ackUpdate.1 then (.sendDone, send.ackUpdate.2.allocate tlsHeadLen 0 true, recv)
        else (.fail, send.ackUpdate.2, recv)) := by
  cases hdone : send.ackUpdate.1 with
  | true =>
      have hheader : headerHandle [0] 1 0 true send recv .full =
          .ok (.sendDone, send.ackUpdate.2.allocate tlsHeadLen 0 true, recv, 0) := by
        unfold headerHandle
        rw [if_neg (by decide), if_pos (.inl rfl), if_neg (fun h => absurd h.1 (by decide)),
          if_pos rfl]
        dsimp only
        rw [hdone]
        rfl
      exact handle_data (by decide) hheader (by decide)
  | false =>
      have hheader : headerHandle [0] 1 0 true send recv .full =
          .ok (.continue, send.ackUpdate.2, recv, 0) := by
        unfold headerHandle
        rw [if_neg (by decide), if_pos (.inl rfl), if_neg (fun h => absurd h.1 (by decide)),
          if_pos rfl]
        dsimp only
        rw [hdone]
        rfl
      exact handle_data (by decide) hheader (by decide)

/-- A start changes nothing. -/
theorem handle_start (newSeqId : Bool) (send recv : TlsData) :
    eap_tls_sec_prot_lib_message_handle [startFlag] 1 newSeqId send recv .full =
      .ok (.start, send, recv) := rfl

/-- A fragment that comes again is not read again. -/
theorem handle_repeat (send : TlsData)
    (hopen : handled + fragmentLen < flight.length → recv.data ≠ none) :
    eap_tls_sec_prot_lib_message_handle (fragmentOf flight handled)
        (fragmentOf flight handled).length false send recv .full =
      .ok (if handled + fragmentLen < flight.length then
        (.moreFrag, send.allocate tlsHeadLen 0 true, recv) else (.continue, send, recv)) := by
  unfold fragmentOf
  by_cases hmore : handled + fragmentLen < flight.length
  · rw [if_pos hmore, if_pos hmore]
    have hrecv := hopen hmore
    split
    next hzero =>
      have hlong : 1 + 3 < (0xc0 :: be32 flight.length ++ flight.take fragmentLen).length := by
        simp [be32]
      obtain ⟨len, hread⟩ := read32_ok hlong
      have hheader : headerHandle (0xc0 :: (be32 flight.length ++ flight.take fragmentLen))
          (0xc0 :: (be32 flight.length ++ flight.take fragmentLen)).length 0xc0 false send recv
          .full = .ok (.moreFrag, send.allocate tlsHeadLen 0 true, recv, 4) := by
        rw [List.cons_append] at hread
        unfold headerHandle
        rw [if_pos (by decide), if_pos (by decide), if_neg (by simp [be32]), hread]
        exact if_neg hrecv
      rw [List.cons_append, handle_data (by decide) hheader (by decide)]
      split <;> rfl
    next hzero =>
      have hheader : headerHandle (0x40 :: (flight.drop handled).take fragmentLen)
          (0x40 :: (flight.drop handled).take fragmentLen).length 0x40 false send recv .full =
            .ok (.moreFrag, send.allocate tlsHeadLen 0 true, recv, 0) := by
        unfold headerHandle
        rw [if_pos (by decide), if_neg (by decide)]
        rfl
      rw [handle_data (by decide) hheader (by decide)]
      split <;> rfl
  · rw [if_neg hmore, if_neg hmore]
    have hheader : headerHandle (0 :: flight.drop handled) (0 :: flight.drop handled).length 0 false
        send recv .full = .ok (.continue, send, recv, 0) := by
      unfold headerHandle
      rw [if_neg (by decide), if_pos (.inl rfl), if_neg (fun h => absurd h.1 (by decide))]
      rfl
    rw [handle_data (by decide) hheader (by decide)]
    split <;> rfl

theorem fragmentOf_ne_nil : fragmentOf flight handled ≠ [] := by
  unfold fragmentOf
  split
  · split
    all_goals exact fun h => by cases h
  · exact fun h => by cases h

end

end EapTls
