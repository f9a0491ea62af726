import Mathlib.Algebra.GroupWithZero.Nat
import Mathlib.Data.List.Basic
import WisunModem.Faults
import WisunModem.Runs

/-!
# EAP-TLS fragments

The messages of a TLS handshake are cut into fragments with a flags octet in front, and the
first of several with the length of the whole.  An octet of a buffer is `none` until it is
written.  An access outside a packet or a buffer is a fault.
-/

namespace EapTls

/-- `EAP_TLS_START` -/
def startFlag : UInt8 := 0x20

/-- `EAP_TLS_MORE_FRAGMENTS` -/
def moreFragments : UInt8 := 0x40

/-- `EAP_TLS_FRAGMENT_LENGTH` -/
def fragmentLength : UInt8 := 0x80

/-- `EAP_TLS_FRAGMENT_LEN_VALUE` -/
def fragmentLen : Nat := 600

/-- `TLS_HEAD_LEN` -/
def tlsHeadLen : Nat := 5

inductive Fault
  /-- An access outside a packet or a buffer. -/
  | outside
  /-- An octet is sent that was never written. -/
  | unwritten
  deriving DecidableEq

abbrev Exec := Except Fault

abbrev Buffer := List (Option UInt8)

/-- `tls_data_t` -/
structure TlsData where
  data : Option Buffer
  totalLen : Nat
  handledLen : Nat
  deriving DecidableEq

/-- `eap_tls_sec_prot_msg_e` -/
inductive Result
  | identity | start | continue | sendDone | moreFrag | receiveDone | decodeError | fail
  deriving DecidableEq

/-- Which allocations of a call find memory. -/
structure Memory where
  send : Bool
  announced : Bool
  fragment : Bool

def Memory.full : Memory := ⟨true, true, true⟩

/-- `eap_tls_sec_prot_lib_message_init` -/
def TlsData.init : TlsData := ⟨none, 0, 0⟩

/-- `eap_tls_sec_prot_lib_message_allocate`, whose length has 16 bits. -/
def TlsData.allocate (tls : TlsData) (headLen len : Nat) (memory : Bool) : TlsData :=
  if memory then ⟨some (List.replicate (headLen + len % 2 ^ 16) none), len % 2 ^ 16, 0⟩
  else { tls with data := none }

/-! ## Receiving -/

def readByte (data : List UInt8) (i : Nat) : Exec UInt8 :=
  match data[i]? with
  | some b => pure b
  | none => throw .outside

/-- `common_read_32_bit` -/
def read32 (data : List UInt8) (i : Nat) : Exec Nat := do
  let b0 ← readByte data i
  let b1 ← readByte data (i + 1)
  let b2 ← readByte data (i + 2)
  let b3 ← readByte data (i + 3)
  pure (((b0.toNat * 2 ^ 8 + b1.toNat) * 2 ^ 8 + b2.toNat) * 2 ^ 8 + b3.toNat)

/-- `eap_tls_sec_prot_lib_ack_update` -/
def TlsData.ackUpdate (tls : TlsData) : Bool × TlsData :=
  if tls.data = none ∨ tls.totalLen = 0 then (false, tls)
  else if tls.handledLen + fragmentLen < tls.totalLen then
    (false, { tls with handledLen := tls.handledLen + fragmentLen })
  else (true, { tls with handledLen := tls.totalLen })

/-- `eap_tls_sec_prot_lib_fragment_read` -/
def TlsData.fragmentRead (tls : TlsData) (data : List UInt8) (len : Nat) : Exec (Bool × TlsData) :=
  if tls.handledLen + len > tls.totalLen then pure (true, tls)
  else
    match tls.data with
    | none => throw .outside
    | some buf =>
        if tls.handledLen + len ≤ buf.length ∧ len ≤ data.length then
          pure (tls.handledLen + len = tls.totalLen,
            { tls with
              data := some (buf.take tls.handledLen ++ (data.take len).map some ++
                buf.drop (tls.handledLen + len))
              handledLen := tls.handledLen + len })
        else throw .outside

/-- What the flags say: the result so far, the two buffers, and the octets of the length
field. -/
def headerHandle (data : List UInt8) (length : Nat) (flags : UInt8) (newSeqId : Bool)
    (send recv : TlsData) (memory : Memory) : Exec (Result × TlsData × TlsData × Nat) :=
  if flags &&& moreFragments ≠ 0 then
    let send := send.allocate tlsHeadLen 0 memory.send
    if flags &&& fragmentLength ≠ 0 then
      if length < 5 then pure (.decodeError, send, recv, 0)
      else do
        let len ← read32 data 1
        if recv.data = none then pure (.moreFrag, send, recv.allocate 0 len memory.announced, 4)
        else pure (.moreFrag, send, recv, 4)
    else pure (.moreFrag, send, recv, 0)
  else if flags = 0 ∨ flags = fragmentLength then
    if flags = fragmentLength ∧ length < 5 then pure (.decodeError, send, recv, 0)
    else
      let skip := if flags = fragmentLength then 4 else 0
      if newSeqId then
        let (done, send) := send.ackUpdate
        if done then pure (.sendDone, send.allocate tlsHeadLen 0 memory.send, recv, skip)
        else pure (.continue, send, recv, skip)
      else pure (.continue, send, recv, skip)
  else pure (.continue, send, recv, 0)

/-- The buffer a fragment goes to: the one there is, or a new one. -/
def TlsData.opened (recv : TlsData) (length : Nat) (memory : Bool) : TlsData :=
  if recv.data = none then recv.allocate 0 length memory else recv

/-- `eap_tls_sec_prot_lib_message_handle` -/
def eap_tls_sec_prot_lib_message_handle (data : List UInt8) (length : Nat) (newSeqId : Bool)
    (send recv : TlsData) (memory : Memory) : Exec (Result × TlsData × TlsData) := do
  let flags ← readByte data 0
  if flags &&& startFlag ≠ 0 then pure (.start, send, recv)
  else
    let (result, send, recv, skip) ← headerHandle data length flags newSeqId send recv memory
    if result = .decodeError then pure (result, send, recv)
    else
      let data := data.drop (skip + 1)
      let length := length - skip - 1
      if length = 0 then
        if newSeqId ∧ result = .continue then pure (.fail, send, recv)
        else pure (result, send, recv)
      else if newSeqId then
        let (done, recv) ← (recv.opened length memory.fragment).fragmentRead data length
        pure (if done then .receiveDone else result, send, recv)
      else pure (result, send, recv)

/-! ## Sending -/

/-- Octets written into a buffer. -/
def poke (buf : Buffer) (i : Nat) (bytes : List UInt8) : Exec Buffer :=
  if i + bytes.length ≤ buf.length then
    pure (buf.take i ++ bytes.map some ++ buf.drop (i + bytes.length))
  else throw .outside

/-- An octet of a buffer that is sent. -/
def written : Option UInt8 → Exec UInt8
  | some b => pure b
  | none => throw .unwritten

/-- Octets read from a buffer. -/
def peek (buf : Buffer) (i len : Nat) : Exec (List UInt8) :=
  if i + len ≤ buf.length then
    ((buf.drop i).take len).mapM written
  else throw .outside

/-- `common_write_32_bit` -/
def be32 (n : Nat) : List UInt8 :=
  [UInt8.ofNat (n / 2 ^ 24), UInt8.ofNat (n / 2 ^ 16), UInt8.ofNat (n / 2 ^ 8), UInt8.ofNat n]

/-- `eap_tls_sec_prot_lib_fragment_write`, on the buffer from its head on: the buffer, where
the message begins, and how long it is. -/
def fragmentWrite (buf : Buffer) (totalLen handledLen : Nat) (flags : UInt8) :
    Exec (Buffer × Nat × Nat) := do
  let start := tlsHeadLen + handledLen
  let (buf, start, len) ←
    if flags ≠ 0xff then do
      let buf ← poke buf (start - 1) [flags]
      pure (buf, start - 1, 1)
    else pure (buf, start, 0)
  if handledLen + fragmentLen < totalLen then
    if handledLen = 0 then do
      let flags := flags ||| moreFragments ||| fragmentLength
      let buf ← poke buf (start - 4) (flags :: be32 totalLen)
      pure (buf, start - 4, len + fragmentLen + 4)
    else do
      let buf ← poke buf start [flags ||| moreFragments]
      pure (buf, start, len + fragmentLen)
  else pure (buf, start, len + (totalLen - handledLen))

/-- `eap_tls_sec_prot_lib_message_build`, what follows the EAP type in the message. -/
def eap_tls_sec_prot_lib_message_build (flags : UInt8) (send : TlsData) :
    Exec (List UInt8 × TlsData) :=
  match send.data with
  | none => pure ([], send)
  | some buf => do
      let (buf, start, len) ← fragmentWrite buf send.totalLen send.handledLen flags
      let body ← peek buf start len
      pure (body, { send with data := some buf })

/-! ## Arbitrary packets -/

/-- The octets in front of the data: the flags, and a length field. -/
def headerLen (flags : UInt8) : Nat :=
  if flags &&& moreFragments ≠ 0 ∧ flags &&& fragmentLength ≠ 0 ∨ flags = fragmentLength then 5
  else 1

/-- The announced length of a packet. -/
def announced (packet : List UInt8) : Nat := (read32 packet 1).toOption.getD 0

/-- The receive buffer behind the flags of a packet: a first fragment opens it. -/
def TlsData.announce (recv : TlsData) (packet : List UInt8) (memory : Bool) : TlsData :=
  if packet.headD 0 &&& moreFragments ≠ 0 ∧ packet.headD 0 &&& fragmentLength ≠ 0 ∧
      recv.data = none then recv.allocate 0 (announced packet) memory
  else recv

/-- The receive buffer holds `handledLen` octets, and nothing behind them; or there is none. -/
inductive Tidy : TlsData → Prop
  | empty : Tidy .init
  | holds (written : List UInt8) (rest : Nat) :
      Tidy ⟨some (written.map some ++ List.replicate rest none), written.length + rest,
        written.length⟩

/-- All octets of the buffer were received. -/
def TlsData.complete (tls : TlsData) : Bool :=
  match tls.data with
  | none => false
  | some buf => buf.all Option.isSome

section

variable {data packet : List UInt8} {flags : UInt8} {send recv : TlsData} {memory : Memory}
  {newSeqId : Bool} {i : Nat}

theorem readByte_ok (h : i < data.length) : readByte data i = .ok data[i] := by
  unfold readByte
  rw [List.getElem?_eq_getElem h]
  rfl

theorem read32_ok (h : i + 3 < data.length) : ∃ n, read32 data i = .ok n := by
  unfold read32
  rw [readByte_ok (by omega), readByte_ok (by omega), readByte_ok (by omega), readByte_ok h]
  exact ⟨_, rfl⟩

theorem Tidy.allocate (h : Tidy recv) (hnone : recv.data = none) (len : Nat) (memory : Bool) :
    Tidy (recv.allocate 0 len memory) := by
  cases h with
  | empty =>
      unfold TlsData.allocate
      split
      · have := Tidy.holds [] (len % 2 ^ 16)
        simpa using this
      · exact .empty
  | holds => cases hnone

theorem Tidy.announce (h : Tidy recv) (packet : List UInt8) (memory : Bool) :
    Tidy (recv.announce packet memory) := by
  unfold TlsData.announce
  split
  next hopen => exact h.allocate hopen.2.2 _ _
  next => exact h

theorem Tidy.opened (h : Tidy recv) (len : Nat) (memory : Bool) :
    Tidy (recv.opened len memory) := by
  unfold TlsData.opened
  split
  next hnone => exact h.allocate hnone _ _
  next => exact h

/-- A tidy buffer is complete when all of it is handled. -/
theorem Tidy.complete_iff (h : Tidy recv) :
    recv.complete = true ↔ recv.data ≠ none ∧ recv.handledLen = recv.totalLen := by
  cases h with
  | empty => simp [TlsData.complete, TlsData.init]
  | holds written rest =>
      cases rest with
      | zero => simp [TlsData.complete]
      | succ rest => simp [TlsData.complete, List.replicate_succ]

/-- What the header of a packet comes to. -/
theorem headerHandle_ok (newSeqId : Bool) (send recv : TlsData) (memory : Memory)
    (hhead : packet.head? = some flags) :
    ∃ result send' recv' skip, headerHandle packet packet.length flags newSeqId send recv memory =
      .ok (result, send', recv', skip) ∧ result ≠ .receiveDone ∧
        ((result = .decodeError ∧ packet.length < 5 ∧ headerLen flags = 5 ∧ recv' = recv) ∨
          (result ≠ .decodeError ∧ skip + 1 = headerLen flags ∧
            recv' = recv.announce packet memory.announced)) := by
  have hflags : packet.headD 0 = flags := by
    cases packet with
    | nil => cases hhead
    | cons b rest => exact Option.some.inj hhead
  unfold headerHandle headerLen TlsData.announce
  rw [hflags]
  by_cases hmore : flags &&& moreFragments ≠ 0
  · rw [if_pos hmore]
    by_cases hlength : flags &&& fragmentLength ≠ 0
    · simp only [if_pos hlength]
      by_cases hshort : packet.length < 5
      · simp only [if_pos hshort]
        exact ⟨_, _, _, _, rfl, by decide, .inl ⟨rfl, hshort, by simp [hmore, hlength], rfl⟩⟩
      · simp only [if_neg hshort]
        obtain ⟨len, hlen⟩ := read32_ok (show 1 + 3 < packet.length by omega)
        have hannounced : announced packet = len := by
          unfold announced
          rw [hlen]
          rfl
        rw [hlen, hannounced]
        by_cases hnone : recv.data = none
        · exact ⟨_, _, _, _, by simp only [if_pos hnone]; rfl, by decide,
            .inr ⟨by decide, by simp [hmore, hlength], by simp [hmore, hlength, hnone]⟩⟩
        · exact ⟨_, _, _, _, by simp only [if_neg hnone]; rfl, by decide,
            .inr ⟨by decide, by simp [hmore, hlength], by simp [hnone]⟩⟩
    · have hne : flags ≠ fragmentLength := by
        rintro rfl
        exact hlength (by decide)
      simp only [if_neg hlength]
      exact ⟨_, _, _, _, rfl, by decide, .inr ⟨by decide, by simp [hlength, hne], by simp [hlength]⟩⟩
  · rw [if_neg hmore]
    have hrecv : ∀ p, ¬ (flags &&& moreFragments ≠ 0 ∧ p) := fun p h => hmore h.1
    rw [if_neg (hrecv _)]
    by_cases hlast : flags = 0 ∨ flags = fragmentLength
    · rw [if_pos hlast]
      by_cases hlength : flags = fragmentLength
      · by_cases hshort : packet.length < 5
        · rw [if_pos ⟨hlength, hshort⟩]
          exact ⟨_, _, _, _, rfl, by decide, .inl ⟨rfl, hshort, by simp [hlength], rfl⟩⟩
        · rw [if_neg (fun h => hshort h.2)]
          simp only [if_pos hlength]
          split
          · split
            all_goals exact ⟨_, _, _, _, rfl, by decide, .inr ⟨by decide, by simp [hlength], rfl⟩⟩
          · exact ⟨_, _, _, _, rfl, by decide, .inr ⟨by decide, by simp [hlength], rfl⟩⟩
      · rw [if_neg (fun h => hlength h.1)]
        simp only [if_neg hlength]
        have hlen : (if flags &&& moreFragments ≠ 0 ∧ flags &&& fragmentLength ≠ 0 ∨
            flags = fragmentLength then 5 else 1) = 1 :=
          if_neg fun h => h.elim (hrecv _) hlength
        rw [hlen]
        split
        · split
          all_goals exact ⟨_, _, _, _, rfl, by decide, .inr ⟨by decide, rfl, rfl⟩⟩
        · exact ⟨_, _, _, _, rfl, by decide, .inr ⟨by decide, rfl, rfl⟩⟩
    · rw [if_neg hlast]
      have hlength : flags ≠ fragmentLength := fun h => hlast (.inr h)
      have hlen : (if flags &&& moreFragments ≠ 0 ∧ flags &&& fragmentLength ≠ 0 ∨
          flags = fragmentLength then 5 else 1) = 1 :=
        if_neg fun h => h.elim (hrecv _) hlength
      exact ⟨_, _, _, _, rfl, by decide, .inr ⟨by decide, hlen.symm, rfl⟩⟩

/-- The fragment goes behind what there is, if there is room. -/
theorem Tidy.fragmentRead (h : Tidy recv) {len : Nat} (hlen : len = data.length) (hpos : 0 < len)
    (hfits : recv.handledLen + len ≤ recv.totalLen) :
    ∃ recv', recv.fragmentRead data len =
        .ok (decide (recv.handledLen + len = recv.totalLen), recv') ∧ Tidy recv' ∧
      recv'.handledLen = recv.handledLen + len ∧ recv'.totalLen = recv.totalLen ∧
      recv'.data ≠ none := by
  cases h with
  | empty => exact absurd hfits (by simp [TlsData.init]; omega)
  | holds written rest =>
      dsimp only at hfits
      obtain ⟨left, rfl⟩ : ∃ left, rest = len + left := ⟨rest - len, by omega⟩
      have hbuf : (written.map some ++ List.replicate (len + left) none).take written.length ++
          (data.take len).map some ++
          (written.map some ++ List.replicate (len + left) none).drop (written.length + len) =
            (written ++ data).map some ++ List.replicate left (none : Option UInt8) := by
        rw [List.take_left' (List.length_map ..), hlen, List.take_length, List.map_append,
          List.drop_append, List.drop_eq_nil_of_le (by simp), List.length_map,
          Nat.add_sub_cancel_left, List.nil_append, List.drop_replicate, Nat.add_sub_cancel_left]
      have hbound : written.length + len ≤
          (written.map some ++ List.replicate (len + left) (none : Option UInt8)).length ∧
            len ≤ data.length := by
        rw [List.length_append, List.length_map, List.length_replicate]
        exact ⟨by omega, Nat.le_of_eq hlen⟩
      refine ⟨_, ?_, Tidy.holds (written ++ data) left, ?_, ?_, by simp⟩
      · unfold TlsData.fragmentRead
        rw [if_neg (by dsimp only; omega)]
        dsimp only
        rw [if_pos hbound, hbuf, List.length_append, ← hlen]
        simp only [Nat.add_assoc]
        rfl
      · simp [hlen]
      · simp [hlen]
        omega

/-- A packet whose data are copied: a new one that is no start and has data. -/
def Carries (packet : List UInt8) (newSeqId : Bool) : Prop :=
  newSeqId = true ∧ packet.headD 0 &&& startFlag = 0 ∧
    headerLen (packet.headD 0) < packet.length

/-- The buffer the data of a packet go to. -/
def TlsData.target (recv : TlsData) (packet : List UInt8) (memory : Memory) : TlsData :=
  (recv.announce packet memory.announced).opened (packet.length - headerLen (packet.headD 0))
    memory.fragment

/-- There is a buffer, and room in it for the data; or nothing is missing in it. -/
def TlsData.Takes (recv : TlsData) (packet : List UInt8) (memory : Memory) : Prop :=
  (recv.target packet memory).data ≠ none ∧
    ((recv.target packet memory).handledLen + (packet.length - headerLen (packet.headD 0)) ≤
        (recv.target packet memory).totalLen ∨
      (recv.target packet memory).handledLen = (recv.target packet memory).totalLen)

/-- **One packet.**  Nothing outside it or a buffer is touched, and a message is reported
that is not complete where the packet carries data the buffer does not take. -/
theorem message_handle_ok (h : Tidy recv) (newSeqId : Bool) (send : TlsData) (memory : Memory)
    (hpacket : packet ≠ []) :
    ∃ result send' recv', eap_tls_sec_prot_lib_message_handle packet packet.length newSeqId send
        recv memory = .ok (result, send', recv') ∧ Tidy recv' ∧
      ((result = .receiveDone ∧ recv'.complete = false) ↔
        (Carries packet newSeqId ∧ ¬ recv.Takes packet memory)) := by
  obtain ⟨flags, rest, rfl⟩ := List.exists_cons_of_ne_nil hpacket
  unfold eap_tls_sec_prot_lib_message_handle Carries TlsData.Takes TlsData.target
  rw [readByte_ok (by simp)]
  dsimp only [List.getElem_cons_zero, List.headD_cons, bind, Except.bind]
  by_cases hstart : flags &&& startFlag = 0
  · rw [if_neg (not_not.mpr hstart)]
    obtain ⟨result, send', recv', skip, heq, hresult, hcases⟩ := headerHandle_ok newSeqId send recv
      memory (show (flags :: rest).head? = some flags from rfl)
    rw [heq]
    dsimp only
    rcases hcases with ⟨rfl, hshort, hhead, rfl⟩ | ⟨herror, hskip, rfl⟩
    · refine ⟨_, _, _, if_pos rfl, h, ?_⟩
      constructor
      · rintro ⟨hdone, -⟩
        cases hdone
      · rintro ⟨⟨-, -, hlong⟩, -⟩
        omega
    · rw [if_neg herror, Nat.sub_sub, hskip]
      have htidy := h.announce (flags :: rest) memory.announced
      by_cases hempty : (flags :: rest).length - headerLen flags = 0
      · rw [if_pos hempty]
        refine ⟨if newSeqId ∧ result = .continue then .fail else result, send', _, ?_, htidy, ?_⟩
        · split <;> rfl
        · constructor
          · rintro ⟨hdone, -⟩
            split at hdone
            · cases hdone
            · exact absurd hdone hresult
          · rintro ⟨⟨-, -, hlong⟩, -⟩
            omega
      · rw [if_neg hempty]
        cases newSeqId with
        | false => exact ⟨_, _, _, rfl, htidy, by simp [hresult]⟩
        | true =>
            have hopened := htidy.opened ((flags :: rest).length - headerLen flags) memory.fragment
            generalize ((recv.announce (flags :: rest) memory.announced).opened
              ((flags :: rest).length - headerLen flags) memory.fragment) = target at hopened ⊢
            have hcarries : headerLen flags < (flags :: rest).length := by omega
            by_cases hfits : target.handledLen + ((flags :: rest).length - headerLen flags) ≤
                target.totalLen
            · obtain ⟨recv', hread, htidy', hhandled, htotal, hdata⟩ := hopened.fragmentRead
                (List.length_drop ..).symm (Nat.pos_of_ne_zero hempty) hfits
              refine ⟨if decide (target.handledLen +
                  ((flags :: rest).length - headerLen flags) = target.totalLen) then .receiveDone
                else result, send', recv', ?_, htidy', ?_⟩
              · rw [if_pos rfl, hread]
                rfl
              rw [Bool.eq_false_iff, ne_eq, htidy'.complete_iff, hhandled, htotal]
              have hexists : target.data ≠ none := by
                intro hnone
                cases hopened with
                | empty =>
                    have : 0 + ((flags :: rest).length - headerLen flags) ≤ 0 := hfits
                    omega
                | holds => cases hnone
              constructor
              · rintro ⟨hreport, hincomplete⟩
                by_cases hdone : target.handledLen + ((flags :: rest).length - headerLen flags) =
                    target.totalLen
                · exact absurd ⟨hdata, hdone⟩ hincomplete
                · rw [decide_eq_false hdone] at hreport
                  exact absurd hreport hresult
              · rintro ⟨-, hno⟩
                exact absurd ⟨hexists, .inl hfits⟩ hno
            · refine ⟨.receiveDone, send', target, ?_, hopened, ?_⟩
              · rw [if_pos rfl]
                unfold TlsData.fragmentRead
                rw [if_pos (Nat.lt_of_not_le hfits)]
                rfl
              · rw [Bool.eq_false_iff, ne_eq, hopened.complete_iff]
                constructor
                · rintro ⟨-, hincomplete⟩
                  refine ⟨⟨rfl, hstart, hcarries⟩, fun htakes => hincomplete ?_⟩
                  exact ⟨htakes.1, htakes.2.resolve_left hfits⟩
                · rintro ⟨-, hno⟩
                  exact ⟨rfl, fun hcomplete => hno ⟨hcomplete.1, .inr hcomplete.2⟩⟩
  · rw [if_pos hstart]
    exact ⟨_, _, _, rfl, h, by simp [hstart]⟩

end

/-- A packet at the receiver: whether its id is new, what is being sent, the memory there is,
and whether TLS takes a message that is done. -/
structure Arrival where
  packet : List UInt8
  newSeqId : Bool
  send : TlsData
  memory : Memory
  taken : Bool

/-- A receive buffer, and for each message reported whether all of it was received. -/
structure Receiver where
  recv : TlsData
  reports : List Bool

namespace Receiver

def start : Receiver := ⟨.init, []⟩

/-- Packets without a flags octet are dropped before. -/
def receive (r : Receiver) (a : Arrival) : Option Receiver :=
  if a.packet = [] then some r
  else
    match eap_tls_sec_prot_lib_message_handle a.packet a.packet.length a.newSeqId a.send r.recv
      a.memory with
    | .error _ => none
    | .ok (result, _, recv) =>
        if result = .receiveDone then
          some ⟨if a.taken then .init else recv, r.reports ++ [recv.complete]⟩
        else some ⟨recv, r.reports⟩

/-- The data of the packet have a buffer and room in it. -/
def Takes (r : Receiver) (a : Arrival) : Prop :=
  a.packet ≠ [] → Carries a.packet a.newSeqId → r.recv.Takes a.packet a.memory

theorem receive_ok {r : Receiver} (h : Tidy r.recv) (a : Arrival) :
    ∃ t, r.receive a = some t ∧ Tidy t.recv ∧
      ((∀ report ∈ t.reports, report = true) ↔
        (∀ report ∈ r.reports, report = true) ∧ r.Takes a) := by
  unfold receive Takes
  by_cases hpacket : a.packet = []
  · rw [if_pos hpacket]
    exact ⟨r, rfl, h, by simp [hpacket]⟩
  · rw [if_neg hpacket]
    obtain ⟨result, send, recv, heq, htidy, hreport⟩ := message_handle_ok h a.newSeqId a.send
      a.memory hpacket
    rw [heq]
    dsimp only
    have hcomplete : (result = .receiveDone → recv.complete = true) ↔
        (Carries a.packet a.newSeqId → r.recv.Takes a.packet a.memory) := by
      constructor
      · intro hdone hcarries
        by_contra hno
        obtain ⟨hresult, hfalse⟩ := hreport.mpr ⟨hcarries, hno⟩
        exact absurd (hdone hresult) (by rw [hfalse]; decide)
      · intro htakes hresult
        by_contra hfalse
        obtain ⟨hcarries, hno⟩ := hreport.mp ⟨hresult, Bool.eq_false_iff.mpr hfalse⟩
        exact hno (htakes hcarries)
    by_cases hresult : result = .receiveDone
    · rw [if_pos hresult]
      refine ⟨_, rfl, ?_, ?_⟩
      · split
        · exact .empty
        · exact htidy
      · rw [← hcomplete]
        simp only [List.forall_mem_append, List.forall_mem_singleton, hresult, hpacket, true_implies,
          ne_eq, not_false_eq_true]
    · rw [if_neg hresult]
      refine ⟨_, rfl, htidy, ?_⟩
      rw [← hcomplete]
      simp [hresult]

/-- Every run of packets ends, and reports complete messages only if and only if each packet
finds a buffer and room. -/
theorem run_receive (arrivals : List Arrival) {r : Receiver} (h : Tidy r.recv) :
    ∃ t, Runs.run receive r arrivals = some t ∧
      ((∀ report ∈ t.reports, report = true) ↔
        (∀ report ∈ r.reports, report = true) ∧ Runs.Meets receive Takes r arrivals) := by
  induction arrivals generalizing r with
  | nil => exact ⟨r, rfl, by simp [Runs.Meets]⟩
  | cons a arrivals ih =>
      obtain ⟨m, hm, htidy, hiff⟩ := receive_ok h a
      obtain ⟨t, ht, hrest⟩ := ih htidy
      refine ⟨t, Runs.run_cons_iff.mpr ⟨m, hm, ht⟩, ?_⟩
      have hmeets : Runs.Meets receive Takes r (a :: arrivals) ↔
          r.Takes a ∧ Runs.Meets receive Takes m arrivals :=
        ⟨fun hall => ⟨hall.1, hall.2 m hm⟩, fun hall => Runs.meets_cons hall.1 hm hall.2⟩
      rw [hrest, hiff, hmeets, and_assoc]

end Receiver

end EapTls
