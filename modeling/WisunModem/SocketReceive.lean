import WisunModem.Sockbuf

/-!
# Copying received data to the user

`socket_copy_queue_to_user` walks over the buffers of the receive queue and over the blocks of
the message at the same time.  Each turn of its loop ends a buffer or a block, or both.
-/

namespace SocketReceive

/-- The variables of the loop.  The blocks are those that were filled, the current one up to and
from `out_ptr`, and the ones behind; `inp` is the current buffer from `in_ptr`. -/
structure Copying where
  queue : List Buffer
  dataBytes : Nat
  bufOverheadBytes : Nat
  inp : List UInt8
  behind : List Buffer
  done : List (List UInt8)
  filled : List UInt8
  room : List UInt8
  todo : List (List UInt8)
  retVal : Nat

/-- How the loop ends: without another buffer, or without another block. -/
inductive Exit
  | drained
  | full
deriving DecidableEq, Repr

/-- What the user and the socket have afterwards. -/
structure Result where
  blocks : List (List UInt8)
  queue : List Buffer
  dataBytes : Nat
  bufOverheadBytes : Nat
  truncated : Bool
  retVal : Nat

/-- `buffer_data_strip_header` on the first buffer. -/
def stripFirst (len : Nat) : List Buffer → List Buffer
  | [] => []
  | buf :: bufs => buf.stripHeader len :: bufs

/-- `sockbuf_drop_first` -/
def dropFirst (c : Copying) : Copying :=
  match c.queue with
  | [] => c
  | buf :: bufs =>
      { c with
        queue := bufs
        dataBytes := c.dataBytes - buf.length
        bufOverheadBytes := c.bufOverheadBytes - buf.overhead }

/-- The memory copy, with which the bytes are consumed unless they are peeked at. -/
def copy (peek : Bool) (c : Copying) : Copying :=
  let len := min c.inp.length c.room.length
  { c with
    filled := c.filled ++ c.inp.take len
    room := c.room.drop len
    inp := c.inp.drop len
    retVal := c.retVal + len
    queue := if peek then c.queue else stripFirst len c.queue
    dataBytes := if peek then c.dataBytes else c.dataBytes - len }

/-- The end of a turn: the next block, if this one is full. -/
def nextBlock (c : Copying) : Copying × Option Exit :=
  if c.room = [] then
    match c.todo with
    | [] => (c, some .full)
    | block :: todo =>
        ({ c with done := c.done ++ [c.filled], filled := [], room := block, todo }, none)
  else (c, none)

/-- The buffers from the next one on; a datagram has no next one. -/
def following (peek stream : Bool) (c : Copying) : List Buffer :=
  if !stream then [] else if peek then c.behind else c.queue

/-- A turn of the loop. -/
def turn (peek stream : Bool) (c : Copying) : Copying × Option Exit :=
  let c := copy peek c
  if c.inp = [] then
    let c := if peek then c else dropFirst c
    match following peek stream c with
    | [] => (c, some .drained)
    | buf :: behind => nextBlock { c with inp := buf.data, behind }
  else nextBlock c

/-- The buffers and blocks that are left. -/
def left (peek : Bool) (c : Copying) : Nat :=
  c.todo.length + if peek then c.behind.length else c.queue.length

theorem length_stripFirst (len : Nat) (bufs : List Buffer) :
    (stripFirst len bufs).length = bufs.length := by
  cases bufs <;> rfl

theorem left_nextBlock {peek : Bool} {c c' : Copying} (h : nextBlock c = (c', none)) :
    left peek c' ≤ left peek c ∧ (c.room = [] → left peek c' < left peek c) := by
  unfold nextBlock at h
  split at h
  · split at h
    · cases h
    · next block todo htodo =>
      cases h
      unfold left
      rw [htodo, List.length_cons]
      dsimp only
      omega
  · next hroom =>
    cases h
    exact ⟨Nat.le_refl _, fun hnil => absurd hnil hroom⟩

/-- A block or a buffer ends in every turn. -/
theorem left_turn {peek stream : Bool} {c c' : Copying} (h : turn peek stream c = (c', none)) :
    left peek c' < left peek c := by
  have hcopied : left peek (copy peek c) = left peek c := by
    unfold left copy
    cases peek
    · exact congrArg (c.todo.length + ·) (length_stripFirst _ c.queue)
    · rfl
  unfold turn at h
  dsimp only at h
  rw [← hcopied]
  split at h
  · split at h
    · cases h
    · next buf behind hnext =>
      refine Nat.lt_of_le_of_lt (@left_nextBlock peek _ _ h).1 ?_
      unfold following at hnext
      cases stream
      · cases hnext
      cases peek
      · simp only [Bool.not_true, Bool.false_eq_true, if_false] at hnext ⊢
        unfold dropFirst at hnext ⊢
        unfold left
        split at hnext
        · next hempty =>
          rw [hempty] at hnext
          cases hnext
        · next first rest hqueue =>
          rw [hqueue]
          exact Nat.lt_succ_self _
      · simp only [Bool.not_true, Bool.false_eq_true, if_false, if_true] at hnext ⊢
        unfold left
        rw [hnext]
        exact Nat.lt_succ_self _
  · next hinp =>
    refine (@left_nextBlock peek _ _ h).2 ?_
    unfold copy at hinp ⊢
    dsimp only at hinp ⊢
    rw [List.drop_eq_nil_iff] at hinp ⊢
    omega

/-- The loop of `socket_copy_queue_to_user`. -/
def copyLoop (peek stream : Bool) (c : Copying) : Copying × Exit :=
  match _h : turn peek stream c with
  | (c', some exit) => (c', exit)
  | (c', none) => copyLoop peek stream c'
termination_by left peek c
decreasing_by exact left_turn _h

/-- What follows the loop: the rest of a datagram is dropped, and counted if that is asked for. -/
def finish (peek trunc stream : Bool) (c : Copying) (exit : Exit) : Result :=
  let truncated := exit = .full && !stream
  let d := if truncated && !peek then dropFirst c else c
  { blocks := c.done ++ (c.filled ++ c.room) :: c.todo
    queue := d.queue
    dataBytes := d.dataBytes
    bufOverheadBytes := d.bufOverheadBytes
    truncated
    retVal := if truncated && trunc then c.retVal + c.inp.length else c.retVal }

/-- `socket_copy_queue_to_user` with the blocks of `msg_iov`.  The first block and the first buffer
are looked at in any case; without them the function reads behind a list. -/
def socketCopyQueueToUser (sb : Sockbuf) (iov : List (List UInt8)) (peek trunc stream : Bool) :
    Option Result :=
  match iov, sb.bufs with
  | block :: todo, buf :: behind =>
      let c : Copying :=
        { queue := sb.bufs
          dataBytes := sb.dataBytes
          bufOverheadBytes := sb.bufOverheadBytes
          inp := buf.data
          behind
          done := []
          filled := []
          room := block
          todo
          retVal := 0 }
      some (finish peek trunc stream (copyLoop peek stream c).1 (copyLoop peek stream c).2)
  | _, _ => none

/-- `socket_message_validate_iov`, for blocks whose base is not null; the sum has 16 bits. -/
def socketMessageValidateIov : Nat → List (List UInt8) → Bool
  | _, [] => true
  | msgLength, block :: iov =>
      let sum := (msgLength + block.length) % 2 ^ 16
      if sum < block.length then false else socketMessageValidateIov sum iov

/-! ## The loop -/

variable {sb : Sockbuf} {iov : List (List UInt8)} {peek stream : Bool} {c c' : Copying}

/-- The bytes that may be read: all of a stream, or the first datagram. -/
def available (sb : Sockbuf) (stream : Bool) : List UInt8 :=
  if stream then sb.content else (sb.bufs.head?.map Buffer.data).getD []

/-- The bytes that were written. -/
def Copying.written (c : Copying) : List UInt8 := c.done.flatten ++ c.filled

/-- Written bytes are in front of those that are not, in blocks of the same lengths. -/
structure Filling (iov : List (List UInt8)) (c : Copying) : Prop where
  lengths : (c.done ++ (c.filled ++ c.room) :: c.todo).map List.length = iov.map List.length
  untouched : iov.flatten.drop c.written.length = c.room ++ c.todo.flatten
  count : c.retVal = c.written.length

/-- The counters are those of the queue. -/
structure Counted (c : Copying) : Prop where
  data : c.dataBytes = dataOf c.queue
  overhead : c.bufOverheadBytes = overheadOf c.queue

/-- What holds at the beginning of each turn. -/
structure Going (sb : Sockbuf) (iov : List (List UInt8)) (peek stream : Bool) (c : Copying) :
    Prop where
  input : available sb stream
    = c.written ++ (c.inp ++ if stream then c.behind.flatMap Buffer.data else [])
  filling : Filling iov c
  counted : Counted c
  datagram : stream = false → c.behind = sb.bufs.tail
  peeked : peek = true → c.queue = sb.bufs
  consumed : peek = false → ∃ buf, c.queue = buf :: c.behind ∧ buf.data = c.inp

/-- What holds at the end of the loop. -/
structure Ended (sb : Sockbuf) (iov : List (List UInt8)) (peek stream : Bool) (c : Copying)
    (exit : Exit) (rest : List UInt8) : Prop where
  input : available sb stream = c.written ++ rest
  filling : Filling iov c
  counted : Counted c
  peeked : peek = true → c.queue = sb.bufs
  streamed : stream = true → peek = false → c.queue.flatMap Buffer.data = rest
  drained : exit = .drained → rest = [] ∧
    (stream = false → peek = false → c.queue = sb.bufs.tail)
  full : exit = .full → c.room = [] ∧ c.todo = [] ∧
    (stream = false → rest = c.inp ∧ c.inp ≠ [] ∧
      (peek = false → ∃ buf, c.queue = buf :: sb.bufs.tail))

theorem dataOf_stripFirst {len : Nat} {buf : Buffer} (h : len ≤ buf.length) (bufs : List Buffer) :
    dataOf (stripFirst len (buf :: bufs)) = dataOf (buf :: bufs) - len := by
  have hlength : (buf.stripHeader len).length = buf.length - len := by
    simp [Buffer.stripHeader, Buffer.length]
  unfold stripFirst
  rw [Sockbuf.dataOf_cons, Sockbuf.dataOf_cons, hlength]
  omega

/-- The memory copy moves bytes from the front of what is left to the end of what is written. -/
theorem Going.copy (h : Going sb iov peek stream c) :
    Going sb iov peek stream (SocketReceive.copy peek c) ∧
      ((SocketReceive.copy peek c).inp = [] ∨ (SocketReceive.copy peek c).room = []) := by
  obtain ⟨len, hlen⟩ : ∃ len, len = min c.inp.length c.room.length := ⟨_, rfl⟩
  have hinp : len ≤ c.inp.length := by omega
  have hroom : len ≤ c.room.length := by omega
  have hcopy : SocketReceive.copy peek c = { c with
      filled := c.filled ++ c.inp.take len
      room := c.room.drop len
      inp := c.inp.drop len
      retVal := c.retVal + len
      queue := if peek then c.queue else stripFirst len c.queue
      dataBytes := if peek then c.dataBytes else c.dataBytes - len } := by rw [hlen]; rfl
  have hwritten : (SocketReceive.copy peek c).written = c.written ++ c.inp.take len := by
    rw [hcopy]
    exact (List.append_assoc _ _ _).symm
  have htaken : (c.inp.take len).length = len := List.length_take_of_le hinp
  refine ⟨⟨?_, ⟨?_, ?_, ?_⟩, ?_, ?_, ?_, ?_⟩, ?_⟩
  · rw [hwritten, hcopy]
    calc available sb stream = c.written ++ (c.inp ++ _) := h.input
      _ = c.written ++ ((c.inp.take len ++ c.inp.drop len) ++ _) := by rw [List.take_append_drop]
      _ = _ := by simp only [List.append_assoc]
  · rw [hcopy]
    dsimp only
    rw [← h.filling.lengths]
    simp only [List.map_append, List.map_cons, List.length_append, htaken, List.length_drop]
    rw [show c.filled.length + len + (c.room.length - len) = c.filled.length + c.room.length by
      omega]
  · rw [hwritten, List.length_append, htaken, ← List.drop_drop, h.filling.untouched,
      List.drop_append_of_le_length hroom, hcopy]
  · rw [hwritten, List.length_append, htaken, hcopy, h.filling.count]
  · cases hpeek : peek with
    | true =>
      subst hpeek
      rw [hcopy]
      exact ⟨h.counted.data, h.counted.overhead⟩
    | false =>
      subst hpeek
      obtain ⟨buf, hqueue, hdata⟩ := h.consumed rfl
      have hfits : len ≤ buf.length := by
        unfold Buffer.length
        rw [hdata]
        exact hinp
      rw [hcopy]
      constructor
      · change c.dataBytes - len = dataOf (stripFirst len c.queue)
        rw [h.counted.data, hqueue, dataOf_stripFirst hfits]
      · change c.bufOverheadBytes = overheadOf (stripFirst len c.queue)
        rw [h.counted.overhead, hqueue]
        rfl
  · rw [hcopy]
    exact h.datagram
  · intro hpeek
    rw [hcopy]
    dsimp only
    rw [if_pos hpeek]
    exact h.peeked hpeek
  · intro hpeek
    obtain ⟨buf, hqueue, hdata⟩ := h.consumed hpeek
    rw [hcopy]
    dsimp only
    rw [if_neg (by rw [hpeek]; decide), hqueue]
    refine ⟨buf.stripHeader len, rfl, ?_⟩
    change buf.data.drop len = _
    rw [hdata]
  · rw [hcopy]
    dsimp only
    rw [List.drop_eq_nil_iff, List.drop_eq_nil_iff]
    omega

/-- The step to the next block. -/
theorem Going.nextBlock {exit : Option Exit} (h : Going sb iov peek stream c)
    (hnext : SocketReceive.nextBlock c = (c', exit)) :
    Going sb iov peek stream c' ∧
      (exit ≠ none → exit = some .full ∧ c' = c ∧ c.room = [] ∧ c.todo = []) := by
  unfold SocketReceive.nextBlock at hnext
  split at hnext
  · next hroom =>
    split at hnext
    · next htodo =>
      cases hnext
      exact ⟨h, fun _ => ⟨rfl, rfl, hroom, htodo⟩⟩
    · next block todo htodo =>
      cases hnext
      refine ⟨⟨?_, ⟨?_, ?_, ?_⟩, ⟨h.counted.data, h.counted.overhead⟩, h.datagram, h.peeked,
        h.consumed⟩, fun hsome => absurd rfl hsome⟩
      · have hinput := h.input
        unfold Copying.written at hinput ⊢
        simpa using hinput
      · have hlengths := h.filling.lengths
        rw [hroom, htodo] at hlengths
        simpa using hlengths
      · have huntouched := h.filling.untouched
        rw [hroom, htodo] at huntouched
        unfold Copying.written at huntouched ⊢
        simpa using huntouched
      · have hcount := h.filling.count
        unfold Copying.written at hcount ⊢
        simpa using hcount
  · cases hnext
    exact ⟨h, fun hsome => absurd rfl hsome⟩

/-- The first buffer is dropped. -/
theorem dropFirst_spec {buf : Buffer} {bufs : List Buffer} (h : Counted c)
    (hqueue : c.queue = buf :: bufs) :
    ∃ data overhead, dropFirst c = { c with
      queue := bufs, dataBytes := data, bufOverheadBytes := overhead } ∧
      data = dataOf bufs ∧ overhead = overheadOf bufs := by
  refine ⟨c.dataBytes - buf.length, c.bufOverheadBytes - buf.overhead, ?_, ?_, ?_⟩
  · unfold dropFirst
    rw [hqueue]
  · rw [h.data, hqueue, Sockbuf.dataOf_cons, Nat.add_sub_cancel_left]
  · rw [h.overhead, hqueue, Sockbuf.overheadOf_cons, Nat.add_sub_cancel_left]

/-- A buffer that is empty is left behind. -/
theorem Going.leave (h : Going sb iov peek stream c) (hinp : c.inp = []) :
    ∃ d, (if peek then c else dropFirst c) = d ∧ d.written = c.written ∧ Filling iov d ∧
      Counted d ∧ d.behind = c.behind ∧ d.inp = [] ∧ (peek = true → d.queue = sb.bufs) ∧
      (peek = false → d.queue = c.behind) := by
  cases peek with
  | true =>
    exact ⟨c, rfl, rfl, h.filling, h.counted, rfl, hinp, h.peeked, fun hpeek => nomatch hpeek⟩
  | false =>
    obtain ⟨buf, hqueue, -⟩ := h.consumed rfl
    obtain ⟨data, overhead, hdrop, hdata, hoverhead⟩ := dropFirst_spec h.counted hqueue
    have hfilling : Filling iov (dropFirst c) := by
      rw [hdrop]
      exact ⟨h.filling.lengths, h.filling.untouched, h.filling.count⟩
    have hcounted : Counted (dropFirst c) := by
      rw [hdrop]
      exact ⟨hdata, hoverhead⟩
    refine ⟨dropFirst c, rfl, ?_, hfilling, hcounted, ?_, ?_, fun hpeek => ?_, fun _ => ?_⟩
    · rw [hdrop]
      rfl
    · rw [hdrop]
    · rw [hdrop]
      exact hinp
    · cases hpeek
    · rw [hdrop]

/-- What holds after a turn. -/
def After (sb : Sockbuf) (iov : List (List UInt8)) (peek stream : Bool) (c : Copying) :
    Option Exit → Prop
  | none => Going sb iov peek stream c
  | some exit => ∃ rest, Ended sb iov peek stream c exit rest

/-- **A turn** goes on, or is the last. -/
theorem Going.turn {exit : Option Exit} (h : Going sb iov peek stream c)
    (hturn : SocketReceive.turn peek stream c = (c', exit)) :
    After sb iov peek stream c' exit := by
  obtain ⟨hcopied, -⟩ := h.copy
  unfold SocketReceive.turn at hturn
  generalize SocketReceive.copy peek c = d at hcopied hturn
  dsimp only at hturn
  split at hturn
  · next hinp =>
    obtain ⟨e, he, hwritten, hfilling, hcounted, hbehind, hempty, hpeeked, hqueue⟩ :=
      hcopied.leave hinp
    rw [he] at hturn
    have hinput := hcopied.input
    rw [hinp, List.nil_append, ← hwritten, ← hbehind] at hinput
    rw [← hbehind] at hqueue
    have hfollowing : following peek stream e = if stream then e.behind else [] := by
      unfold following
      cases stream with
      | false => rfl
      | true =>
        cases peek with
        | true => rfl
        | false => exact hqueue rfl
    rw [hfollowing] at hturn
    split at hturn
    · next hnone =>
      have hrest : (if stream then e.behind.flatMap Buffer.data else []) = [] := by
        cases stream with
        | false => rfl
        | true =>
          rw [if_pos rfl] at hnone ⊢
          rw [hnone]
          rfl
      rw [hrest] at hinput
      cases hturn
      refine ⟨[], hinput, hfilling, hcounted, hpeeked, fun hstream hpeek => ?_,
        fun _ => ⟨rfl, fun hstream hpeek => ?_⟩, fun hfull => nomatch hfull⟩
      · rw [hstream, if_pos rfl] at hnone
        rw [hqueue hpeek, hnone]
        rfl
      · rw [hqueue hpeek, hbehind]
        exact hcopied.datagram hstream
    · next buf behind hsome =>
      have hstream : stream = true := by
        cases stream with
        | false => cases hsome
        | true => rfl
      subst hstream
      rw [if_pos rfl] at hsome
      have hgoing : Going sb iov peek true { e with inp := buf.data, behind } := by
        refine ⟨?_, ⟨hfilling.lengths, hfilling.untouched, hfilling.count⟩,
          ⟨hcounted.data, hcounted.overhead⟩, nofun, hpeeked, fun hpeek => ?_⟩
        · rw [hsome] at hinput
          exact hinput
        · exact ⟨buf, (hqueue hpeek).trans hsome, rfl⟩
      obtain ⟨hnext, hexit⟩ := hgoing.nextBlock hturn
      cases exit with
      | none => exact hnext
      | some exit =>
        obtain ⟨hfull, hsame, hroom, htodo⟩ := hexit (by simp)
        cases hfull
        exact ⟨_, hnext.input, hnext.filling, hnext.counted, hnext.peeked, fun _ hpeek => by
            obtain ⟨first, hfirst, hdata⟩ := hnext.consumed hpeek
            rw [hfirst, List.flatMap_cons, hdata]
            rfl,
          nofun, fun _ => ⟨by rw [hsame]; exact hroom, by rw [hsame]; exact htodo, nofun⟩⟩
  · next hinp =>
    obtain ⟨hnext, hexit⟩ := hcopied.nextBlock hturn
    cases exit with
    | none => exact hnext
    | some exit =>
      obtain ⟨hfull, rfl, hroom, htodo⟩ := hexit (by simp)
      cases hfull
      refine ⟨_, hnext.input, hnext.filling, hnext.counted, hnext.peeked, fun hstream hpeek => ?_,
        nofun, fun _ => ⟨hroom, htodo, fun hstream => ⟨?_, hinp, fun hpeek => ?_⟩⟩⟩
      · obtain ⟨first, hfirst, hdata⟩ := hnext.consumed hpeek
        rw [hfirst, List.flatMap_cons, hdata, hstream]
        rfl
      · rw [hstream]
        exact List.append_nil _
      · obtain ⟨first, hfirst, -⟩ := hnext.consumed hpeek
        exact ⟨first, hnext.datagram hstream ▸ hfirst⟩

/-- **The loop**, by induction on its turns. -/
theorem Going.loop (h : Going sb iov peek stream c) :
    ∃ rest, Ended sb iov peek stream (copyLoop peek stream c).1 (copyLoop peek stream c).2 rest := by
  induction c using copyLoop.induct peek stream with
  | case1 c c' exit hturn =>
    rw [copyLoop, hturn]
    exact h.turn hturn
  | case2 c c' hturn ih =>
    rw [copyLoop, hturn]
    exact ih (h.turn hturn)

/-! ## What is received -/

/-- The bytes that fit are in the blocks and gone from the queue, unless they are only peeked at;
a datagram is gone as a whole. -/
structure Received (sb : Sockbuf) (iov : List (List UInt8)) (peek trunc stream : Bool)
    (r : Result) : Prop where
  written : r.blocks.flatten =
    (available sb stream).take iov.flatten.length ++ iov.flatten.drop (available sb stream).length
  lengths : r.blocks.map List.length = iov.map List.length
  peeked : peek = true → r.queue = sb.bufs
  streamed : stream = true → peek = false →
    r.queue.flatMap Buffer.data = sb.content.drop iov.flatten.length
  datagram : stream = false → peek = false → r.queue = sb.bufs.tail
  dataBytes : r.dataBytes = dataOf r.queue
  bufOverheadBytes : r.bufOverheadBytes = overheadOf r.queue
  retVal : r.retVal = if trunc && !stream then (available sb stream).length
    else min iov.flatten.length (available sb stream).length

/-- The blocks as bytes. -/
theorem Filling.flatten (h : Filling iov c) :
    (c.done ++ (c.filled ++ c.room) :: c.todo).flatten =
        c.written ++ iov.flatten.drop c.written.length ∧
      iov.flatten.length = c.written.length + (c.room ++ c.todo.flatten).length := by
  have hbytes : (c.done ++ (c.filled ++ c.room) :: c.todo).flatten
      = c.written ++ (c.room ++ c.todo.flatten) := by
    unfold Copying.written
    simp
  refine ⟨by rw [hbytes, h.untouched], ?_⟩
  calc iov.flatten.length = (iov.map List.length).sum := List.length_flatten
    _ = ((c.done ++ (c.filled ++ c.room) :: c.todo).map List.length).sum := by rw [h.lengths]
    _ = (c.done ++ (c.filled ++ c.room) :: c.todo).flatten.length := List.length_flatten.symm
    _ = _ := by rw [hbytes, List.length_append]

/-- Bytes in front, the rest of the room behind them. -/
theorem written_eq {written rest room : List UInt8} (h : rest = [] ∨ room = [])
    (hroom : iov.flatten.drop written.length = room)
    (hlength : iov.flatten.length = written.length + room.length) :
    written ++ iov.flatten.drop written.length = (written ++ rest).take iov.flatten.length ++
        iov.flatten.drop (written ++ rest).length ∧
      (written ++ rest).drop iov.flatten.length = rest ∧
      min iov.flatten.length (written ++ rest).length = written.length := by
  rcases h with rfl | rfl
  · have hfits : written.length ≤ iov.flatten.length := by omega
    rw [List.append_nil, List.take_of_length_le hfits]
    exact ⟨rfl, List.drop_eq_nil_of_le hfits, Nat.min_eq_right hfits⟩
  · rw [List.length_nil, Nat.add_zero] at hlength
    rw [hroom, hlength, List.take_left, List.drop_left, List.length_append]
    refine ⟨?_, rfl, by omega⟩
    rw [List.drop_eq_nil_of_le (by omega)]

theorem Ended.received {exit : Exit} {rest : List UInt8} (trunc : Bool)
    (h : Ended sb iov peek stream c exit rest) :
    Received sb iov peek trunc stream (finish peek trunc stream c exit) := by
  obtain ⟨hbytes, hlength⟩ := h.filling.flatten
  have hcase : rest = [] ∨ c.room ++ c.todo.flatten = [] := by
    cases exit with
    | drained => exact Or.inl (h.drained rfl).1
    | full =>
      obtain ⟨hroom, htodo, -⟩ := h.full rfl
      rw [hroom, htodo]
      exact Or.inr rfl
  obtain ⟨hwritten, hdrop, hmin⟩ := written_eq hcase h.filling.untouched hlength
  rw [← h.input] at hwritten hdrop hmin
  have hdone : stream = true ∨ exit = .drained → finish peek trunc stream c exit =
      { blocks := c.done ++ (c.filled ++ c.room) :: c.todo
        queue := c.queue
        dataBytes := c.dataBytes
        bufOverheadBytes := c.bufOverheadBytes
        truncated := false
        retVal := c.retVal } := by
    intro hor
    have hwhole : (decide (exit = Exit.full) && !stream) = false := by
      rcases hor with rfl | rfl
      · exact Bool.and_false _
      · rfl
    unfold finish
    rw [hwhole]
    rfl
  by_cases hor : stream = true ∨ exit = .drained
  · rw [hdone hor]
    refine ⟨hbytes.trans hwritten, h.filling.lengths, h.peeked, fun hstream hpeek => ?_,
      fun hstream hpeek => ?_, h.counted.data, h.counted.overhead, ?_⟩
    · have hcontent : available sb stream = sb.content := by rw [hstream]; rfl
      rw [← hcontent, hdrop]
      exact h.streamed hstream hpeek
    · rcases hor with htrue | hdrained
      · exact absurd (htrue.symm.trans hstream) (by decide)
      · exact (h.drained hdrained).2 hstream hpeek
    · change c.retVal = _
      rw [h.filling.count, hmin]
      split
      · next hcounts =>
        rw [Bool.and_eq_true, Bool.not_eq_true'] at hcounts
        rcases hor with htrue | hdrained
        · exact absurd (htrue.symm.trans hcounts.2) (by decide)
        · rw [h.input, (h.drained hdrained).1, List.append_nil]
      · rfl
  · -- a datagram that does not fit
    rw [not_or, Bool.not_eq_true] at hor
    obtain ⟨hstream, hexit⟩ := hor
    have hfull : exit = .full := by
      cases exit with
      | drained => exact absurd rfl hexit
      | full => rfl
    subst hstream hfull
    obtain ⟨-, -, hlost⟩ := h.full rfl
    obtain ⟨hrest, -, hfirst⟩ := hlost rfl
    have hret : (if trunc = true then c.retVal + c.inp.length else c.retVal)
        = if (trunc && !false) = true then (available sb false).length
          else min iov.flatten.length (available sb false).length := by
      rw [hmin, Bool.not_false, Bool.and_true, h.filling.count, h.input, hrest, List.length_append]
    cases peek with
    | true =>
      exact ⟨hbytes.trans hwritten, h.filling.lengths, h.peeked, nofun, nofun, h.counted.data,
        h.counted.overhead, hret⟩
    | false =>
      obtain ⟨buf, hqueue⟩ := hfirst rfl
      obtain ⟨data, overhead, hdropped, hdata, hoverhead⟩ := dropFirst_spec h.counted hqueue
      have hfinish : finish false trunc false c .full =
          { blocks := c.done ++ (c.filled ++ c.room) :: c.todo
            queue := (dropFirst c).queue
            dataBytes := (dropFirst c).dataBytes
            bufOverheadBytes := (dropFirst c).bufOverheadBytes
            truncated := true
            retVal := if trunc then c.retVal + c.inp.length else c.retVal } := rfl
      rw [hfinish, hdropped]
      exact ⟨hbytes.trans hwritten, h.filling.lengths, nofun, nofun, fun _ _ => rfl, hdata,
        hoverhead, hret⟩

/-- **Receiving.**  From a queue with a buffer in it the bytes are copied as they should be,
exactly if the message has at least one block. -/
theorem received_iff (hsome : sb.bufs ≠ []) (trunc : Bool) :
    (∃ r, socketCopyQueueToUser sb iov peek trunc stream = some r ∧
      Received sb iov peek trunc stream r) ↔ iov ≠ [] := by
  constructor
  · intro h hnil
    obtain ⟨r, hr, -⟩ := h
    rw [hnil] at hr
    cases hr
  · intro hblocks
    obtain ⟨block, todo, rfl⟩ := List.exists_cons_of_ne_nil hblocks
    obtain ⟨buf, behind, hbufs⟩ := List.exists_cons_of_ne_nil hsome
    have hstart : Going sb (block :: todo) peek stream
        { queue := sb.bufs
          dataBytes := sb.dataBytes
          bufOverheadBytes := sb.bufOverheadBytes
          inp := buf.data
          behind
          done := []
          filled := []
          room := block
          todo
          retVal := 0 } := by
      refine ⟨?_, ⟨rfl, rfl, rfl⟩, ⟨sb.data_eq, sb.overhead_eq⟩, fun _ => ?_, fun _ => rfl,
        fun _ => ⟨buf, hbufs, rfl⟩⟩
      · unfold available Sockbuf.content
        rw [hbufs]
        cases stream with
        | true => rfl
        | false => exact (List.append_nil _).symm
      · rw [hbufs]
        rfl
    obtain ⟨rest, hended⟩ := hstart.loop
    refine ⟨_, ?_, hended.received trunc⟩
    unfold socketCopyQueueToUser
    split
    · next first others buf' behind' hcons hbufs' =>
      cases hcons
      rw [hbufs] at hbufs'
      cases hbufs'
      rfl
    · next hno => exact absurd hbufs (hno block todo buf behind rfl)

/-- A queue with one datagram of three bytes. -/
def oneDatagram : Sockbuf := Sockbuf.init.append (Buffer.get 0 [1, 2, 3])

/-- Three bytes into blocks of two. -/
theorem received_iff_one :
    oneDatagram.bufs ≠ [] ∧
      ((∃ r, socketCopyQueueToUser oneDatagram [[0, 0], [0, 0]] false false false = some r ∧
        Received oneDatagram [[0, 0], [0, 0]] false false false r) ↔
        ([[0, 0], [0, 0]] : List (List UInt8)) ≠ []) :=
  have hsome : oneDatagram.bufs ≠ [] := List.cons_ne_nil _ _
  ⟨hsome, received_iff hsome false⟩

/-- A message without blocks is valid, and then the function looks for the first block. -/
theorem no_block_read :
    socketMessageValidateIov 0 [] = true ∧ oneDatagram.bufs ≠ [] ∧
      socketCopyQueueToUser oneDatagram [] false false false = none :=
  ⟨rfl, List.cons_ne_nil _ _, rfl⟩

end SocketReceive
