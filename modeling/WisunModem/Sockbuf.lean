import Mathlib.Algebra.GroupWithZero.Nat
import Mathlib.Data.List.Basic
import Mathlib.Tactic.Common

/-!
# Socket buffers

A socket keeps what was received and not read, and what was written and not
acknowledged, in a `sockbuf`: a list of buffers with two counters, the data
bytes and the bytes the buffers take up in memory, and a limit on each.

The counters are fields of the structure, as in the source, and so are the
proofs that they agree with the list; every operation has to give them.  What
an operation does to the queue is then said once, on `Sockbuf.content`.
-/

/-- A buffer holding data.  `size` is the room in its data area and `overhead`
what it takes up in memory, the data area and the `buffer_t` in front of it. -/
structure Buffer where
  data : List UInt8
  size : Nat
  overhead : Nat
  fits : data.length ≤ size
  deriving Repr

namespace Buffer

/-- `buffer_data_length` -/
def length (buf : Buffer) : Nat := buf.data.length

/-- The room `buffer_get` asks for: 40 bytes before the data, at least 127
bytes, rounded up to a multiple of four. -/
def roundedSize (size : Nat) : Nat := (max (40 + size) 127 + 3) / 4 * 4

theorem le_roundedSize (size : Nat) : size ≤ roundedSize size := by
  unfold roundedSize
  omega

/-- `buffer_get` and the data copied into it; `header` is `sizeof(buffer_t)`. -/
def get (header : Nat) (data : List UInt8) : Buffer where
  data := data
  size := roundedSize data.length
  overhead := header + roundedSize data.length
  fits := le_roundedSize data.length

/-- `buffer_data_strip_header` -/
def stripHeader (buf : Buffer) (len : Nat) : Buffer where
  data := buf.data.drop len
  size := buf.size
  overhead := buf.overhead
  fits := by
    have := buf.fits
    simp only [List.length_drop]
    omega

/-- Cut what lies behind the first `len` bytes. -/
def truncate (buf : Buffer) (len : Nat) : Buffer where
  data := buf.data.take len
  size := buf.size
  overhead := buf.overhead
  fits := by
    have := buf.fits
    simp only [List.length_take]
    omega

/-- Data added behind what is there, packed down first where it has to be. -/
def add (buf : Buffer) (more : List UInt8) (h : buf.length + more.length ≤ buf.size) :
    Buffer where
  data := buf.data ++ more
  size := buf.size
  overhead := buf.overhead
  fits := by
    rw [List.length_append]
    exact h

@[simp] theorem length_truncate (buf : Buffer) (len : Nat) :
    (buf.truncate len).length = min len buf.length := by
  simp [truncate, length]

end Buffer

/-- The data bytes and the memory of a list of buffers. -/
def dataOf (bufs : List Buffer) : Nat := (bufs.map Buffer.length).sum

def overheadOf (bufs : List Buffer) : Nat := (bufs.map Buffer.overhead).sum

/-- `sockbuf_t` -/
structure Sockbuf where
  bufs : List Buffer
  dataBytes : Nat
  dataByteLimit : Nat
  bufOverheadBytes : Nat
  bufOverheadByteLimit : Nat
  lowWaterMark : Nat
  data_eq : dataBytes = dataOf bufs
  overhead_eq : bufOverheadBytes = overheadOf bufs
  deriving Repr

namespace Sockbuf

@[simp] theorem dataOf_nil : dataOf [] = 0 := rfl

@[simp] theorem dataOf_cons (b : Buffer) (bs : List Buffer) :
    dataOf (b :: bs) = b.length + dataOf bs := by
  simp [dataOf]

@[simp] theorem dataOf_append (as bs : List Buffer) :
    dataOf (as ++ bs) = dataOf as + dataOf bs := by
  simp [dataOf]

@[simp] theorem overheadOf_nil : overheadOf [] = 0 := rfl

@[simp] theorem overheadOf_cons (b : Buffer) (bs : List Buffer) :
    overheadOf (b :: bs) = b.overhead + overheadOf bs := by
  simp [overheadOf]

@[simp] theorem overheadOf_append (as bs : List Buffer) :
    overheadOf (as ++ bs) = overheadOf as + overheadOf bs := by
  simp [overheadOf]

/-- The bytes queued, oldest first. -/
def content (sb : Sockbuf) : List UInt8 := sb.bufs.flatMap Buffer.data

theorem length_flatMap_data (bufs : List Buffer) :
    (bufs.flatMap Buffer.data).length = dataOf bufs := by
  induction bufs with
  | nil => rfl
  | cons b bs ih => simp [ih, Buffer.length]

theorem dataBytes_eq (sb : Sockbuf) : sb.dataBytes = sb.content.length := by
  rw [sb.data_eq, content, length_flatMap_data]

/-- `sockbuf_init` -/
def init : Sockbuf where
  bufs := []
  dataBytes := 0
  dataByteLimit := 0
  bufOverheadBytes := 0
  bufOverheadByteLimit := 0
  lowWaterMark := 0
  data_eq := rfl
  overhead_eq := rfl

/-- `sockbuf_reserve`; a space of 64 KiB or more is refused. -/
def reserve (sb : Sockbuf) (space : Nat) : Sockbuf :=
  if space ≥ 0x10000 then sb
  else
    { sb with
      dataByteLimit := space
      bufOverheadByteLimit := space * 2
      lowWaterMark := min (max sb.lowWaterMark 1) space }

/-- `sockbuf_space`, negative when the buffer is overfilled. -/
def space (sb : Sockbuf) : Int :=
  min ((sb.dataByteLimit : Int) - sb.dataBytes)
    ((sb.bufOverheadByteLimit : Int) - sb.bufOverheadBytes)

/-- `sockbuf_append` -/
def append (sb : Sockbuf) (buf : Buffer) : Sockbuf :=
  { sb with
    bufs := sb.bufs ++ [buf]
    dataBytes := sb.dataBytes + buf.length
    bufOverheadBytes := sb.bufOverheadBytes + buf.overhead
    data_eq := by simp [sb.data_eq]
    overhead_eq := by simp [sb.overhead_eq] }

/-- The data of `buf` moved into the last buffer of the queue. -/
def compressInto (sb : Sockbuf) (front : List Buffer) (last buf : Buffer)
    (hbufs : sb.bufs = front ++ [last]) (h : last.length + buf.length ≤ last.size) :
    Sockbuf :=
  { sb with
    bufs := front ++ [last.add buf.data h]
    dataBytes := sb.dataBytes + buf.length
    data_eq := by
      rw [sb.data_eq, hbufs]
      simp [Buffer.add, Buffer.length]
      omega
    overhead_eq := by
      rw [sb.overhead_eq, hbufs]
      simp [Buffer.add] }

/-- `sockbuf_append_and_compress`: an empty buffer is not kept, and one which
fits into the last buffer of the queue is copied there. -/
def appendAndCompress (sb : Sockbuf) (buf : Buffer) : Sockbuf :=
  if buf.length = 0 then sb
  else
    match hlast : sb.bufs.getLast? with
    | none => sb.append buf
    | some last =>
        if h : last.length + buf.length ≤ last.size then
          sb.compressInto sb.bufs.dropLast last buf
            (List.dropLast_append_getLast? last hlast).symm h
        else sb.append buf

/-- The loop of `sockbuf_drop` on the list and the two counters. -/
def dropLoop : Nat → List Buffer → Nat → Nat → List Buffer × Nat × Nat
  | _, [], data, overhead => ([], data, overhead)
  | len, b :: bs, data, overhead =>
      if len = 0 then (b :: bs, data, overhead)
      else if b.length > len then (b.stripHeader len :: bs, data - len, overhead)
      else dropLoop (len - b.length) bs (data - b.length) (overhead - b.overhead)

/-- The loop keeps the counters right. -/
theorem dropLoop_counters (len : Nat) (bufs : List Buffer) :
    (dropLoop len bufs (dataOf bufs) (overheadOf bufs)).2 =
      (dataOf (dropLoop len bufs (dataOf bufs) (overheadOf bufs)).1,
        overheadOf (dropLoop len bufs (dataOf bufs) (overheadOf bufs)).1) := by
  induction bufs generalizing len with
  | nil => rfl
  | cons b bs ih =>
      unfold dropLoop
      split
      · rfl
      · split
        · rename_i hlong
          have hlen : (b.stripHeader len).length = b.length - len := by
            simp [Buffer.stripHeader, Buffer.length]
          have hdata : dataOf (b :: bs) - len = dataOf (b.stripHeader len :: bs) := by
            rw [dataOf_cons, dataOf_cons, hlen]
            omega
          rw [hdata]
          rfl
        · have hdata : dataOf (b :: bs) - b.length = dataOf bs := by simp
          have hover : overheadOf (b :: bs) - b.overhead = overheadOf bs := by simp
          rw [hdata, hover]
          exact ih (len - b.length)

/-- `sockbuf_drop` -/
def drop (sb : Sockbuf) (len : Nat) : Sockbuf :=
  { sb with
    bufs := (dropLoop len sb.bufs sb.dataBytes sb.bufOverheadBytes).1
    dataBytes := (dropLoop len sb.bufs sb.dataBytes sb.bufOverheadBytes).2.1
    bufOverheadBytes := (dropLoop len sb.bufs sb.dataBytes sb.bufOverheadBytes).2.2
    data_eq := by rw [sb.data_eq, sb.overhead_eq, dropLoop_counters]
    overhead_eq := by rw [sb.data_eq, sb.overhead_eq, dropLoop_counters] }

/-- `sockbuf_drop_first` -/
def dropFirst (sb : Sockbuf) : Sockbuf :=
  match hbufs : sb.bufs with
  | [] => sb
  | b :: bs =>
      { sb with
        bufs := bs
        dataBytes := sb.dataBytes - b.length
        bufOverheadBytes := sb.bufOverheadBytes - b.overhead
        data_eq := by simp [sb.data_eq, hbufs]
        overhead_eq := by simp [sb.overhead_eq, hbufs] }

/-- `sockbuf_flush` -/
def flush (sb : Sockbuf) : Sockbuf :=
  { sb with
    bufs := []
    dataBytes := 0
    bufOverheadBytes := 0
    data_eq := rfl
    overhead_eq := rfl }

/-- `socket_copy_queue_to_user` into one block of `len` bytes: a stream is read
across buffers, a datagram is taken from the front and its rest is lost. -/
def copyToUser (sb : Sockbuf) (stream : Bool) (len : Nat) : List UInt8 × Sockbuf :=
  if stream then (sb.content.take len, sb.drop len)
  else
    match sb.bufs with
    | [] => ([], sb)
    | b :: _ => (b.data.take len, sb.dropFirst)

/-! ## What the operations do to the queued bytes -/

@[simp] theorem content_append (sb : Sockbuf) (buf : Buffer) :
    (sb.append buf).content = sb.content ++ buf.data := by
  simp [content, append]

@[simp] theorem content_reserve (sb : Sockbuf) (n : Nat) :
    (sb.reserve n).content = sb.content := by
  unfold reserve
  split <;> rfl

theorem content_compressInto {sb : Sockbuf} {front : List Buffer} {last buf : Buffer}
    (hbufs : sb.bufs = front ++ [last]) (h : last.length + buf.length ≤ last.size) :
    (sb.compressInto front last buf hbufs h).content = sb.content ++ buf.data := by
  simp [content, compressInto, hbufs, Buffer.add]

/-- Compressed or not, the data ends up behind what is queued. -/
theorem content_appendAndCompress (sb : Sockbuf) (buf : Buffer) :
    (sb.appendAndCompress buf).content = sb.content ++ buf.data := by
  unfold appendAndCompress
  split
  · rename_i hempty
    have hnil : buf.data = [] := List.length_eq_zero_iff.mp hempty
    rw [hnil, List.append_nil]
  · split
    · exact content_append sb buf
    · split
      · exact content_compressInto _ _
      · exact content_append sb buf

theorem flatMap_dropLoop (len : Nat) (bufs : List Buffer) (data overhead : Nat) :
    (dropLoop len bufs data overhead).1.flatMap Buffer.data =
      (bufs.flatMap Buffer.data).drop len := by
  induction bufs generalizing len data overhead with
  | nil => simp [dropLoop]
  | cons b bs ih =>
      unfold dropLoop
      split
      · rename_i hzero
        simp [hzero]
      · split
        · rename_i hlong
          have hle : len ≤ b.data.length := Nat.le_of_lt hlong
          simp [Buffer.stripHeader, List.drop_append_of_le_length hle]
        · rename_i hshort
          have hle : b.data.length ≤ len := Nat.le_of_not_lt hshort
          rw [ih, List.flatMap_cons, List.drop_append, List.drop_eq_nil_of_le hle,
            List.nil_append]
          rfl

/-- Dropping takes bytes off the front. -/
@[simp] theorem content_drop (sb : Sockbuf) (len : Nat) :
    (sb.drop len).content = sb.content.drop len :=
  flatMap_dropLoop len sb.bufs _ _

/-- What is read from a stream comes off the front, the rest stays. -/
theorem copyToUser_stream (sb : Sockbuf) (len : Nat) :
    (sb.copyToUser true len).1 ++ (sb.copyToUser true len).2.content = sb.content := by
  simp [copyToUser]

/-! ## Counters and limits -/

theorem dataBytes_appendAndCompress (sb : Sockbuf) (buf : Buffer) :
    (sb.appendAndCompress buf).dataBytes = sb.dataBytes + buf.length := by
  rw [dataBytes_eq, content_appendAndCompress, List.length_append, ← dataBytes_eq]
  rfl

@[simp] theorem dataBytes_drop (sb : Sockbuf) (len : Nat) :
    (sb.drop len).dataBytes = sb.dataBytes - len := by
  rw [dataBytes_eq, content_drop, List.length_drop, ← dataBytes_eq]

@[simp] theorem dataBytes_flush (sb : Sockbuf) : sb.flush.dataBytes = 0 := rfl

theorem dataBytes_dropFirst_le (sb : Sockbuf) : sb.dropFirst.dataBytes ≤ sb.dataBytes := by
  unfold dropFirst
  split
  · exact Nat.le_refl _
  · exact Nat.sub_le _ _

theorem dataBytes_copyToUser_le (sb : Sockbuf) (stream : Bool) (len : Nat) :
    (sb.copyToUser stream len).2.dataBytes ≤ sb.dataBytes := by
  unfold copyToUser
  split
  · rw [dataBytes_drop]
    exact Nat.sub_le _ _
  · split
    · exact Nat.le_refl _
    · exact dataBytes_dropFirst_le sb

@[simp] theorem limit_dropFirst (sb : Sockbuf) :
    sb.dropFirst.dataByteLimit = sb.dataByteLimit := by
  unfold dropFirst
  split <;> rfl

@[simp] theorem limit_appendAndCompress (sb : Sockbuf) (buf : Buffer) :
    (sb.appendAndCompress buf).dataByteLimit = sb.dataByteLimit := by
  unfold appendAndCompress
  split
  · rfl
  · split
    · rfl
    · split <;> rfl

@[simp] theorem limit_append (sb : Sockbuf) (buf : Buffer) :
    (sb.append buf).dataByteLimit = sb.dataByteLimit := rfl

@[simp] theorem limit_drop (sb : Sockbuf) (len : Nat) :
    (sb.drop len).dataByteLimit = sb.dataByteLimit := rfl

@[simp] theorem limit_flush (sb : Sockbuf) : sb.flush.dataByteLimit = sb.dataByteLimit := rfl

@[simp] theorem limit_copyToUser (sb : Sockbuf) (stream : Bool) (len : Nat) :
    (sb.copyToUser stream len).2.dataByteLimit = sb.dataByteLimit := by
  unfold copyToUser
  split
  · rfl
  · split
    · rfl
    · exact limit_dropFirst sb

theorem space_le (sb : Sockbuf) : sb.space ≤ (sb.dataByteLimit : Int) - sb.dataBytes :=
  Int.min_le_left _ _

end Sockbuf
