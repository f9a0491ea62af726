import WisunModem.Iphc
import WisunModem.Runs
import WisunModem.Sockbuf

/-!
# Reassembly of 6LoWPAN datagrams

`cipv6_frag_reassembly` collects the fragments of a datagram in one buffer.  What is
missing is kept in a list of holes, and the list in the holes themselves: each begins
with its first and last offset and the offset of the next.

Offsets count from the start of the uncompressed datagram, which the data pointer stands
at; what a buffer holds when it is allocated is left to the environment.
-/

namespace Lowpan

/-- `sockaddr_t` of a link: a PAN identifier stands before the address. -/
structure SockAddr where
  addrType : Nat
  panId : List UInt8
  address : List UInt8
  deriving DecidableEq, Repr

/-- What is compared of it. -/
def SockAddr.link (sa : SockAddr) : Nat × List UInt8 := (sa.addrType, sa.address)

/-- What fragments of one datagram have in common. -/
structure Key where
  tag : Nat
  size : Nat
  src : Nat × List UInt8
  dst : Nat × List UInt8
  deriving DecidableEq, Repr

/-- The data area of a buffer: `front` bytes lie before the data pointer and `back` behind
it, and the address of the pointer may be odd.  What is written elsewhere is no longer
`safe`. -/
structure Area where
  bytes : Int → UInt8
  odd : Bool
  front : Nat
  back : Nat
  safe : Bool

namespace Area

/-- `memcpy` to an offset. -/
def write (a : Area) (pos : Int) (data : List UInt8) : Area :=
  { a with
    bytes := fun i =>
      if pos ≤ i ∧ i < pos + data.length then data.getD (i - pos).toNat 0 else a.bytes i
    safe := a.safe && decide (-(a.front : Int) ≤ pos ∧ pos + data.length ≤ a.back) }

def read16 (a : Area) (pos : Int) : Nat := (a.bytes pos).toNat + (a.bytes (pos + 1)).toNat * 2 ^ 8

def write16 (a : Area) (pos : Int) (value : Nat) : Area :=
  a.write pos [UInt8.ofNat value, UInt8.ofNat (value / 2 ^ 8)]

/-- `hole_pointer`: the next even address. -/
def holePointer (a : Area) (offset : Nat) : Int :=
  offset + (decide (offset % 2 = 1) != a.odd).toNat

/-- The bytes from one offset up to another. -/
def slice (a : Area) (start stop : Int) : List UInt8 :=
  (List.range (stop - start).toNat).map fun i : Nat => a.bytes (start + i)

end Area

/-- `reassembly_entry_t` with its buffer. -/
structure Entry where
  ttl : Nat
  tag : Nat
  size : Nat
  offset : Nat
  pattern : Int
  src : SockAddr
  dst : SockAddr
  bypass : Bool
  area : Area

def Entry.key (e : Entry) : Key := ⟨e.tag, e.size, e.src.link, e.dst.link⟩

/-! ## Holes -/

/-- Where the offset of a hole is kept: in the entry, or in the hole before it. -/
inductive Prev
  | entry
  | hole (offset : Nat)

def Entry.readPrev (e : Entry) : Prev → Nat
  | .entry => e.offset
  | .hole offset => e.area.read16 (e.area.holePointer offset + 4)

def Entry.writePrev (e : Entry) (prev : Prev) (value : Nat) : Entry :=
  match prev with
  | .entry => { e with offset := value }
  | .hole offset => { e with area := e.area.write16 (e.area.holePointer offset + 4) value }

/-- `delete_hole` -/
def deleteHole (e : Entry) (hole : Nat) (prev : Prev) : Entry :=
  e.writePrev prev (e.readPrev (.hole hole))

/-- `create_hole` -/
def createHole (e : Entry) (first last : Nat) (prev : Prev) : Entry :=
  let pos := e.area.holePointer first
  let e := { e with area := (e.area.write16 pos first).write16 (pos + 2) last }
  let e := e.writePrev (.hole first) (e.readPrev prev)
  e.writePrev prev first

/-- The hole `hole` is filled from `first` to `last`. -/
def splitHole (e : Entry) (first last hole holeFirst holeLast : Nat) (prev : Prev) : Entry :=
  let e := deleteHole e hole prev
  let e := if first > holeFirst then createHole e holeFirst (first - 1) prev else e
  if last < holeLast then
    createHole e (last + 1) holeLast (if first > holeFirst then .hole holeFirst else prev)
  else e

/-- The loop over the holes.  A list which goes round keeps it for ever: there are not
more holes than offsets. -/
def fillHole : Nat → Entry → Nat → Nat → Nat → Prev → Option Entry
  | 0, _, _, _, _, _ => none
  | fuel + 1, e, first, last, hole, prev =>
      let holeFirst := e.area.read16 (e.area.holePointer hole)
      let holeLast := e.area.read16 (e.area.holePointer hole + 2)
      if first > holeLast ∨ last < holeFirst then
        let next := e.readPrev (.hole hole)
        if next = 0xffff then some e else fillHole fuel e first last next (.hole hole)
      else if first < holeFirst ∨ last > holeLast then
        let e := createHole { e with offset := 0xffff } 0 (e.size - 1) .entry
        some (splitHole e first last 0 0 (e.size - 1) .entry)
      else some (splitHole e first last hole holeFirst holeLast prev)

/-! ## Fragments -/

/-- A fragment as it comes from the MAC; `bypass` says that it was not secured. -/
structure Frame where
  src : SockAddr
  dst : SockAddr
  bypass : Bool
  bytes : List UInt8

/-- A datagram handed up. -/
structure Up where
  src : SockAddr
  dst : SockAddr
  bypass : Bool
  data : List UInt8

/-- `reassembly_interface_t`; of the free entries only the number matters. -/
structure Reassembler where
  timeout : Nat
  rx : List Entry
  free : Nat

/-- What an allocation finds: memory, and what is in it. -/
structure Alloc where
  memory : Bool
  odd : Bool
  junk : Int → UInt8

/-- A byte of a frame. -/
def Frame.byte (frame : Frame) (i : Nat) : Nat := (frame.bytes.getD i 0).toNat

def Frame.size (frame : Frame) : Nat := (frame.byte 0 * 2 ^ 8 + frame.byte 1) % 2 ^ 11

def Frame.tag (frame : Frame) : Nat := frame.byte 2 * 2 ^ 8 + frame.byte 3

/-- `LOWPAN_FRAGN_BIT` -/
def Frame.later (frame : Frame) : Bool := (frame.byte 0).testBit 5

def Frame.first (frame : Frame) : Nat := if frame.later then frame.byte 4 * 8 else 0

/-- The size of the fragment header. -/
def Frame.header (frame : Frame) : Nat := if frame.later then 5 else 4

def Frame.data (frame : Frame) : List UInt8 := frame.bytes.drop frame.header

/-- The fragment header lies in the frame. -/
def Frame.Whole (frame : Frame) : Prop := frame.header ≤ frame.bytes.length

instance (frame : Frame) : Decidable frame.Whole := inferInstanceAs (Decidable (_ ≤ _))

def Frame.key (frame : Frame) : Key := ⟨frame.tag, frame.size, frame.src.link, frame.dst.link⟩

/-- A size rounded up to a multiple of eight. -/
def roundUp (size : Nat) : Nat := (size + 7) / 8 * 8

/-- A new entry: one hole, as large as the datagram.  The buffer has a byte more in front
for the dispatch byte. -/
def newEntry (alloc : Alloc) (timeout : Nat) (frame : Frame) : Entry :=
  createHole
    { ttl := timeout
      tag := frame.tag
      size := frame.size
      offset := 0xffff
      pattern := 0
      src := frame.src
      dst := frame.dst
      bypass := false
      area :=
        { bytes := alloc.junk
          odd := alloc.odd
          front := Buffer.roundedSize (1 + roundUp frame.size) - roundUp frame.size
          back := roundUp frame.size
          safe := true } }
    0 (frame.size - 1) .entry

/-- The size of the data of a fragment in the uncompressed datagram, of 16 bits.  The size
of the compressed headers is kept in 8 bits. -/
def ipv6Size (frame : Frame) : Nat :=
  let len := frame.data.length
  if frame.first = 0 then
    let scan := iphcHeaderScan frame.data
    (len + 2 ^ 16 - scan.1 % 2 ^ 8 + scan.2) % 2 ^ 16
  else len

/-- The last offset a fragment covers, of 16 bits. -/
def lastOffset (frame : Frame) : Nat := (frame.first + ipv6Size frame + 2 ^ 16 - 1) % 2 ^ 16

/-- The first fragment gives the pattern and the header of the buffer. -/
def noteFirst (e : Entry) (frame : Frame) : Entry :=
  if frame.first = 0 then
    { e with
      pattern := ((ipv6Size frame : Int) - frame.data.length).bmod (2 ^ 16)
      src := frame.src
      dst := frame.dst }
  else e

/-- The data of a fragment is copied to the end of what it covers. -/
def copyData (e : Entry) (frame : Frame) : Entry :=
  { e with
    area := e.area.write (lastOffset frame + 1 - frame.data.length) frame.data
    bypass := e.bypass || frame.bypass }

/-- The first entry with this key becomes another one. -/
def setFirst (key : Key) (e : Entry) : List Entry → List Entry
  | [] => []
  | e' :: es => if e'.key = key then e :: es else e' :: setFirst key e es

/-- `reassembly_entry_free` -/
def Reassembler.drop (r : Reassembler) (key : Key) : Reassembler :=
  { r with
    rx := r.rx.eraseP (fun e => e.key = key)
    free := r.free + 1 }

/-- A fragment goes into its entry.  Nothing is returned where memory outside the buffer
would be written, or the loop would not end. -/
def addFragment (r : Reassembler) (e : Entry) (frame : Frame) :
    Option (Reassembler × Option Up) :=
  let e := noteFirst e frame
  if lastOffset frame ≥ e.size then some (r.drop e.key, none)
  else
    (fillHole (2 ^ 16) e frame.first (lastOffset frame) e.offset .entry).bind fun e =>
      let e := copyData e frame
      if !e.area.safe then none
      else if e.offset ≠ 0xffff then some ({ r with rx := setFirst e.key e r.rx }, none)
      else some (r.drop e.key, some ⟨e.src, e.dst, e.bypass, e.area.slice e.pattern e.size⟩)

/-- `cipv6_frag_reassembly`.  Behind a frame that ends in its header the offset is read from
outside of it, and the length left is -1: nothing is returned then. -/
def cipv6FragReassembly (alloc : Alloc) (r : Reassembler) (frame : Frame) :
    Option (Reassembler × Option Up) :=
  if ¬frame.Whole then none
  else if frame.size = 0 then some (r, none)
  else
    match r.rx.find? (fun e => e.key = frame.key) with
    | some e => addFragment r e frame
    | none =>
        if r.free = 0 ∨ alloc.memory = false then some (r, none)
        else
          let e := newEntry alloc r.timeout frame
          if !e.area.safe then none
          else addFragment { r with rx := e :: r.rx, free := r.free - 1 } e frame

/-- `cipv6_frag_timer` -/
def cipv6FragTimer (r : Reassembler) (seconds : Nat) : Reassembler :=
  let kept := r.rx.filter fun e => e.ttl > seconds
  { r with
    rx := kept.map fun e => { e with ttl := e.ttl - seconds }
    free := r.free + (r.rx.length - kept.length) }

/-- What happens to the interface. -/
inductive Event
  | fragment (alloc : Alloc) (frame : Frame)
  | seconds (n : Nat)

def step (r : Reassembler) : Event → Option (Reassembler × Option Up)
  | .fragment alloc frame => cipv6FragReassembly alloc r frame
  | .seconds n => some (cipv6FragTimer r n, none)

end Lowpan
