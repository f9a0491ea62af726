import WisunModem.OadImage

/-!
# The OAD image server

`ImageBlockResource` of `oad.py`.  The slice a request is answered with is
computed from a module global, the block size, which the request then
overwrites with the size of the block it served.  Serving the last block of an
image whose length is no multiple of the block size thus leaves a smaller block
size behind, and every later block is cut at the wrong place.
-/

namespace OadServer

open ByteStore Oad

/-- The module globals: the current block size, a Python integer, and the
future that ends the transfer. -/
structure ServerState where
  oadBlockSize : Int
  oadComplete : Option Bool
  deriving DecidableEq, Repr

/-- What a request is answered with; an exception leaves the handler. -/
inductive Reply
  | message (payload : List UInt8)
  | raised
  deriving DecidableEq, Repr

/-- `int.from_bytes(bs, "little")`. -/
def fromBytesLittle : List UInt8 → Nat
  | [] => 0
  | b :: bs => b.toNat + 2 ^ 8 * fromBytesLittle bs

/-- `oad_complete.set_result(value)`, which raises once a result is set. -/
def setResult (value : Bool) (s : ServerState) : ServerState × Reply :=
  match s.oadComplete with
  | none => ({ s with oadComplete := some value }, .message [])
  | some _ => (s, .raised)

/-- Reading byte by byte from `start`; at the end of the file a read gives no
byte, which is taken for zero. -/
def readBytes (file : List UInt8) (start n : Nat) : List UInt8 :=
  (List.range n).map fun i => file.getD (start + i) 0

/-- `ImageBlockResource.render_get`. -/
def renderGet (file : List UInt8) (payload : List UInt8) (s : ServerState) :
    ServerState × Reply :=
  match payload[0]? with
  | none => (s, .raised)
  | some oadImgId =>
      let oadBlockNum := fromBytesLittle ((payload.drop 1).take 2)
      if oadBlockNum = oadCompleteFlag then setResult true s
      else
        let oadImgLen : Int := file.length
        let oadBlockStart : Int := oadBlockNum * s.oadBlockSize
        let oadBlockEnd : Int :=
          if oadBlockStart + s.oadBlockSize > oadImgLen then oadImgLen
          else oadBlockStart + s.oadBlockSize
        let oadBlockSize := oadBlockEnd - oadBlockStart
        let s := { s with oadBlockSize := oadBlockSize }
        -- a negative seek raises, and the handler gives up the transfer
        if oadBlockStart < 0 then setResult false s
        else
          (s, .message (oadImgId :: bytes16 oadBlockNum ++
            readBytes file oadBlockStart.toNat oadBlockSize.toNat))

/-- The replies to a sequence of requests. -/
def serve (file : List UInt8) : ServerState → List OadBlockReqMsg → List Reply
  | _, [] => []
  | s, req :: reqs =>
      let (s, reply) := renderGet file req.toBytes s
      reply :: serve file s reqs

/-- The server when the transfer has been announced. -/
def announced (B : Nat) : ServerState where
  oadBlockSize := B
  oadComplete := none

/-- The three header bytes and the bytes of the block asked for. -/
def blockReply (B : Nat) (image : List UInt8) (req : OadBlockReqMsg) : Reply :=
  .message (UInt8.ofNat req.imgId :: bytes16 req.blockNum ++
    imgBlock B image req.blockNum)

/-! ## One request -/

theorem readBytes_eq {file : List UInt8} {start n : Nat}
    (h : start + n ≤ file.length) :
    readBytes file start n = (file.drop start).take n := by
  refine List.ext_getElem (by simp [readBytes]; omega) fun i h₁ h₂ => ?_
  have hi : i < n := by simpa [readBytes] using h₁
  have hlt : start + i < file.length := by omega
  simp [readBytes, hlt]

theorem fromBytesLittle_toBytes {req : OadBlockReqMsg}
    (h : req.blockNum < 2 ^ 16) :
    fromBytesLittle ((req.toBytes.drop 1).take 2) = req.blockNum := by
  simp only [OadBlockReqMsg.toBytes, bytes16, List.cons_append, List.drop_succ_cons,
    List.drop_zero, List.take_succ_cons, List.take_zero, fromBytesLittle,
    UInt8.toNat_ofNat']
  omega

theorem toBytes_head (req : OadBlockReqMsg) :
    req.toBytes[0]? = some (UInt8.ofNat req.imgId) := rfl

/-- **One request.**  With block size `b`, a request for a block that starts
inside the file is answered with block `n` of size `b`, and the length of that
block is the block size from then on. -/
theorem renderGet_eq {image : List UInt8} {req : OadBlockReqMsg} {b : Nat}
    {complete : Option Bool} (hword : req.blockNum < 2 ^ 16)
    (hflag : req.blockNum ≠ oadCompleteFlag)
    (hstart : req.blockNum * b < image.length) :
    renderGet image req.toBytes { oadBlockSize := b, oadComplete := complete } =
      ({ oadBlockSize := (imgBlock b image req.blockNum).length
         oadComplete := complete },
        blockReply b image req) := by
  have hsize := length_imgBlock b image req.blockNum
  obtain ⟨start, hs⟩ : ∃ start, start = req.blockNum * b := ⟨_, rfl⟩
  rw [← hs] at hstart hsize
  have hcast : (req.blockNum : Int) * (b : Int) = (start : Int) := by
    rw [hs, Int.natCast_mul]
  have hend : (if (start : Int) + b > image.length then (image.length : Int)
      else start + b) - start = (imgBlock b image req.blockNum).length := by
    rw [hsize]
    split <;> omega
  simp only [renderGet, toBytes_head, fromBytesLittle_toBytes hword, hflag,
    if_false, hcast, hend, Int.toNat_natCast]
  rw [if_neg (by omega)]
  have hread : readBytes image start (imgBlock b image req.blockNum).length =
      imgBlock b image req.blockNum := by
    rw [readBytes_eq (by omega), hsize, imgBlock, ← hs, ← List.length_drop]
    exact List.take_eq_take_min.symm
  rw [hread]
  rfl

/-- A request with the completion flag is not answered with a block. -/
theorem renderGet_complete {image : List UInt8} {req : OadBlockReqMsg}
    {s : ServerState} (hflag : req.blockNum = oadCompleteFlag) (B : Nat) :
    (renderGet image req.toBytes s).2 ≠ blockReply B image req := by
  have hword : req.blockNum < 2 ^ 16 := by
    rw [hflag]
    decide
  simp only [renderGet, toBytes_head, fromBytesLittle_toBytes hword, hflag,
    if_true, setResult]
  cases s.oadComplete with
  | none => simp [blockReply]
  | some _ => simp [blockReply]

/-! ## A sequence of requests -/

variable {image : List UInt8} {B : Nat}

/-- The requests a server may get: blocks of the image, and block numbers that
fit the request. -/
def Asks (B : Nat) (image : List UInt8) (reqs : List OadBlockReqMsg) : Prop :=
  ∀ req ∈ reqs, req.blockNum < blockCount image.length B ∧
    req.blockNum < 2 ^ 16

instance (B : Nat) (image : List UInt8) (reqs : List OadBlockReqMsg) :
    Decidable (Asks B image reqs) :=
  inferInstanceAs (Decidable (∀ req ∈ reqs, _ ∧ _))

/-- The last block, cut at the size the server is left with, is the last block
of the image. -/
def SameLast (B : Nat) (image : List UInt8) : Prop :=
  imgBlock (image.length % B) image (image.length / B) =
    imgBlock B image (image.length / B)

instance (B : Nat) (image : List UInt8) : Decidable (SameLast B image) :=
  inferInstanceAs (Decidable (_ = _))

/-- Once the short last block has been asked for, only it is asked for again,
and cutting it with its own size makes no difference. -/
def ShortBlockLast (B : Nat) (image : List UInt8) : List OadBlockReqMsg → Prop
  | [] => True
  | req :: reqs =>
      if req.blockNum = image.length / B ∧ image.length % B ≠ 0 then
        ∀ req' ∈ reqs, req'.blockNum = image.length / B ∧ SameLast B image
      else ShortBlockLast B image reqs

instance decidableShortBlockLast (B : Nat) (image : List UInt8) :
    ∀ reqs, Decidable (ShortBlockLast B image reqs)
  | [] => isTrue trivial
  | req :: reqs =>
      have := decidableShortBlockLast B image reqs
      inferInstanceAs (Decidable (if req.blockNum = image.length / B ∧
        image.length % B ≠ 0 then _ else _))

theorem blockReply_eq_iff {b : Nat} {req : OadBlockReqMsg} :
    blockReply b image req = blockReply B image req ↔
      imgBlock b image req.blockNum = imgBlock B image req.blockNum := by
  simp [blockReply]

/-- Only the short last block can be cut with its own size. -/
theorem imgBlock_short_iff {n : Nat} (hB : 0 < B)
    (hn : n < blockCount image.length B) :
    imgBlock (image.length % B) image n = imgBlock B image n ↔
      n = image.length / B ∧ SameLast B image := by
  constructor
  · intro heq
    have hlast : n = image.length / B := by
      by_contra hne
      -- an earlier block is a full one
      have hstart := (lt_blockCount_iff hB).mp hn
      have hle : n ≤ image.length / B :=
        (Nat.le_div_iff_mul_le hB).mpr (le_of_lt hstart)
      have hnext : (n + 1) * B ≤ image.length :=
        (Nat.le_div_iff_mul_le hB).mp (by omega)
      have hlen := congrArg List.length heq
      have hmod := Nat.mod_lt image.length hB
      rw [Nat.succ_mul] at hnext
      rw [length_imgBlock, length_imgBlock] at hlen
      omega
    rw [hlast] at heq
    exact ⟨hlast, heq⟩
  · rintro ⟨rfl, hsame⟩
    exact hsame

/-- The short last block stays inside the image when cut with its own size. -/
theorem short_start {n : Nat} (hB : 0 < B)
    (hn : n < blockCount image.length B) :
    n * (image.length % B) + image.length % B ≤ image.length := by
  have hdiv := Nat.div_add_mod' image.length B
  have hmod := Nat.mod_lt image.length hB
  have hle : n ≤ image.length / B :=
    (Nat.le_div_iff_mul_le hB).mpr (le_of_lt ((lt_blockCount_iff hB).mp hn))
  have hmul : n * (image.length % B) ≤ image.length / B * B :=
    Nat.mul_le_mul hle (le_of_lt hmod)
  omega

/-- The replies after the short last block has been served. -/
theorem serve_short_iff {complete : Option Bool} (hB : 0 < B)
    (hrest : image.length % B ≠ 0) {reqs : List OadBlockReqMsg}
    (hasks : Asks B image reqs) :
    serve image
        { oadBlockSize := (image.length % B : Nat), oadComplete := complete }
        reqs = reqs.map (blockReply B image) ↔
      (∀ req ∈ reqs, req.blockNum ≠ oadCompleteFlag) ∧
        ∀ req ∈ reqs, req.blockNum = image.length / B ∧ SameLast B image := by
  induction reqs with
  | nil => simp [serve]
  | cons req reqs ih =>
      obtain ⟨hcount, hword⟩ := hasks req List.mem_cons_self
      have ih := ih fun req' h => hasks req' (List.mem_cons_of_mem req h)
      by_cases hflag : req.blockNum = oadCompleteFlag
      · refine iff_of_false (fun h => ?_) (fun h => ?_)
        · exact renderGet_complete hflag B (List.cons.inj h).1
        · exact h.1 req List.mem_cons_self hflag
      · have hend := short_start hB hcount
        have hsize : (imgBlock (image.length % B) image req.blockNum).length =
            image.length % B := by
          rw [length_imgBlock]
          omega
        rw [serve, renderGet_eq hword hflag (by omega), hsize]
        simp only [List.map_cons, List.cons.injEq, List.forall_mem_cons, ih,
          blockReply_eq_iff, imgBlock_short_iff hB hcount]
        constructor
        · rintro ⟨hreq, hflags, hall⟩
          exact ⟨⟨hflag, hflags⟩, hreq, hall⟩
        · rintro ⟨⟨_, hflags⟩, hreq, hall⟩
          exact ⟨hreq, hflags, hall⟩

/-- **Block service.**  For requests of blocks of the image, every reply is the
block asked for if and only if no request carries the completion flag and the
short last block, once asked for, is followed by nothing but itself. -/
theorem serve_eq_iff (image : List UInt8) (B : Nat) (hB : 0 < B)
    (reqs : List OadBlockReqMsg) (hasks : Asks B image reqs) :
    serve image (announced B) reqs = reqs.map (blockReply B image) ↔
      (∀ req ∈ reqs, req.blockNum ≠ oadCompleteFlag) ∧
        ShortBlockLast B image reqs := by
  induction reqs with
  | nil => simp [serve, ShortBlockLast]
  | cons req reqs ih =>
      obtain ⟨hcount, hword⟩ := hasks req List.mem_cons_self
      have hasks' : Asks B image reqs := fun req' h =>
        hasks req' (List.mem_cons_of_mem req h)
      have ih := ih hasks'
      by_cases hflag : req.blockNum = oadCompleteFlag
      · refine iff_of_false (fun h => ?_) (fun h => ?_)
        · exact renderGet_complete hflag B (List.cons.inj h).1
        · exact h.1 req List.mem_cons_self hflag
      · have hstart := (lt_blockCount_iff hB).mp hcount
        have hsize := length_imgBlock B image req.blockNum
        have hdiv := Nat.div_add_mod' image.length B
        rw [announced, serve, renderGet_eq hword hflag hstart]
        simp only [List.map_cons, List.cons.injEq, true_and,
          List.forall_mem_cons, ShortBlockLast]
        by_cases hlast : req.blockNum = image.length / B ∧ image.length % B ≠ 0
        · -- the short last block is served, and its size is left behind
          obtain ⟨hnum, hrest⟩ := hlast
          have hshort : (imgBlock B image req.blockNum).length =
              image.length % B := by
            have hmod := Nat.mod_lt image.length hB
            rw [hsize, hnum]
            omega
          rw [hshort, serve_short_iff hB hrest hasks', if_pos ⟨hnum, hrest⟩]
          constructor
          · rintro ⟨hflags, hall⟩
            exact ⟨⟨hflag, hflags⟩, hall⟩
          · rintro ⟨⟨_, hflags⟩, hall⟩
            exact ⟨hflags, hall⟩
        · have hfull : (imgBlock B image req.blockNum).length = B := by
            have hle : req.blockNum ≤ image.length / B :=
              (Nat.le_div_iff_mul_le hB).mpr (le_of_lt hstart)
            have hnext : (req.blockNum + 1) * B ≤ image.length := by
              refine (Nat.le_div_iff_mul_le hB).mp ?_
              by_contra hgt
              have hnum : req.blockNum = image.length / B := by omega
              refine hlast ⟨hnum, fun hzero => ?_⟩
              rw [hnum] at hstart
              omega
            rw [Nat.succ_mul] at hnext
            rw [hsize]
            omega
          rw [announced] at ih
          rw [hfull, ih, if_neg hlast]
          constructor
          · rintro ⟨hflags, hall⟩
            exact ⟨⟨hflag, hflags⟩, hall⟩
          · rintro ⟨⟨_, hflags⟩, hall⟩
            exact ⟨hflags, hall⟩

/-- An orderly download: every block once. -/
theorem serve_in_order :
    serve [1, 2, 3] (announced 2) [⟨123, 0, 2⟩, ⟨123, 1, 2⟩] =
      [⟨123, 0, 2⟩, ⟨123, 1, 2⟩].map (blockReply 2 [1, 2, 3]) :=
  (serve_eq_iff [1, 2, 3] 2 (by decide) [⟨123, 0, 2⟩, ⟨123, 1, 2⟩]
    (by decide)).mpr (by decide)

/-- **A repeated request.**  The last block of three bytes in blocks of two is
asked for again, and answered with the second byte of the image. -/
theorem serve_repeated_last :
    Asks 2 [1, 2, 3] [⟨123, 1, 2⟩, ⟨123, 1, 2⟩] ∧
      serve [1, 2, 3] (announced 2) [⟨123, 1, 2⟩, ⟨123, 1, 2⟩] ≠
        [⟨123, 1, 2⟩, ⟨123, 1, 2⟩].map (blockReply 2 [1, 2, 3]) := by
  decide

end OadServer
