import WisunModem.Oad

/-!
# Integrity of the downloaded image

A server offers an image in blocks of `B` bytes.  The client only counts bytes
before it declares the image complete, and a received block is written when its
event is processed, under the block number of that moment.  So the flash holds
the image provided no second response is taken in, and no new transfer begins,
while a received block still waits to be written.

The invariant follows one transfer: as long as it can still complete, the
record of block writes is exactly the blocks before the current one, the flash
holds their bytes, and a waiting block is the current one (`Live`).  A transfer
that can no longer complete has an abort ahead of every received block
(`Doomed`), or a closed flash.
-/

namespace Oad

open ByteStore Runs

/-! ## The server -/

/-- Block `n` of an image served in blocks of `B` bytes. -/
def imgBlock (B : Nat) (image : List UInt8) (n : Nat) : List UInt8 :=
  (image.drop (n * B)).take B

/-- The response is the server's answer to a request for some block: the block
number in the header, and the bytes of that block behind it. -/
def CarriesBlock (B : Nat) (image : List UInt8) (hdr : CoapHdr) : Prop :=
  hdr.payloadLen = 3 + (imgBlock B image (le16 hdr.payloadPtr 1)).length ∧
    bytes (fun i => hdr.payloadPtr (3 + i)) 0
        (imgBlock B image (le16 hdr.payloadPtr 1)).length =
      imgBlock B image (le16 hdr.payloadPtr 1)

/-- The environment of a download: transfers are opened for this image, and
every block response is the server's answer for some block, whenever and
however often it comes. -/
def Served (dev : Device) (B : Nat) (image : List UInt8) (s : OadState) :
    OadAct → Prop
  | .request env _ hdr =>
      OpensTransfer dev env s hdr →
        (OadNotifReqMsg.ofBytes hdr.payloadPtr).blockLen = B ∧
          (OadNotifReqMsg.ofBytes hdr.payloadPtr).imageLen = image.length
  | .imgRsp hdr => CarriesBlock B image hdr
  | _ => True

/-- Nothing is taken in while a received block waits to be written: neither
another block response nor a notification that opens a transfer. -/
def OneAtATime (dev : Device) (s : OadState) : OadAct → Prop
  | .request env _ hdr => OpensTransfer dev env s hdr → .blockRecv ∉ s.queue
  | .imgRsp hdr => AcceptsRsp s hdr → .blockRecv ∉ s.queue
  | _ => True

instance (B : Nat) (image : List UInt8) (hdr : CoapHdr) :
    Decidable (CarriesBlock B image hdr) :=
  inferInstanceAs (Decidable (_ ∧ _))

instance (dev : Device) (B : Nat) (image : List UInt8) (s : OadState)
    (a : OadAct) : Decidable (Served dev B image s a) :=
  match a with
  | .request _ _ _ => inferInstanceAs (Decidable (_ → _ ∧ _))
  | .imgRsp _ => inferInstanceAs (Decidable (CarriesBlock _ _ _))
  | .completeRsp | .event _ | .expire _ | .timerEvent _ _ => isTrue trivial

instance (dev : Device) (s : OadState) (a : OadAct) :
    Decidable (OneAtATime dev s a) :=
  match a with
  | .request _ _ _ => inferInstanceAs (Decidable (_ → _))
  | .imgRsp _ => inferInstanceAs (Decidable (_ → _))
  | .completeRsp | .event _ | .expire _ | .timerEvent _ _ => isTrue trivial

/-- The record of block `n` written where it belongs. -/
def blockWrite (B : Nat) (image : List UInt8) (n : Nat) : ImgWrite where
  blkNum := n
  blockLen := B
  addr := n * B
  data := imgBlock B image n
  ok := true

/-- The flash holds the image, and got there by one write for each block. -/
def HoldsImage (B : Nat) (image : List UInt8) (f : Flash) : Prop :=
  bytes f.mem 0 image.length = image ∧
    f.imgWrites = (List.range (blockCount image.length B)).map (blockWrite B image)

instance (B : Nat) (image : List UInt8) (f : Flash) :
    Decidable (HoldsImage B image f) :=
  inferInstanceAs (Decidable (_ ∧ _))

/-! ## Blocks and totals -/

theorem length_imgBlock (B : Nat) (image : List UInt8) (n : Nat) :
    (imgBlock B image n).length = min B (image.length - n * B) := by
  simp [imgBlock]

/-- The image up to block `n`, and block `n`. -/
theorem take_add_imgBlock (B : Nat) (image : List UInt8) (n : Nat) :
    image.take (n * B) ++ imgBlock B image n = image.take (n * B + B) := by
  rw [imgBlock, List.take_add]

/-! ## The invariant -/

/-- An abort comes before every received block: this transfer writes no further
block. -/
def Doomed : List OadEvt → Prop
  | [] => False
  | .abort :: _ => True
  | .blockRecv :: _ => False
  | _ :: rest => Doomed rest

theorem doomed_append {q q' : List OadEvt} (h : Doomed q) : Doomed (q ++ q') := by
  induction q with
  | nil => exact h.elim
  | cons e q ih => cases e <;> first | exact ih h | exact h

theorem doomed_abort {q : List OadEvt} (h : .blockRecv ∉ q) :
    Doomed (q ++ [.abort]) := by
  induction q with
  | nil => trivial
  | cons e q ih =>
      have hq : Doomed (q ++ [.abort]) := ih fun hmem => h (List.mem_cons_of_mem e hmem)
      cases e <;> first | exact hq | exact absurd List.mem_cons_self h | trivial

theorem doomed_pop {e : OadEvt} {q : List OadEvt} (h : Doomed (e :: q))
    (he : e ≠ .abort) : Doomed q := by
  cases e <;> first | exact h | exact absurd rfl he | exact h.elim

/-- The data buffer holds the current block. -/
def Held (B : Nat) (image : List UInt8) (h : OadHandle) : Prop :=
  h.oadCurrBlock.dataLen = (imgBlock B image h.currBlockNum).length ∧
    ∀ buf, h.oadCurrBlock.data = some buf →
      bytes buf 0 h.oadCurrBlock.dataLen = imgBlock B image h.currBlockNum

/-- A transfer that can still complete: everything before the current block is
in the flash, written once and in its place. -/
structure Live (B : Nat) (image : List UInt8) (h : OadHandle) (f : Flash) :
    Prop where
  inProgress : h.oadInProgress = true
  blockLen : h.oadNotifReqInfo.blockLen = B
  blockLen_lt : B < 2 ^ 16
  imageLen : h.oadNotifReqInfo.imageLen = image.length
  total : h.totalBlocks = totalBlocksOf h.oadNotifReqInfo
  curr : h.currBlockNum < h.totalBlocks
  recv : h.currBytesRecv = h.currBlockNum * B
  buffer : h.oadCurrBlock.data.isSome = true
  external : f.useExternalFlash = true
  written : bytes f.mem 0 (h.currBlockNum * B) =
    image.take (h.currBlockNum * B)
  writes : f.imgWrites = (List.range h.currBlockNum).map (blockWrite B image)

/-- The invariant of a download: at most one block waits, no transfer means no
blocks to come, and a transfer which can still complete is `Live` and holds the
current block if one waits. -/
structure ImgInv (B : Nat) (image : List UInt8) (h : OadHandle)
    (q : List OadEvt) (f : Flash) : Prop where
  oneRecv : q.count .blockRecv ≤ 1
  idle : h.oadInProgress = false → h.totalBlocks = 0
  live : h.totalBlocks = 0 ∨ Doomed q ∨ f.isOpen = false ∨
    Live B image h f ∧ (.blockRecv ∈ q → Held B image h)

/-- Two handles with the same transfer in the same state. -/
structure SameTransfer (h h' : OadHandle) : Prop where
  inProgress : h'.oadInProgress = h.oadInProgress
  total : h'.totalBlocks = h.totalBlocks
  curr : h'.currBlockNum = h.currBlockNum
  recv : h'.currBytesRecv = h.currBytesRecv
  info : h'.oadNotifReqInfo = h.oadNotifReqInfo
  data : h'.oadCurrBlock.data = h.oadCurrBlock.data
  dataLen : h'.oadCurrBlock.dataLen = h.oadCurrBlock.dataLen

theorem SameTransfer.refl (h : OadHandle) : SameTransfer h h :=
  ⟨rfl, rfl, rfl, rfl, rfl, rfl, rfl⟩

variable {B : Nat} {image : List UInt8} {h h' : OadHandle} {f : Flash}
  {q q' : List OadEvt}

theorem Held.same (hh : Held B image h) (hs : SameTransfer h h') :
    Held B image h' := by
  unfold Held
  rw [hs.dataLen, hs.curr, hs.data]
  exact hh

theorem Live.same (hl : Live B image h f) (hs : SameTransfer h h') :
    Live B image h' f where
  inProgress := hs.inProgress.trans hl.inProgress
  blockLen := by rw [hs.info]; exact hl.blockLen
  blockLen_lt := hl.blockLen_lt
  imageLen := by rw [hs.info]; exact hl.imageLen
  total := by rw [hs.info, hs.total]; exact hl.total
  curr := by rw [hs.curr, hs.total]; exact hl.curr
  recv := by rw [hs.recv, hs.curr]; exact hl.recv
  buffer := by rw [hs.data]; exact hl.buffer
  external := hl.external
  written := by rw [hs.curr]; exact hl.written
  writes := by rw [hs.curr]; exact hl.writes

/-- Events other than a received block join the queue. -/
theorem ImgInv.push (hi : ImgInv B image h q f) (hs : SameTransfer h h')
    (hno : .blockRecv ∉ q') : ImgInv B image h' (q ++ q') f where
  oneRecv := by
    rw [List.count_append, List.count_eq_zero.mpr hno]
    exact hi.oneRecv
  idle := by
    rw [hs.inProgress, hs.total]
    exact hi.idle
  live := by
    rw [hs.total]
    refine hi.live.imp_right (Or.imp doomed_append (Or.imp_right ?_))
    rintro ⟨hl, hheld⟩
    refine ⟨hl.same hs, fun hmem => (hheld ?_).same hs⟩
    exact (List.mem_append.mp hmem).resolve_right hno

/-- An event which concerns neither a received block nor an abort leaves the
queue. -/
theorem ImgInv.pop {e : OadEvt} (hi : ImgInv B image h (e :: q) f)
    (hs : SameTransfer h h') (he : e ≠ .abort) : ImgInv B image h' q f where
  oneRecv := le_trans (List.count_le_count_cons) hi.oneRecv
  idle := by
    rw [hs.inProgress, hs.total]
    exact hi.idle
  live := by
    rw [hs.total]
    refine hi.live.imp_right (Or.imp (fun hd => doomed_pop hd he)
      (Or.imp_right ?_))
    rintro ⟨hl, hheld⟩
    exact ⟨hl.same hs, fun hmem => (hheld (List.mem_cons_of_mem e hmem)).same hs⟩

theorem recvCount_push {e : OadEvt} (hno : .blockRecv ∉ q) (he : e ≠ .blockRecv) :
    (q ++ [e]).count .blockRecv ≤ 1 := by
  rw [List.count_append, List.count_eq_zero.mpr hno]
  simp [he]

/-- Without blocks to come there is nothing to keep but the queue. -/
theorem ImgInv.dead (hq : q.count .blockRecv ≤ 1) (htotal : h.totalBlocks = 0) :
    ImgInv B image h q f :=
  ⟨hq, fun _ => htotal, .inl htotal⟩

/-! ## One block is written -/

theorem Live.start_lt (hl : Live B image h f) :
    h.currBlockNum * B < image.length := by
  have hcount := totalBlocksOf_le h.oadNotifReqInfo
  rw [← hl.total, hl.imageLen, hl.blockLen] at hcount
  exact mul_lt_of_lt_blockCount (lt_of_lt_of_le hl.curr hcount)

/-- **One write.**  A successful write of the held block extends the written
part of the image, its record and the byte count by that block. -/
theorem Live.write {nvs : NvsStatus} {s : OadState} {flash : Flash}
    (hlen : image.length ≤ 2 ^ 20) (hl : Live B image s.handle s.flash)
    (hh : Held B image s.handle)
    (hwrite : s.writeCurrBlock nvs = (flash, .success)) :
    flash.useExternalFlash = true ∧
      bytes flash.mem 0 (s.handle.currBlockNum * B +
          (imgBlock B image s.handle.currBlockNum).length) =
        image.take (s.handle.currBlockNum * B + B) ∧
      flash.imgWrites =
        (List.range (s.handle.currBlockNum + 1)).map (blockWrite B image) ∧
      s.handle.recvAfter = s.handle.currBlockNum * B +
        (imgBlock B image s.handle.currBlockNum).length := by
  have hstart := hl.start_lt
  have haddr : imgBlockAddr s.flash.useExternalFlash s.handle.currBlockNum
      s.handle.oadNotifReqInfo.blockLen = s.handle.currBlockNum * B := by
    rw [hl.external, hl.blockLen, imgBlockAddr_ext, Nat.mul_comm]
    rw [Nat.mul_comm]
    omega
  obtain ⟨buf, hbuf⟩ := Option.isSome_iff_exists.mp hl.buffer
  have hdata := hh.2 buf hbuf
  have hopen : s.flash.isOpen = true := by
    by_contra hclosed
    rw [OadState.writeCurrBlock,
      imgBlockWrite_closed (Bool.not_eq_true _ ▸ hclosed)] at hwrite
    cases hwrite
  rw [OadState.writeCurrBlock, imgBlockWrite_open hopen, haddr, hbuf] at hwrite
  cases nvs with
  | failure residue => simp [NvsStatus.isOk] at hwrite
  | success =>
      have hflash := (Prod.mk.inj hwrite).1
      subst hflash
      refine ⟨hl.external, ?_, ?_, ?_⟩
      · rw [bytes_append, Nat.zero_add]
        simp only [Option.getD_some, NvsStatus.left]
        rw [bytes_blit_apart (.inl (by omega)), hl.written, ← hh.1,
          bytes_blit_self, hdata, take_add_imgBlock]
      · simp only [Option.getD_some, NvsStatus.isOk, hl.writes, hdata]
        rw [List.range_succ, List.map_append, hl.blockLen]
        rfl
      · have hsize := length_imgBlock B image s.handle.currBlockNum
        rw [OadHandle.recvAfter, hl.recv, hh.1]
        exact Nat.mod_eq_of_lt (by omega)

/-- The next block is due: the transfer stays live. -/
theorem Live.next {nvs : NvsStatus} {s : OadState} {flash : Flash}
    (hlen : image.length ≤ 2 ^ 20) (hl : Live B image s.handle s.flash)
    (hh : Held B image s.handle)
    (hwrite : s.writeCurrBlock nvs = (flash, .success))
    (hmore : s.handle.currBlockNum + 1 ≠ s.handle.totalBlocks) :
    Live B image
      { (s.counted flash).handle with
        currBlockNum := (s.handle.currBlockNum + 1) % 2 ^ 16 } flash := by
  obtain ⟨hext, hmem, hrec, hrecv⟩ := hl.write hlen hh hwrite
  have hcurr := hl.curr
  have hcount := totalBlocksOf_le s.handle.oadNotifReqInfo
  have hword := totalBlocksOf_lt s.handle.oadNotifReqInfo
  rw [← hl.total] at hcount hword
  rw [hl.imageLen, hl.blockLen] at hcount
  have hnum : (s.handle.currBlockNum + 1) % 2 ^ 16 =
      s.handle.currBlockNum + 1 := Nat.mod_eq_of_lt (by omega)
  -- the current block is not the last one, so it is a full one
  have hnext : (s.handle.currBlockNum + 1) * B < image.length :=
    mul_lt_of_lt_blockCount (lt_of_lt_of_le (by omega) hcount)
  rw [Nat.succ_mul] at hnext
  have hfull : (imgBlock B image s.handle.currBlockNum).length = B := by
    rw [length_imgBlock]
    omega
  rw [hfull] at hmem hrecv
  rw [hnum]
  exact
    { inProgress := hl.inProgress
      blockLen := hl.blockLen
      blockLen_lt := hl.blockLen_lt
      imageLen := hl.imageLen
      total := hl.total
      curr := lt_of_le_of_ne hcurr hmore
      recv := by
        rw [Nat.succ_mul]
        exact hrecv
      buffer := hl.buffer
      external := hext
      written := by
        rw [Nat.succ_mul]
        exact hmem
      writes := hrec }

/-- The byte count is right after the last block: the flash holds the image. -/
theorem Live.done {nvs : NvsStatus} {s : OadState} {flash : Flash}
    (hlen : image.length ≤ 2 ^ 20) (hl : Live B image s.handle s.flash)
    (hh : Held B image s.handle)
    (hwrite : s.writeCurrBlock nvs = (flash, .success))
    (hlast : s.handle.currBlockNum + 1 = s.handle.totalBlocks)
    (hrecv : s.handle.recvAfter = s.handle.oadNotifReqInfo.imageLen) :
    HoldsImage B image flash := by
  obtain ⟨_, hmem, hrec, hbytes⟩ := hl.write hlen hh hwrite
  have hstart := hl.start_lt
  have hsize := length_imgBlock B image s.handle.currBlockNum
  rw [hrecv, hl.imageLen] at hbytes
  have hpos : 0 < B := by omega
  have hcount := totalBlocksOf_le s.handle.oadNotifReqInfo
  rw [← hl.total, hl.imageLen, hl.blockLen] at hcount
  have hblocks : s.handle.currBlockNum + 1 = blockCount image.length B :=
    succ_eq_blockCount hpos (by omega) (by omega)
  refine ⟨?_, ?_⟩
  · rw [← hbytes] at hmem
    rw [hmem]
    exact List.take_of_length_le (by omega)
  · rw [hrec, hblocks]

/-! ## Every step keeps the invariant -/

/-- A received block is processed. -/
theorem ImgInv.recv {env : TaskletEnv} {s : OadState}
    (hlen : image.length ≤ 2 ^ 20)
    (hi : ImgInv B image s.handle (.blockRecv :: s.queue) s.flash) :
    ImgInv B image (oadBlockRecvEvt env s).handle (oadBlockRecvEvt env s).queue
      (oadBlockRecvEvt env s).flash := by
  have hno : .blockRecv ∉ s.queue := by
    have := hi.oneRecv
    rw [List.count_cons_self] at this
    exact List.count_eq_zero.mp (by omega)
  have habort : ∀ (h : OadHandle) (f : Flash),
      (h.oadInProgress = false → h.totalBlocks = 0) →
      ImgInv B image h (s.queue ++ [.abort]) f := fun h f hidle =>
    ⟨recvCount_push hno (by decide), hidle, .inr (.inl (doomed_abort hno))⟩
  rcases oadBlockRecvEvt_cases env s with ⟨flash, _, heq⟩ |
      ⟨flash, hwrite, ⟨_, _, heq⟩ | ⟨hlast, hrecv, heq⟩ | ⟨hmore, heq⟩⟩
  · rw [heq]
    exact habort _ _ hi.idle
  · rw [heq]
    exact habort _ _ hi.idle
  · obtain ⟨flash', _, _, hdone | ⟨hclosed, hdone⟩⟩ :=
      oadImageDone_cases env (s.counted flash)
    · rw [heq, hdone]
      exact habort _ _ hi.idle
    · rw [heq, hdone]
      exact ⟨recvCount_push hno (by decide), hi.idle, .inr (.inr (.inl hclosed))⟩
  · rw [heq]
    refine ⟨recvCount_push hno (by decide), hi.idle, ?_⟩
    rcases hi.live with htotal | hdoom | hclosed | ⟨hl, hheld⟩
    · exact .inl htotal
    · exact hdoom.elim
    · -- a closed flash takes no block
      rw [OadState.writeCurrBlock, imgBlockWrite_closed hclosed] at hwrite
      cases hwrite
    · have hnext := hl.next hlen (hheld List.mem_cons_self) hwrite hmore
      refine .inr (.inr (.inr ⟨hnext, fun hmem => ?_⟩))
      have hmem' : .blockRecv ∈ s.queue ++ [.blockReq] := hmem
      simp [hno] at hmem'

/-- A transfer is opened while no block waits. -/
theorem ImgInv.open {env : NotifEnv} {addr : List UInt8} {s : OadState}
    (hidle : s.handle.totalBlocks = 0) (hno : .blockRecv ∉ s.queue)
    (hB : s.handle.oadNotifReqInfo.blockLen = B) (hword : B < 2 ^ 16)
    (hL : s.handle.oadNotifReqInfo.imageLen = image.length) :
    ImgInv B image (startTransfer env addr s).1.handle
      (startTransfer env addr s).1.queue (startTransfer env addr s).1.flash := by
  rcases startTransfer_cases env addr s with
    ⟨total, htotal, heq⟩ | ⟨htotal, hmalloc, evt, hevt, heq⟩
  · rw [heq]
    refine .dead (recvCount_push hno (by decide)) ?_
    rcases htotal with ⟨_, rfl⟩ | ⟨_, rfl⟩
    · exact hidle
    · rfl
  · rw [heq]
    obtain ⟨_, hext, hrec⟩ := eraseResult_frame env s
    have hne : evt ≠ .blockRecv := by
      rcases hevt with ⟨rfl, _⟩ | rfl <;> decide
    refine ⟨recvCount_push hno hne, (fun h => nomatch h), .inr (.inr (.inr ⟨?_, ?_⟩))⟩
    · exact
        { inProgress := rfl
          blockLen := hB
          blockLen_lt := hword
          imageLen := hL
          total := rfl
          curr := Nat.pos_of_ne_zero htotal
          recv := (Nat.zero_mul B).symm
          buffer := hmalloc
          external := hext
          written := by simp [oadUpdate, OadHandle.restart]
          writes := hrec }
    · intro hmem
      have hmem' : .blockRecv ∈ s.queue ++ [evt] := hmem
      simp [hno, hne.symm] at hmem'

theorem CarriesBlock.dataLen {hdr : CoapHdr} (hc : CarriesBlock B image hdr) :
    rspDataLen hdr = (imgBlock B image (le16 hdr.payloadPtr 1)).length := by
  have hlt := hdr.payloadLen_lt
  have hsize := hc.1
  unfold rspDataLen
  omega

/-- A block response is taken in, or not. -/
theorem ImgInv.rsp {hdr : CoapHdr} {s t : OadState} {ret : Int}
    (hi : ImgInv B image s.handle s.queue s.flash)
    (hserved : CarriesBlock B image hdr)
    (hone : AcceptsRsp s hdr → .blockRecv ∉ s.queue)
    (hcb : oadImgRspCb hdr s = some (t, ret)) :
    ImgInv B image t.handle t.queue t.flash := by
  rcases oadImgRspCb_cases hcb with ⟨_, rfl⟩ | ⟨_, _, imgId, blockNum, rfl⟩ |
      ⟨hcur, hnot, imgId, blockNum, rfl⟩ |
      ⟨hacc, imgId, blockNum, data, hcopy, rfl⟩
  · exact hi
  · have hkeep : ImgInv B image (s.setCurrBlock
        { s.handle.oadCurrBlock with imgId, blockNum }).handle
        (s.queue ++ []) s.flash :=
      hi.push ⟨rfl, rfl, rfl, rfl, rfl, rfl, rfl⟩ (by simp)
    rwa [List.append_nil] at hkeep
  · -- an overlong response is not the server's: its blocks have `B` bytes
    refine ⟨hi.oneRecv, hi.idle, hi.live.imp_right (Or.imp_right
      (Or.imp_right ?_))⟩
    rintro ⟨hl, _⟩
    refine absurd ⟨hcur, ?_⟩ hnot
    rw [hserved.dataLen, length_imgBlock, hl.blockLen]
    exact Nat.min_le_left _ _
  · have hno := hone hacc
    have hcount : (s.queue ++ [OadEvt.blockRecv]).count OadEvt.blockRecv ≤ 1 := by
      rw [List.count_append, List.count_eq_zero.mpr hno]
      simp
    refine ⟨hcount, hi.idle, hi.live.imp_right (Or.imp doomed_append
      (Or.imp_right ?_))⟩
    rintro ⟨hl, _⟩
    obtain ⟨buf, hbuf⟩ := Option.isSome_iff_exists.mp hl.buffer
    have hdata : data = some (blit buf 0 (rspDataLen hdr)
        fun i => hdr.payloadPtr (3 + i)) := by
      simpa [memcpyBlock, hbuf] using hcopy.symm
    refine ⟨{ hl with buffer := by simp [oadUpdate, OadState.setCurrBlock, hdata] },
      fun _ => ⟨?_, ?_⟩⟩
    · simp only [oadUpdate, OadState.setCurrBlock]
      rw [hserved.dataLen, hacc.1.2]
    · intro buf' hbuf'
      have hsame : buf' = blit buf 0 (rspDataLen hdr)
          fun i => hdr.payloadPtr (3 + i) :=
        Option.some.inj (hbuf'.symm.trans hdata)
      subst hsame
      simp only [oadUpdate, OadState.setCurrBlock]
      rw [bytes_blit_self, hserved.dataLen, hserved.2, hacc.1.2]

/-- A timeout of the block request asks again or gives up. -/
theorem ImgInv.timeout {s : OadState}
    (hi : ImgInv B image s.handle s.queue s.flash) :
    ImgInv B image (oadBlockReqTimeoutEvt s).handle
      (oadBlockReqTimeoutEvt s).queue (oadBlockReqTimeoutEvt s).flash := by
  obtain ⟨evt, count, hevt, heq⟩ := oadBlockReqTimeoutEvt_cases s
  rw [heq]
  refine hi.push ⟨rfl, rfl, rfl, rfl, rfl, rfl, rfl⟩ ?_
  rcases hevt with rfl | rfl <;> simp

/-- **Step lemma.** -/
theorem imgInv_step {dev : Device} (hlen : image.length ≤ 2 ^ 20)
    {s t : OadState} {a : OadAct}
    (hi : ImgInv B image s.handle s.queue s.flash)
    (hserved : Served dev B image s a) (hone : OneAtATime dev s a)
    (hstep : step dev s a = some t) :
    ImgInv B image t.handle t.queue t.flash := by
  have hreset : ∀ s', ImgInv B image (sysCtrlSystemReset s').handle
      (sysCtrlSystemReset s').queue (sysCtrlSystemReset s').flash := fun s' =>
    .dead (by simp [sysCtrlSystemReset, OadState.boot]) rfl
  cases a with
  | request env addr hdr =>
      cases hstep
      rcases coapOadCb_cases dev env addr hdr s with
        ⟨_, heq | ⟨o, _, heq⟩⟩ | ⟨hstore, _, status, sent, _, heq⟩ | ⟨hopen, heq⟩
      · rwa [heq]
      · rw [heq]
        exact hi
      · rw [heq]
        exact .dead hi.oneRecv (hi.idle hstore.2.1)
      · rw [heq]
        obtain ⟨hB, hL⟩ := hserved hopen
        refine ImgInv.open (hi.idle hopen.1.2.1) (hone hopen) hB ?_ hL
        rw [← hB]
        exact le16_lt _ _
  | imgRsp hdr =>
      obtain ⟨⟨t', ret⟩, hcb, rfl⟩ := Option.map_eq_some_iff.mp hstep
      exact hi.rsp hserved hone hcb
  | completeRsp =>
      simp only [step, Option.ite_none_right_eq_some] at hstep
      rw [← Option.some.inj hstep.2]
      exact hreset _
  | event env =>
      cases hq : s.queue with
      | nil => simp [step, hq] at hstep
      | cons e rest =>
          simp only [step, hq, Option.some.injEq] at hstep
          subst hstep
          rw [hq] at hi
          have hrest : rest.count .blockRecv ≤ 1 :=
            le_trans List.count_le_count_cons hi.oneRecv
          cases e with
          | init => exact .dead hrest rfl
          | blockReq =>
              exact hi.pop ⟨rfl, rfl, rfl, rfl, rfl, rfl, rfl⟩ (by decide)
          | blockRecv => exact ImgInv.recv hlen hi
          | complete => exact hi.pop (.refl _) (by decide)
          | abort => exact .dead hrest rfl
          | blockReqTimeout =>
              exact ImgInv.timeout (s := { s with queue := rest })
                (hi.pop (.refl _) (by decide))
          | completeTimeout => exact hreset _
  | expire id =>
      simp only [step, Option.ite_none_left_eq_some] at hstep
      rw [← Option.some.inj hstep.2]
      cases id <;> exact hi
  | timerEvent env id =>
      simp only [step, Option.ite_none_left_eq_some] at hstep
      rw [← Option.some.inj hstep.2]
      cases id with
      | blockReq => exact ImgInv.timeout hi
      | complete => exact hreset _

/-- **Image integrity.**  In a download from a server, with nothing taken in
while a received block waits, every step that queues the complete event leaves
the flash holding the image. -/
theorem complete_queued_holdsImage (dev : Device) (B : Nat)
    (image : List UInt8) (mem : Store) (as : List OadAct) (a : OadAct)
    (s t : OadState) (hlen : image.length ≤ 2 ^ 20)
    (hserved : Meets (step dev) (Served dev B image) (.boot mem [])
      (as ++ [a]))
    (hone : Meets (step dev) (OneAtATime dev) (.boot mem []) (as ++ [a]))
    (hrun : run (step dev) (.boot mem []) as = some s)
    (hstep : step dev s a = some t)
    (hqueued : s.queue.count .complete < t.queue.count .complete) :
    HoldsImage B image t.flash := by
  have hi : ImgInv B image s.handle s.queue s.flash := by
    have hboot : ImgInv B image (OadState.boot mem []).handle
        (OadState.boot mem []).queue (OadState.boot mem []).flash :=
      .dead (by simp [OadState.boot]) rfl
    have hboth : Meets (step dev)
        (fun s a => Served dev B image s a ∧ OneAtATime dev s a)
        (.boot mem []) as :=
      Meets.and (meets_append.mp hserved).1 (meets_append.mp hone).1
    exact run_invariant (fun s => ImgInv B image s.handle s.queue s.flash)
      (fun s a t hi hok => imgInv_step hlen hi hok.1 hok.2) hboot hboth hrun
  obtain ⟨rest, hq, nvs, flash, hwrite, hlast, hrecv, hrec, hmem⟩ :=
    step_queues_complete hstep hqueued
  have hpos : s.handle.totalBlocks ≠ 0 := by omega
  have hopen : s.flash.isOpen ≠ false := by
    intro hclosed
    rw [OadState.writeCurrBlock, imgBlockWrite_closed hclosed] at hwrite
    cases hwrite
  have hlive := hi.live.resolve_left hpos
  rw [hq] at hlive
  obtain ⟨hl, hheld⟩ := (hlive.resolve_left id).resolve_left hopen
  have hdone := hl.done hlen (hheld List.mem_cons_self) hwrite hlast hrecv
  refine ⟨Eq.trans (bytes_congr fun i hi => ?_) hdone.1, hrec.trans hdone.2⟩
  rw [Nat.zero_add]
  exact hmem i (by rw [hl.imageLen]; exact hi)

/-! ## Two blocks of one byte -/

def sampleImage : List UInt8 := [1, 2]

/-- Both blocks arrive once, up to the event of the second. -/
def orderlyRun : List OadAct :=
  [.request .ok [] sampleNotif, .event .ok, sampleRsp 0 1, .event .ok,
   .event .ok, sampleRsp 1 2]

theorem orderly_download_holdsImage :
    ∃ s, run (step sampleDevice) (.boot (fun _ => 0) []) orderlyRun = some s ∧
      ∃ t, step sampleDevice s (.event .ok) = some t ∧
        HoldsImage 1 sampleImage t.flash := by
  have hrun : ∃ s, run (step sampleDevice) (.boot (fun _ => 0) []) orderlyRun =
      some s ∧ ∃ t, step sampleDevice s (.event .ok) = some t ∧
        s.queue.count .complete < t.queue.count .complete := by
    decide +kernel
  obtain ⟨s, hs, t, ht, hqueued⟩ := hrun
  exact ⟨s, hs, t, ht, complete_queued_holdsImage sampleDevice 1 sampleImage _
    orderlyRun (.event .ok) s t (by decide) (by decide +kernel)
    (by decide +kernel) hs ht hqueued⟩

/-- The request of block 0 times out and is repeated; then both answers for
block 0 come in before the first is written. -/
def duplicateRun : List OadAct :=
  [.request .ok [] sampleNotif, .event .ok, .expire .blockReq,
   .timerEvent .ok .blockReq, .event .ok, sampleRsp 0 1, sampleRsp 0 1,
   .event .ok]

/-- **A late answer and its repetition.**  Block 0 is written as block 1 too,
the byte count is right, and the complete event is queued over a flash which
does not hold the image. -/
theorem duplicate_download_wrong_image :
    Meets (step sampleDevice) (Served sampleDevice 1 sampleImage)
        (.boot (fun _ => 0) []) (duplicateRun ++ [.event .ok]) ∧
      ∃ s, run (step sampleDevice) (.boot (fun _ => 0) []) duplicateRun =
          some s ∧
        ∃ t, step sampleDevice s (.event .ok) = some t ∧
          s.queue.count .complete < t.queue.count .complete ∧
          ¬HoldsImage 1 sampleImage t.flash := by
  decide +kernel

end Oad
