import WisunModem.Oad
import Mathlib.Order.Interval.Finset.Nat

/-!
# Bounds of the image block writes

Block length and image length come from the network, and nothing relates them
to the size of the image area before the last block.  The number of blocks is
cut to sixteen bits, but no block beyond it is written, so the area of a
transfer is at most the number of blocks times the block length.  The writes
stay inside the image area, and off the boot magic at its end, exactly when
that product does.
-/

namespace Oad

open ByteStore Runs

/-- The addresses an image block was sent to. -/
def ImgWrite.range (w : ImgWrite) : Finset Nat :=
  Finset.Ico w.addr (w.addr + w.data.length)

/-- The write goes to exactly the range of its block, inside the erased image
area, and off the boot magic. -/
structure InBounds (w : ImgWrite) : Prop where
  exact : w.range = Finset.Ico (w.blkNum * w.blockLen)
    (w.blkNum * w.blockLen + w.data.length)
  inside : w.range ⊆ Finset.Ico 0 imageMaxSize
  offMagic : Disjoint w.range
    (Finset.Ico (imageMaxSize - bootImgMagicSize) imageMaxSize)

/-- All blocks of a transfer fit below the boot magic. -/
def Fits (info : OadNotifReqMsg) : Prop :=
  blockCount info.imageLen info.blockLen % 2 ^ 16 * info.blockLen ≤
    imageMaxSize - bootImgMagicSize

instance (info : OadNotifReqMsg) : Decidable (Fits info) :=
  inferInstanceAs (Decidable (_ ≤ _))

/-- Transfers are opened by the given notifications only. -/
def OpenedBy (dev : Device) (allowed : OadNotifReqMsg → Prop) (s : OadState) :
    OadAct → Prop
  | .request env _ hdr =>
      OpensTransfer dev env s hdr → allowed (.ofBytes hdr.payloadPtr)
  | _ => True

theorem OpenedBy.mono {dev : Device} {p p' : OadNotifReqMsg → Prop}
    (himp : ∀ info, p info → p' info) {s : OadState} {a : OadAct}
    (h : OpenedBy dev p s a) : OpenedBy dev p' s a := by
  cases a with
  | request env addr hdr => exact fun hopen => himp _ (h hopen)
  | imgRsp | completeRsp | event | expire | timerEvent => trivial

/-- No response to the current request is turned down for its length. -/
def NoOverlong (s : OadState) : OadAct → Prop
  | .imgRsp hdr => RspForCurrent s hdr → AcceptsRsp s hdr
  | _ => True

/-- An empty write is in bounds wherever it goes. -/
theorem inBounds_empty {w : ImgWrite} (h : w.data = []) : InBounds w := by
  have hrange : w.range = ∅ := by simp [ImgWrite.range, h]
  refine ⟨by simp [hrange, h], ?_, ?_⟩
  · rw [hrange]
    exact Finset.empty_subset _
  · rw [hrange]
    exact Finset.disjoint_empty_left _

/-- A write of at most a block length, of a block which ends below the magic. -/
theorem inBounds_of_le {w : ImgWrite} (haddr : w.addr = w.blkNum * w.blockLen)
    (hend : w.addr + w.data.length ≤ imageMaxSize - bootImgMagicSize) :
    InBounds w := by
  refine ⟨by rw [ImgWrite.range, haddr], ?_, ?_⟩
  · intro i hi
    simp only [ImgWrite.range, Finset.mem_Ico] at hi ⊢
    omega
  · rw [Finset.disjoint_left]
    intro i hi hmagic
    simp only [ImgWrite.range, Finset.mem_Ico] at hi hmagic
    omega

/-! ## Blocks that fit are written in bounds -/

/-- The invariant: what was written is in bounds; a handle with a buffer belongs
to a transfer that fits, and what it holds is no longer than a block. -/
structure BoundsInv (s : OadState) : Prop where
  writes : ∀ w ∈ s.flash.imgWrites, InBounds w
  external : s.flash.isOpen = true → s.flash.useExternalFlash = true
  idle : s.handle.oadInProgress = false → s.handle.oadCurrBlock.data = none
  empty : s.handle.oadCurrBlock.data = none → s.handle.oadCurrBlock.dataLen = 0
  fits : s.handle.oadCurrBlock.data ≠ none → Fits s.handle.oadNotifReqInfo
  total : s.handle.oadCurrBlock.data ≠ none →
    s.handle.totalBlocks = totalBlocksOf s.handle.oadNotifReqInfo
  curr : s.handle.oadCurrBlock.data ≠ none →
    s.handle.currBlockNum < s.handle.totalBlocks
  length : s.handle.oadCurrBlock.data ≠ none →
    s.handle.oadCurrBlock.dataLen ≤ s.handle.oadNotifReqInfo.blockLen

variable {s t : OadState}

/-- A handle without a buffer has nothing to keep. -/
theorem BoundsInv.noBuffer (hw : ∀ w ∈ s.flash.imgWrites, InBounds w)
    (hx : s.flash.isOpen = true → s.flash.useExternalFlash = true)
    (hd : s.handle.oadCurrBlock.data = none)
    (hl : s.handle.oadCurrBlock.dataLen = 0) : BoundsInv s :=
  ⟨hw, hx, fun _ => hd, fun _ => hl, fun h => absurd hd h,
    fun h => absurd hd h, fun h => absurd hd h, fun h => absurd hd h⟩

/-- The write of the current block is in bounds. -/
theorem BoundsInv.writeCurrBlock {nvs : NvsStatus} (hi : BoundsInv s) :
    ∀ w ∈ (s.writeCurrBlock nvs).1.imgWrites, InBounds w := by
  cases hopen : s.flash.isOpen with
  | false =>
      rw [OadState.writeCurrBlock, imgBlockWrite_closed hopen]
      exact hi.writes
  | true =>
      rw [OadState.writeCurrBlock, imgBlockWrite_open hopen]
      intro w hw
      rcases List.mem_append.mp hw with hold | hnew
      · exact hi.writes w hold
      · obtain rfl := List.mem_singleton.mp hnew
        by_cases hdata : s.handle.oadCurrBlock.data = none
        · exact inBounds_empty (by simp [hi.empty hdata])
        · have hlast : (s.handle.currBlockNum + 1) *
              s.handle.oadNotifReqInfo.blockLen ≤
              imageMaxSize - bootImgMagicSize := by
            refine le_trans (Nat.mul_le_mul_right _ ?_) (hi.fits hdata)
            rw [← totalBlocksOf_eq, ← hi.total hdata]
            exact hi.curr hdata
          rw [Nat.succ_mul] at hlast
          have hlen := hi.length hdata
          have hmax : imageMaxSize - bootImgMagicSize < 2 ^ 20 := by decide
          have haddr : imgBlockAddr s.flash.useExternalFlash
              s.handle.currBlockNum s.handle.oadNotifReqInfo.blockLen =
              s.handle.currBlockNum * s.handle.oadNotifReqInfo.blockLen := by
            rw [hi.external hopen, imgBlockAddr_ext, Nat.mul_comm]
            rw [Nat.mul_comm]
            omega
          refine inBounds_of_le haddr ?_
          simp only [haddr, length_bytes]
          omega

/-- A received block is processed. -/
theorem BoundsInv.recv {env : TaskletEnv} (hi : BoundsInv s) :
    BoundsInv (oadBlockRecvEvt env s) := by
  obtain ⟨hrec, hext, hopen⟩ := oadBlockRecvEvt_flash env s
  obtain ⟨recv, curr, hhandle, hcurr⟩ := oadBlockRecvEvt_handle env s
  have hword := totalBlocksOf_lt s.handle.oadNotifReqInfo
  exact
    { writes := by
        rw [hrec]
        exact hi.writeCurrBlock
      external := fun h => hext.trans (hi.external (hopen h))
      idle := by
        rw [hhandle]
        exact hi.idle
      empty := by
        rw [hhandle]
        exact hi.empty
      fits := by
        rw [hhandle]
        exact hi.fits
      total := by
        rw [hhandle]
        exact hi.total
      curr := by
        rw [hhandle]
        intro hdata
        have hlt := hi.curr hdata
        have htotal := hi.total hdata
        rcases hcurr with rfl | ⟨hmore, rfl⟩
        · exact hlt
        · have hmod : (s.handle.currBlockNum + 1) % 2 ^ 16 =
              s.handle.currBlockNum + 1 := Nat.mod_eq_of_lt (by omega)
          simp only [hmod]
          omega
      length := by
        rw [hhandle]
        exact hi.length }

/-- A transfer of at least one block is opened. -/
theorem BoundsInv.open {env : NotifEnv} {addr : List UInt8} (hi : BoundsInv s)
    (hdata : s.handle.oadCurrBlock.data = none)
    (hfits : Fits s.handle.oadNotifReqInfo)
    (htotal : totalBlocksOf s.handle.oadNotifReqInfo ≠ 0) :
    BoundsInv (startTransfer env addr s).1 := by
  have hlen := hi.empty hdata
  rcases startTransfer_cases env addr s with
    ⟨total, ⟨hmalloc, _⟩ | ⟨hzero, _⟩, heq⟩ | ⟨_, hmalloc, evt, _, heq⟩
  · rw [heq]
    exact .noBuffer hi.writes hi.external hmalloc hlen
  · exact absurd hzero htotal
  · rw [heq]
    obtain ⟨_, hext, hrec⟩ := eraseResult_frame env s
    have hsome : env.malloc ≠ none := Option.isSome_iff_ne_none.mp hmalloc
    exact
      { writes := fun w hw => by
          simp only [oadUpdate, hrec, List.not_mem_nil] at hw
        external := fun _ => hext
        idle := fun h => nomatch h
        empty := fun h => absurd h hsome
        fits := fun _ => hfits
        total := fun _ => rfl
        curr := fun _ => Nat.pos_of_ne_zero htotal
        length := fun _ => by
          simp only [oadUpdate, OadHandle.restart, hlen, Nat.zero_le] }

theorem BoundsInv.rsp {hdr : CoapHdr} {ret : Int} (hi : BoundsInv s)
    (hshort : NoOverlong s (.imgRsp hdr))
    (hcb : oadImgRspCb hdr s = some (t, ret)) : BoundsInv t := by
  rcases oadImgRspCb_cases hcb with ⟨_, rfl⟩ | ⟨_, _, imgId, blockNum, rfl⟩ |
      ⟨hcur, hnot, _⟩ | ⟨hacc, imgId, blockNum, data, hcopy, rfl⟩
  · exact hi
  · exact { hi with
      writes := hi.writes }
  · exact absurd (hshort hcur) hnot
  · cases hdata : s.handle.oadCurrBlock.data with
    | none =>
        -- only an empty block is copied to the null pointer
        rw [hdata, memcpyBlock] at hcopy
        by_cases hlen : rspDataLen hdr = 0
        · rw [if_pos hlen] at hcopy
          exact .noBuffer hi.writes hi.external (Option.some.inj hcopy).symm hlen
        · rw [if_neg hlen] at hcopy
          cases hcopy
    | some buf =>
        have hsome : s.handle.oadCurrBlock.data ≠ none := by simp [hdata]
        have hnew : data ≠ none := by
          rw [hdata, memcpyBlock] at hcopy
          simp [← Option.some.inj hcopy]
        exact
          { writes := hi.writes
            external := hi.external
            idle := fun h => absurd (hi.idle h) hsome
            empty := fun h => absurd h hnew
            fits := fun _ => hi.fits hsome
            total := fun _ => hi.total hsome
            curr := fun _ => hi.curr hsome
            length := fun _ => hacc.2 }

/-- **Step lemma.** -/
theorem boundsInv_step {dev : Device} {a : OadAct} (hi : BoundsInv s)
    (hopened : OpenedBy dev (fun info => Fits info ∧ totalBlocksOf info ≠ 0) s a)
    (hshort : NoOverlong s a) (hstep : step dev s a = some t) :
    BoundsInv t := by
  have hreset : ∀ s', BoundsInv (sysCtrlSystemReset s') := fun s' =>
    .noBuffer (fun w hw => by cases hw) (fun h => by cases h) rfl rfl
  have htimeout : ∀ s' : OadState, BoundsInv s' →
      BoundsInv (oadBlockReqTimeoutEvt s') := by
    intro s' hi'
    obtain ⟨evt, count, _, heq⟩ := oadBlockReqTimeoutEvt_cases s'
    rw [heq]
    exact { hi' with writes := hi'.writes }
  have htasklet : ∀ (env : TaskletEnv) (e : OadEvt) (s' : OadState),
      BoundsInv s' → BoundsInv (oadTasklet env e s') := by
    intro env e s' hi'
    cases e with
    | init | abort => exact .noBuffer hi'.writes hi'.external rfl rfl
    | blockReq | complete => exact { hi' with writes := hi'.writes }
    | blockRecv => exact hi'.recv
    | blockReqTimeout => exact htimeout s' hi'
    | completeTimeout => exact hreset _
  cases a with
  | request env addr hdr =>
      cases hstep
      rcases coapOadCb_cases dev env addr hdr s with
        ⟨_, heq | ⟨o, _, heq⟩⟩ | ⟨hstore, _, status, sent, _, heq⟩ |
          ⟨hopen, heq⟩
      · rwa [heq]
      · rw [heq]
        exact { hi with writes := hi.writes }
      · rw [heq]
        have hdata := hi.idle hstore.2.1
        exact .noBuffer hi.writes hi.external hdata (hi.empty hdata)
      · rw [heq]
        have hdata := hi.idle hopen.1.2.1
        obtain ⟨hfits, htotal⟩ := hopened hopen
        exact BoundsInv.open
          (.noBuffer hi.writes hi.external hdata (hi.empty hdata))
          hdata hfits htotal
  | imgRsp hdr =>
      obtain ⟨⟨t', ret⟩, hcb, rfl⟩ := Option.map_eq_some_iff.mp hstep
      exact hi.rsp hshort hcb
  | completeRsp =>
      simp only [step, Option.ite_none_right_eq_some] at hstep
      rw [← Option.some.inj hstep.2]
      exact hreset _
  | event env =>
      cases hq : s.queue with
      | nil => simp [step, hq] at hstep
      | cons e rest =>
          simp only [step, hq, Option.some.injEq] at hstep
          rw [← hstep]
          exact htasklet env e _ { hi with writes := hi.writes }
  | expire id =>
      simp only [step, Option.ite_none_left_eq_some] at hstep
      rw [← Option.some.inj hstep.2]
      cases id <;> exact { hi with writes := hi.writes }
  | timerEvent env id =>
      simp only [step, Option.ite_none_left_eq_some] at hstep
      rw [← Option.some.inj hstep.2]
      refine htasklet env _ _ ?_
      cases id <;> exact { hi with writes := hi.writes }

/-- Whatever fitting notifications open transfers, all writes are in bounds. -/
theorem run_inBounds {dev : Device} {mem : Store} {as : List OadAct}
    (hopened : Meets (step dev)
      (OpenedBy dev fun info => Fits info ∧ totalBlocksOf info ≠ 0)
      (.boot mem []) as)
    (hshort : Meets (step dev) NoOverlong (.boot mem []) as)
    (hrun : run (step dev) (.boot mem []) as = some s) :
    ∀ w ∈ s.flash.imgWrites, InBounds w := by
  have hboot : BoundsInv (.boot mem []) :=
    .noBuffer (fun w hw => by cases hw) (fun h => by cases h) rfl rfl
  exact (run_invariant BoundsInv
    (fun s a t hi hok => boundsInv_step hi hok.1 hok.2) hboot
    (hopened.and hshort) hrun).writes

/-! ## A transfer of no blocks writes nothing -/

/-- Nothing but aborts was ever queued. -/
structure Barren (s : OadState) : Prop where
  writes : s.flash.imgWrites = []
  queue : ∀ e ∈ s.queue, e = .abort
  silent : s.handle.blockReqInProgress = false
  reqTimer : s.reqTimer = .idle
  completeTimer : s.completeTimer = .idle
  sent : s.completeReqSent = false

theorem barren_step {dev : Device} {a : OadAct} (hi : Barren s)
    (hopened : OpenedBy dev (fun info => totalBlocksOf info = 0) s a)
    (hstep : step dev s a = some t) : Barren t := by
  cases a with
  | request env addr hdr =>
      cases hstep
      rcases coapOadCb_cases dev env addr hdr s with
        ⟨_, heq | ⟨o, _, heq⟩⟩ | ⟨_, _, status, sent, _, heq⟩ | ⟨hopen, heq⟩
      · rwa [heq]
      · rw [heq]
        exact { hi with writes := hi.writes }
      · rw [heq]
        exact { hi with writes := hi.writes }
      · rw [heq]
        rcases startTransfer_cases env addr (s.accepted hdr) with
          ⟨total, _, heq⟩ | ⟨htotal, _⟩
        · rw [heq]
          refine { hi with queue := ?_, silent := rfl }
          intro e he
          rcases List.mem_append.mp he with hold | hnew
          · exact hi.queue e hold
          · exact List.mem_singleton.mp hnew
        · exact absurd (hopened hopen) htotal
  | imgRsp hdr =>
      obtain ⟨⟨t', ret⟩, hcb, rfl⟩ := Option.map_eq_some_iff.mp hstep
      have hsilent := hi.silent
      rcases oadImgRspCb_cases hcb with ⟨_, rfl⟩ | ⟨hb, _⟩ | ⟨hcur, _⟩ |
        ⟨hacc, _⟩
      · exact hi
      · cases hsilent.symm.trans hb
      · cases hsilent.symm.trans hcur.1
      · cases hsilent.symm.trans hacc.1.1
  | completeRsp =>
      simp only [step, Option.ite_none_right_eq_some] at hstep
      cases hi.sent.symm.trans hstep.1
  | event env =>
      cases hq : s.queue with
      | nil => simp [step, hq] at hstep
      | cons e rest =>
          simp only [step, hq, Option.some.injEq] at hstep
          have hqueue := hi.queue
          rw [hq] at hqueue
          obtain rfl := hqueue e List.mem_cons_self
          rw [← hstep]
          exact { hi with
            queue := fun e he => hqueue e (List.mem_cons_of_mem _ he)
            silent := rfl }
  | expire id =>
      simp only [step, Option.ite_none_left_eq_some] at hstep
      have hreq := hi.reqTimer
      have hcomplete := hi.completeTimer
      cases id with
      | blockReq => exact absurd (by rw [OadState.timer, hreq]; rfl) hstep.1
      | complete => exact absurd (by rw [OadState.timer, hcomplete]; rfl) hstep.1
  | timerEvent env id =>
      simp only [step, Option.ite_none_left_eq_some] at hstep
      have hreq := hi.reqTimer
      have hcomplete := hi.completeTimer
      cases id with
      | blockReq => exact absurd (by rw [OadState.timer, hreq]; rfl) hstep.1
      | complete => exact absurd (by rw [OadState.timer, hcomplete]; rfl) hstep.1

theorem run_barren {dev : Device} {mem : Store} {as : List OadAct}
    (hopened : Meets (step dev)
      (OpenedBy dev fun info => totalBlocksOf info = 0) (.boot mem []) as)
    (hrun : run (step dev) (.boot mem []) as = some s) :
    s.flash.imgWrites = [] := by
  have hboot : Barren (.boot mem []) :=
    ⟨rfl, fun e he => (List.not_mem_nil he).elim, rfl, rfl, rfl, rfl⟩
  exact (run_invariant Barren (fun s a t hi hok => barren_step hi hok)
    hboot hopened hrun).writes

/-! ## Blocks that do not fit are written out of bounds -/

/-- A response with a full block, for the given block number. -/
def fullRsp (blockLen n : Nat) : CoapHdr where
  msgCode := .other
  uriPath := []
  payloadLen := (blockLen + 3) % 2 ^ 16
  payloadPtr := ofList (0 :: bytes16 n)
  payloadLen_lt := Nat.mod_lt _ (by decide)

/-- A transfer of `info` is at block `k`, with the given events waiting. -/
structure AtBlock (info : OadNotifReqMsg) (k : Nat) (q : List OadEvt)
    (s : OadState) : Prop where
  queue : s.queue = q
  info_eq : s.handle.oadNotifReqInfo = info
  total : s.handle.totalBlocks = totalBlocksOf info
  curr : s.handle.currBlockNum = k
  buffer : s.handle.oadCurrBlock.data.isSome = true
  isOpen : s.flash.isOpen = true
  external : s.flash.useExternalFlash = true

/-- The conditions on the environment of transfers of `info`. -/
def Carries (dev : Device) (info : OadNotifReqMsg) (s : OadState) (a : OadAct) :
    Prop :=
  OpenedBy dev (fun info' => info' = info) s a ∧ NoOverlong s a

variable (dev : Device) {info : OadNotifReqMsg} {k : Nat}

theorem rspDataLen_fullRsp {blockLen n : Nat} (h : blockLen < 2 ^ 16) :
    rspDataLen (fullRsp blockLen n) = blockLen := by
  simp only [rspDataLen, fullRsp]
  omega

theorem le16_fullRsp {blockLen n : Nat} (h : n < 2 ^ 16) :
    le16 (fullRsp blockLen n).payloadPtr 1 = n :=
  le16_bytes16 h rfl

/-- The request is sent. -/
theorem AtBlock.ask (h : AtBlock info k [.blockReq] s) :
    ∃ t, step dev s (.event .ok) = some t ∧ AtBlock info k [] t ∧
      t.handle.blockReqInProgress = true := by
  refine ⟨oadBlockReqEvt { s with queue := [] }, ?_, ?_, rfl⟩
  · simp only [step, h.queue, oadTasklet]
  · exact { h with queue := rfl }

/-- A full block comes in. -/
theorem AtBlock.receive (hword : info.blockLen < 2 ^ 16) (hk : k < 2 ^ 16)
    (h : AtBlock info k [] s) (hprog : s.handle.blockReqInProgress = true) :
    AcceptsRsp s (fullRsp info.blockLen k) ∧
      ∃ t, step dev s (.imgRsp (fullRsp info.blockLen k)) = some t ∧
        AtBlock info k [.blockRecv] t ∧
        t.handle.oadCurrBlock.dataLen = info.blockLen := by
  obtain ⟨buf, hbuf⟩ := Option.isSome_iff_exists.mp h.buffer
  have hacc : AcceptsRsp s (fullRsp info.blockLen k) := by
    refine ⟨⟨hprog, ?_⟩, ?_⟩
    · rw [le16_fullRsp hk]
      exact h.curr
    · rw [rspDataLen_fullRsp hword, h.info_eq]
  have hstep := congrArg (Option.map Prod.fst) (oadImgRspCb_accepts hacc hbuf)
  refine ⟨hacc, _, hstep, ?_, rspDataLen_fullRsp hword⟩
  exact { h with
    queue := congrArg (· ++ [OadEvt.blockRecv]) h.queue
    buffer := rfl }

/-- The full block is written, and the next one is due unless it was the
last. -/
theorem AtBlock.write (h : AtBlock info k [.blockRecv] s)
    (hlen : s.handle.oadCurrBlock.dataLen = info.blockLen) :
    ∃ t, step dev s (.event .ok) = some t ∧
      (∃ w ∈ t.flash.imgWrites, w.addr = imgBlockAddr true k info.blockLen ∧
        w.data.length = info.blockLen) ∧
      (k + 1 < totalBlocksOf info → AtBlock info (k + 1) [.blockReq] t) := by
  have hlt := totalBlocksOf_lt info
  obtain ⟨s', hs'⟩ : ∃ s', s' = { s with queue := [] } := ⟨_, rfl⟩
  have hstep : step dev s (.event .ok) = some (oadBlockRecvEvt .ok s') := by
    simp only [step, h.queue, oadTasklet, hs']
  have hopen : s'.flash.isOpen = true := hs' ▸ h.isOpen
  obtain ⟨flash, hwrite, hlog, hopen', hext⟩ : ∃ flash,
      s'.writeCurrBlock TaskletEnv.ok.nvsBlock = (flash, .success) ∧
      (∃ w ∈ flash.imgWrites, w.addr = imgBlockAddr true k info.blockLen ∧
        w.data.length = info.blockLen) ∧
      flash.isOpen = true ∧ flash.useExternalFlash = true := by
    rw [OadState.writeCurrBlock, imgBlockWrite_open hopen]
    subst hs'
    refine ⟨_, rfl, ⟨_, List.mem_append_right _ (List.mem_singleton.mpr rfl),
      ?_, ?_⟩, h.isOpen, h.external⟩
    · simp only [h.external, h.curr, h.info_eq]
    · simp only [length_bytes, hlen]
  refine ⟨_, hstep, ?_, ?_⟩
  · rw [(oadBlockRecvEvt_flash .ok s').1, hwrite]
    exact hlog
  · intro hmore
    have hnum : (k + 1) % 2 ^ 16 = k + 1 := Nat.mod_eq_of_lt (by omega)
    have hcurr : s'.handle.currBlockNum = k := hs' ▸ h.curr
    have htotal : s'.handle.totalBlocks = totalBlocksOf info := hs' ▸ h.total
    rcases oadBlockRecvEvt_cases .ok s' with ⟨flash', hfail, _⟩ |
        ⟨flash', hwrite', ⟨hlast, _⟩ | ⟨hlast, _⟩ | ⟨_, heq⟩⟩
    · cases hwrite.symm.trans hfail
    · omega
    · omega
    · cases hwrite.symm.trans hwrite'
      rw [heq]
      subst hs'
      exact
        { queue := rfl
          info_eq := h.info_eq
          total := h.total
          curr := by
            rw [← hnum, ← hcurr]
            rfl
          buffer := h.buffer
          isOpen := hopen'
          external := hext }

/-- The actions by which one block is asked for, received in full and
written. -/
def fullBlock (info : OadNotifReqMsg) (k : Nat) : List OadAct :=
  [.event .ok, .imgRsp (fullRsp info.blockLen k), .event .ok]

/-- One block of the transfer. -/
theorem AtBlock.fullBlock (hword : info.blockLen < 2 ^ 16)
    (hk : k < totalBlocksOf info) (h : AtBlock info k [.blockReq] s) :
    ∃ t, run (step dev) s (fullBlock info k) = some t ∧
      Meets (step dev) (Carries dev info) s (fullBlock info k) ∧
      (∃ w ∈ t.flash.imgWrites, w.addr = imgBlockAddr true k info.blockLen ∧
        w.data.length = info.blockLen) ∧
      (k + 1 < totalBlocksOf info → AtBlock info (k + 1) [.blockReq] t) := by
  have hlt := totalBlocksOf_lt info
  obtain ⟨s₁, hstep₁, h₁, hprog⟩ := h.ask dev
  obtain ⟨hacc, s₂, hstep₂, h₂, hlen⟩ :=
    h₁.receive dev hword (by omega) hprog
  obtain ⟨s₃, hstep₃, hlog, hnext⟩ := h₂.write dev hlen
  refine ⟨s₃, ?_, ?_, hlog, hnext⟩
  · simp only [Oad.fullBlock, run, hstep₁, hstep₂, hstep₃, Option.bind_some]
  · refine ⟨⟨trivial, trivial⟩, fun t ht => ?_⟩
    cases hstep₁.symm.trans ht
    refine ⟨⟨trivial, fun _ => hacc⟩, fun t ht => ?_⟩
    cases hstep₂.symm.trans ht
    exact ⟨⟨trivial, trivial⟩, fun _ _ => trivial⟩

/-- The first blocks of a transfer, all full. -/
theorem AtBlock.fullBlocks (hword : info.blockLen < 2 ^ 16)
    (hk : k < totalBlocksOf info) (h : AtBlock info 0 [.blockReq] s) :
    ∃ as t, run (step dev) s as = some t ∧
      Meets (step dev) (Carries dev info) s as ∧ AtBlock info k [.blockReq] t := by
  induction k with
  | zero => exact ⟨[], s, rfl, trivial, h⟩
  | succ k ih =>
      obtain ⟨as, t, hrun, hmeets, ht⟩ := ih (by omega)
      obtain ⟨t', hrun', hmeets', _, hnext⟩ :=
        ht.fullBlock dev hword (by omega)
      refine ⟨as ++ Oad.fullBlock info k, t', run_trans hrun hrun', ?_, hnext hk⟩
      refine meets_append.mpr ⟨hmeets, fun m hm => ?_⟩
      cases hrun.symm.trans hm
      exact hmeets'

/-- A notification with the given payload. -/
def notifWith (payload : Store) : CoapHdr where
  msgCode := .requestPut
  uriPath := oadNotifUri
  payloadLen := OadNotifReqMsg.size
  payloadPtr := payload
  payloadLen_lt := by decide

/-- An acceptable notification of at least one block opens its transfer. -/
theorem atBlock_opened {payload : Store} (mem : Store)
    (hacc : ntfAccepted dev (.ofBytes payload) = true)
    (htotal : totalBlocksOf (.ofBytes payload) ≠ 0) :
    ∃ s, step dev (.boot mem []) (.request .ok [] (notifWith payload)) = some s ∧
      AtBlock (.ofBytes payload) 0 [.blockReq] s := by
  have hstore : StoresInfo (.boot mem []) (notifWith payload) :=
    ⟨rfl, rfl, rfl, rfl⟩
  have hopens : OpensTransfer dev .ok (.boot mem []) (notifWith payload) :=
    ⟨hstore, hacc, rfl⟩
  rcases coapOadCb_cases dev .ok [] (notifWith payload) (.boot mem []) with
    ⟨hno, _⟩ | ⟨_, hno, _⟩ | ⟨_, heq⟩
  · exact absurd hstore hno
  · exact absurd hopens hno
  · refine ⟨_, congrArg some heq, ?_⟩
    obtain ⟨hopen, hext, _⟩ := eraseResult_frame .ok
      ((OadState.boot mem []).accepted (notifWith payload))
    rcases startTransfer_cases .ok []
        ((OadState.boot mem []).accepted (notifWith payload)) with
      ⟨_, ⟨hmalloc, _⟩ | ⟨hzero, _⟩, _⟩ | ⟨_, _, evt, ⟨_, hfail⟩ | rfl, heq⟩
    · cases hmalloc
    · exact absurd hzero htotal
    · exact absurd (erasePages_ok (fun _ => rfl) rfl) hfail
    · rw [heq]
      exact
        { queue := rfl
          info_eq := rfl
          total := rfl
          curr := rfl
          buffer := rfl
          isOpen := hopen
          external := hext }

/-- **A block too far.**  A transfer that does not fit reaches a block whose
write covers the start of the boot magic. -/
theorem exists_write_not_inBounds (payload mem : Store)
    (hacc : ntfAccepted dev (.ofBytes payload) = true)
    (hfits : ¬Fits (.ofBytes payload)) :
    ∃ as s, run (step dev) (.boot mem []) as = some s ∧
      Meets (step dev) (Carries dev (.ofBytes payload)) (.boot mem []) as ∧
      ∃ w ∈ s.flash.imgWrites, ¬InBounds w := by
  obtain ⟨info, hinfo⟩ : ∃ info, info = OadNotifReqMsg.ofBytes payload := ⟨_, rfl⟩
  rw [← hinfo] at hacc hfits ⊢
  have hword : info.blockLen < 2 ^ 16 := hinfo ▸ le16_lt payload 2
  obtain ⟨limit, hlimit⟩ : ∃ limit, limit = imageMaxSize - bootImgMagicSize :=
    ⟨_, rfl⟩
  have hmax : limit < 2 ^ 20 := by
    rw [hlimit]
    decide
  rw [Fits, ← totalBlocksOf_eq, ← hlimit, Nat.not_le] at hfits
  have hpos : 0 < info.blockLen := by
    by_contra hzero
    simp [show info.blockLen = 0 by omega] at hfits
  -- the block in which the limit lies
  obtain ⟨n, hn⟩ : ∃ n, n = limit / info.blockLen := ⟨_, rfl⟩
  have hbelow : n * info.blockLen ≤ limit := hn ▸ Nat.div_mul_le_self _ _
  have habove : limit < n * info.blockLen + info.blockLen := by
    rw [hn]
    exact Nat.lt_div_mul_add hpos
  have hlt : n < totalBlocksOf info :=
    Nat.lt_of_mul_lt_mul_right (lt_of_le_of_lt hbelow hfits)
  obtain ⟨s₀, hstep₀, hat⟩ := atBlock_opened dev mem (hinfo ▸ hacc)
    (hinfo ▸ (by omega : totalBlocksOf info ≠ 0))
  rw [← hinfo] at hat
  obtain ⟨as, s₁, hrun₁, hmeets₁, hat₁⟩ := hat.fullBlocks dev hword hlt
  obtain ⟨s₂, hrun₂, hmeets₂, ⟨w, hw, haddr, hlen⟩, _⟩ :=
    hat₁.fullBlock dev hword hlt
  refine ⟨.request .ok [] (notifWith payload) :: (as ++ fullBlock info n), s₂,
    run_cons_iff.mpr ⟨s₀, hstep₀, run_trans hrun₁ hrun₂⟩, ?_, w, hw, ?_⟩
  · refine ⟨⟨fun _ => hinfo.symm, trivial⟩, fun m hm => ?_⟩
    cases hstep₀.symm.trans hm
    refine meets_append.mpr ⟨hmeets₁, fun m hm => ?_⟩
    cases hrun₁.symm.trans hm
    exact hmeets₂
  · intro hin
    have hstart : w.addr = n * info.blockLen := by
      rw [haddr, imgBlockAddr_ext, Nat.mul_comm]
      rw [Nat.mul_comm]
      omega
    have hcover : limit ∈ w.range := by
      simp only [ImgWrite.range, Finset.mem_Ico]
      omega
    refine Finset.disjoint_left.mp hin.offMagic hcover ?_
    rw [hlimit]
    decide

/-! ## The exact condition -/

/-- All writes of all runs are in bounds in which transfers are opened by the
given notification, and no response is turned down for its length. -/
def AllInBounds (dev : Device) (info : OadNotifReqMsg) : Prop :=
  ∀ (mem : Store) (as : List OadAct) (s : OadState),
    Meets (step dev) (Carries dev info) (.boot mem []) as →
    run (step dev) (.boot mem []) as = some s →
    ∀ w ∈ s.flash.imgWrites, InBounds w

/-- A notification of an image as long as the image area, in pages. -/
def areaNotif : CoapHdr :=
  .ofBytes .requestPut oadNotifUri
    [123, 26, 0x00, 0x10, 0x00, 0x80, 0x0A, 0x00, 2, 0, 0, 0, 0, 0, 0, 0]

end Oad
