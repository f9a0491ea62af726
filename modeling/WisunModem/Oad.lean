import WisunModem.Runs
import WisunModem.OadStorage

/-!
# The OAD client

`oad.c`: the CoAP callbacks, the tasklet and what they share.  One action is
one call of a callback, one tasklet event or one timer running out; callbacks
and tasklet events run in one thread, so each is atomic.

The event scheduler, the CoAP service, `malloc` and the NVS driver are not part
of the repository.  Their answers are arguments of the actions.  The tasklet's
own events are delivered oldest first; timer events have another priority, and
nothing is assumed about which of the two is delivered first.  The state is the
one after `OAD_INIT_EVT`, which is delivered before the CoAP URIs are
registered.
-/

namespace Oad

open ByteStore

/-! ## Messages -/

def maxBlockReqRetryCount : Nat := 120
def oadImgId : Nat := 123
def oadCompleteFlag : Nat := 0xFFFF
def imageMaxSize : Nat := 0xA8000
def bootImgMagic : List Nat := [0xf395c277, 0x7fefd260, 0x0f505235, 0x8079b62c]

/-- `sizeof(boot_img_magic)`. -/
def bootImgMagicSize : Nat := 4 * bootImgMagic.length

def oadFwvReqUri : List Char := ['o', 'a', 'd', '/', 'f', 'w', 'v']
def oadNotifUri : List Char := ['o', 'a', 'd', '/', 'n', 't', 'f']

structure McubootImageVersion where
  ivMajor : Nat
  ivMinor : Nat
  ivRevision : Nat
  ivBuildNum : Nat
  deriving DecidableEq, Repr

structure OadNotifReqMsg where
  imgId : Nat
  platformType : Nat
  blockLen : Nat
  imageLen : Nat
  imageVersion : McubootImageVersion
  deriving DecidableEq, Repr

/-- `sizeof(oad_notif_req_msg_t)`, a packed structure. -/
def OadNotifReqMsg.size : Nat := 16

/-- The packed structure at the start of a payload. -/
def OadNotifReqMsg.ofBytes (m : Store) : OadNotifReqMsg where
  imgId := (m 0).toNat
  platformType := (m 1).toNat
  blockLen := le16 m 2
  imageLen := le32 m 4
  imageVersion :=
    { ivMajor := (m 8).toNat
      ivMinor := (m 9).toNat
      ivRevision := le16 m 10
      ivBuildNum := le32 m 12 }

structure OadBlockReqMsg where
  imgId : Nat
  blockNum : Nat
  totalBlocks : Nat
  deriving DecidableEq, Repr

/-- The packed structure as it is sent. -/
def OadBlockReqMsg.toBytes (msg : OadBlockReqMsg) : List UInt8 :=
  UInt8.ofNat msg.imgId :: bytes16 msg.blockNum ++ bytes16 msg.totalBlocks

inductive CoapMsgCode
  | requestGet
  | requestPost
  | requestPut
  | other
  deriving DecidableEq, Repr

/-- The part of `sn_coap_hdr_s` the callbacks read.  The payload pointer is a
view of memory, which goes on past the payload. -/
structure CoapHdr where
  msgCode : CoapMsgCode
  uriPath : List Char
  payloadLen : Nat
  payloadPtr : Store
  payloadLen_lt : payloadLen < 2 ^ 16

/-- A message with the given payload, in memory that reads zero behind it. -/
def CoapHdr.ofBytes (msgCode : CoapMsgCode) (uriPath : List Char)
    (payload : List UInt8) : CoapHdr where
  msgCode := msgCode
  uriPath := uriPath
  payloadLen := payload.length % 2 ^ 16
  payloadPtr := ofList payload
  payloadLen_lt := Nat.mod_lt _ (by decide)

/-- What the client sends, and the reset that ends its run. -/
inductive OadOut
  | fwvRsp (imgId platformType : Nat) (imageVersion : McubootImageVersion)
  | badRequest
  | notifRsp (imgId status : Nat) (sent : Bool)
  | blockReq (msg : OadBlockReqMsg)
  | completeReq (imgId blockNum : Nat)
  | abortMsg
  | reset
  deriving DecidableEq, Repr

/-! ## State -/

/-- `oad_evt_t` without the two timeouts, which only timers deliver. -/
inductive OadEvt
  | init
  | blockReq
  | blockRecv
  | complete
  | abort
  | blockReqTimeout
  | completeTimeout
  deriving DecidableEq, Repr

structure OadBlockRspMsg where
  imgId : Nat
  blockNum : Nat
  data : Option Store
  dataLen : Nat

structure OadHandle where
  currBlockNum : Nat
  totalBlocks : Nat
  currBytesRecv : Nat
  oadInProgress : Bool
  blockReqInProgress : Bool
  blockReqRetryCount : Nat
  oadNotifReqInfo : OadNotifReqMsg
  oadSourceAddress : List UInt8
  oadCurrBlock : OadBlockRspMsg

/-- `memset((void*)&oad_handle, 0, sizeof(oad_handle))`. -/
def OadHandle.zero : OadHandle where
  currBlockNum := 0
  totalBlocks := 0
  currBytesRecv := 0
  oadInProgress := false
  blockReqInProgress := false
  blockReqRetryCount := 0
  oadNotifReqInfo :=
    { imgId := 0, platformType := 0, blockLen := 0, imageLen := 0
      imageVersion :=
        { ivMajor := 0, ivMinor := 0, ivRevision := 0, ivBuildNum := 0 } }
  oadSourceAddress := List.replicate 16 0
  oadCurrBlock := { imgId := 0, blockNum := 0, data := none, dataLen := 0 }

/-- The timers of one identifier: how many run, and how many timer events of
theirs wait for delivery. -/
structure Timer where
  pending : Nat
  queued : Nat
  deriving DecidableEq, Repr

def Timer.idle : Timer := { pending := 0, queued := 0 }

/-- `eventOS_event_timer_request`. -/
def Timer.request (t : Timer) : Timer := { t with pending := t.pending + 1 }

/-- `eventOS_event_timer_cancel`: the pending timer and its queued event go. -/
def Timer.cancel (t : Timer) : Timer :=
  { pending := t.pending - 1, queued := t.queued - 1 }

/-- `OAD_BLOCK_REQ_TIMEOUT_ID` and `OAD_COMPLETE_TIMEOUT_ID`. -/
inductive OadTimerId
  | blockReq
  | complete
  deriving DecidableEq, Repr

/-- The client with its event queue, oldest event first, and its timers.  `out`
is everything sent since the start; `completeReqSent` says that a complete
request is out, whose response the CoAP service would deliver. -/
structure OadState where
  handle : OadHandle
  queue : List OadEvt
  reqTimer : Timer
  completeTimer : Timer
  completeReqSent : Bool
  flash : Flash
  out : List OadOut

/-- What the device is: chip type and version of the running image. -/
structure Device where
  chipType : Nat
  mcubootVersion : McubootImageVersion
  deriving DecidableEq, Repr

def OadState.emit (o : OadOut) (s : OadState) : OadState :=
  { s with out := s.out ++ [o] }

/-- `oad_update`. -/
def oadUpdate (eventType : OadEvt) (s : OadState) : OadState :=
  { s with queue := s.queue ++ [eventType] }

/-- The client after `OAD_INIT_EVT`, over a flash with the given contents. -/
def OadState.boot (mem : Store) (out : List OadOut) : OadState where
  handle := OadHandle.zero
  queue := []
  reqTimer := Timer.idle
  completeTimer := Timer.idle
  completeReqSent := false
  flash := { isOpen := false, useExternalFlash := false, mem, imgWrites := [] }
  out := out

/-- `SysCtrlSystemReset`: all RAM is lost, the flash keeps its contents. -/
def sysCtrlSystemReset (s : OadState) : OadState :=
  OadState.boot s.flash.mem (s.out ++ [.reset])

/-! ## Notifications -/

/-- Compare image version numbers, not including the build number. -/
def mcubootVersionCmp (ver1 ver2 : McubootImageVersion) : Int :=
  if ver1.ivMajor > ver2.ivMajor then 1
  else if ver1.ivMajor < ver2.ivMajor then -1
  else if ver1.ivMinor > ver2.ivMinor then 1
  else if ver1.ivMinor < ver2.ivMinor then -1
  else if ver1.ivRevision > ver2.ivRevision then 1
  else if ver1.ivRevision < ver2.ivRevision then -1
  else 0

/-- `memcmp(request_ptr->uri_path_ptr, uri, request_ptr->uri_path_len) == 0`:
only the length of the request's path is compared. -/
def uriMatches (request : CoapHdr) (uri : List Char) : Bool :=
  request.uriPath.isPrefixOf (uri ++ [Char.ofNat 0])

def isFwvRequest (request : CoapHdr) : Bool :=
  uriMatches request oadFwvReqUri && request.msgCode == .requestGet

def isNotifRequest (request : CoapHdr) : Bool :=
  uriMatches request oadNotifUri &&
    (request.msgCode == .requestPut || request.msgCode == .requestPost)

/-- The three checks on a notification. -/
def ntfAccepted (dev : Device) (info : OadNotifReqMsg) : Bool :=
  if info.imgId ≠ oadImgId then false
  else if info.platformType ≠ dev.chipType then false
  else if mcubootVersionCmp info.imageVersion dev.mcubootVersion ≤ 0 then false
  else true

/-- The number of blocks, rounded up; each assignment is to sixteen bits.
Dividing by a block length of zero gives zero, as the core's `UDIV` does. -/
def totalBlocksOf (info : OadNotifReqMsg) : Nat :=
  let total := info.imageLen / info.blockLen % 2 ^ 16
  if info.imageLen % info.blockLen ≠ 0 then (total + 1) % 2 ^ 16 else total

/-- The block count is the number of blocks, cut to sixteen bits. -/
theorem totalBlocksOf_eq (info : OadNotifReqMsg) :
    totalBlocksOf info =
      blockCount info.imageLen info.blockLen % 2 ^ 16 := by
  by_cases hrest : info.imageLen % info.blockLen = 0
  · simp [totalBlocksOf, blockCount, hrest]
  · simp only [totalBlocksOf, blockCount, ne_eq, hrest, not_false_eq_true,
      if_true]
    omega

theorem totalBlocksOf_le (info : OadNotifReqMsg) :
    totalBlocksOf info ≤ blockCount info.imageLen info.blockLen := by
  rw [totalBlocksOf_eq]
  exact Nat.mod_le _ _

theorem totalBlocksOf_lt (info : OadNotifReqMsg) :
    totalBlocksOf info < 2 ^ 16 := by
  rw [totalBlocksOf_eq]
  exact Nat.mod_lt _ (by decide)

/-- The environment of one notification: the status of the response, the
memory `malloc` gives, and the flash driver. -/
structure NotifEnv where
  ret : Nat
  malloc : Option Store
  nvsOpen : Bool
  nvsErase : Nat → NvsStatus

/-- Everything the environment is asked for succeeds. -/
def NotifEnv.ok : NotifEnv where
  ret := 0
  malloc := some fun _ => 0
  nvsOpen := true
  nvsErase := fun _ => .success

/-- The handle when a transfer starts: the tracking variables are reset, the
notification request info and the length of the current block are not. -/
def OadHandle.restart (sourceAddress : List UInt8) (data : Option Store)
    (h : OadHandle) : OadHandle :=
  { h with
    oadSourceAddress := sourceAddress
    oadInProgress := true
    blockReqInProgress := false
    currBlockNum := 0
    currBytesRecv := 0
    blockReqRetryCount := 0
    oadCurrBlock := { h.oadCurrBlock with data := data } }

/-- The part of `coap_oad_cb` behind an acceptance that was sent. -/
def startTransfer (env : NotifEnv) (sourceAddress : List UInt8)
    (s : OadState) : OadState × Int :=
  let h := s.handle.restart sourceAddress env.malloc
  if env.malloc.isNone then
    (oadUpdate .abort { s with handle := h }, -1)
  else
    let h := { h with totalBlocks := totalBlocksOf h.oadNotifReqInfo }
    if h.totalBlocks = 0 then
      (oadUpdate .abort { s with handle := h }, -1)
    else
      let (flash, ret) := oadStorageEraseImg env.nvsErase imageMaxSize
        (oadStorageInit env.nvsOpen s.flash)
      if ret ≠ .success then
        (oadUpdate .abort { s with handle := h, flash }, -1)
      else
        (oadUpdate .blockReq { s with handle := h, flash }, 0)

/-- `oad_handle.oad_notif_req_info` is overwritten before it is checked. -/
def OadState.setNotifReqInfo (info : OadNotifReqMsg) (s : OadState) : OadState :=
  { s with handle := { s.handle with oadNotifReqInfo := info } }

def coapOadCb (dev : Device) (env : NotifEnv) (sourceAddress : List UInt8)
    (request : CoapHdr) (s : OadState) : OadState × Int :=
  if isFwvRequest request then
    (s.emit (.fwvRsp oadImgId dev.chipType dev.mcubootVersion), 0)
  else if !s.handle.oadInProgress && isNotifRequest request then
    if request.payloadLen ≠ OadNotifReqMsg.size then
      (s.emit .badRequest, 0)
    else
      let info := OadNotifReqMsg.ofBytes request.payloadPtr
      let s := s.setNotifReqInfo info
      if ntfAccepted dev info then
        let s := s.emit (.notifRsp info.imgId 1 (env.ret == 0))
        if env.ret = 0 then startTransfer env sourceAddress s else (s, 0)
      else
        (s.emit (.notifRsp info.imgId 0 (env.ret == 0)), 0)
  else
    (s, 0)

/-! ## Block responses -/

/-- `payload_len - sizeof(img_id) - sizeof(block_num)`, in sixteen bits. -/
def rspDataLen (response : CoapHdr) : Nat :=
  (response.payloadLen + 2 ^ 16 - 3) % 2 ^ 16

/-- `none` is a copy to the null pointer. -/
def memcpyBlock (data : Option Store) (len : Nat) (src : Store) :
    Option (Option Store) :=
  match data with
  | some buf => some (some (blit buf 0 len src))
  | none => if len = 0 then some none else none

def OadState.setCurrBlock (block : OadBlockRspMsg) (s : OadState) : OadState :=
  { s with handle := { s.handle with oadCurrBlock := block } }

/-- The block number is stored before it is compared, and the length before it
is checked. -/
def oadImgRspCb (response : CoapHdr) (s : OadState) : Option (OadState × Int) :=
  let h := s.handle
  if h.blockReqInProgress then
    let block :=
      { h.oadCurrBlock with
        imgId := (response.payloadPtr 0).toNat
        blockNum := le16 response.payloadPtr 1 }
    if h.currBlockNum ≠ block.blockNum then
      some (s.setCurrBlock block, -1)
    else
      let block := { block with dataLen := rspDataLen response }
      if block.dataLen > h.oadNotifReqInfo.blockLen then
        some (s.setCurrBlock block, -1)
      else
        (memcpyBlock block.data block.dataLen
            fun i => response.payloadPtr (3 + i)).map fun data =>
          (oadUpdate .blockRecv (s.setCurrBlock { block with data }), 0)
  else
    some (s, -1)

/-- Cancels the complete timer and resets, which makes the cancel moot. -/
def oadCompleteRspCb (s : OadState) : OadState :=
  sysCtrlSystemReset { s with completeTimer := s.completeTimer.cancel }

/-! ## The tasklet -/

/-- The flash driver's answers to the writes of one event. -/
structure TaskletEnv where
  nvsBlock : NvsStatus
  nvsMagic : NvsStatus

/-- Every write succeeds. -/
def TaskletEnv.ok : TaskletEnv where
  nvsBlock := .success
  nvsMagic := .success

def oadBlockReqEvt (s : OadState) : OadState :=
  let s := { s with handle := { s.handle with blockReqInProgress := true } }
  let s := s.emit (.blockReq
    { imgId := s.handle.oadNotifReqInfo.imgId
      blockNum := s.handle.currBlockNum
      totalBlocks := s.handle.totalBlocks })
  { s with reqTimer := s.reqTimer.request }

/-- All bytes of the image are in: write the magic number, close the flash and
go on to the complete message. -/
def oadImageDone (env : TaskletEnv) (s : OadState) : OadState :=
  if s.handle.oadNotifReqInfo.imageLen ≤ imageMaxSize - bootImgMagicSize then
    match oadStorageWrite env.nvsMagic (imageMaxSize - bootImgMagicSize)
        (ofList (bootImgMagic.flatMap bytes32)) bootImgMagicSize s.flash with
    | (flash, .flashError) => oadUpdate .abort { s with flash }
    | (flash, .success) =>
        oadUpdate .complete { s with flash := oadStorageClose flash }
  else
    oadUpdate .complete { s with flash := oadStorageClose s.flash }

def oadBlockRecvEvt (env : TaskletEnv) (s : OadState) : OadState :=
  let h := { s.handle with blockReqInProgress := false, blockReqRetryCount := 0 }
  let s := { s with handle := h, reqTimer := s.reqTimer.cancel }
  match oadStorageImgBlockWrite env.nvsBlock h.currBlockNum
      h.oadNotifReqInfo.blockLen (h.oadCurrBlock.data.getD fun _ => 0)
      h.oadCurrBlock.dataLen s.flash with
  | (flash, .flashError) => oadUpdate .abort { s with flash }
  | (flash, .success) =>
      let recv := (h.currBytesRecv + h.oadCurrBlock.dataLen) % 2 ^ 32
      let h := { h with currBytesRecv := recv }
      let s := { s with handle := h, flash }
      if h.currBlockNum + 1 = h.totalBlocks then
        if h.currBytesRecv = h.oadNotifReqInfo.imageLen then
          oadImageDone env s
        else
          oadUpdate .abort s
      else
        oadUpdate .blockReq
          { s with
            handle := { h with currBlockNum := (h.currBlockNum + 1) % 2 ^ 16 } }

def oadCompleteEvt (s : OadState) : OadState :=
  let s := s.emit (.completeReq s.handle.oadNotifReqInfo.imgId oadCompleteFlag)
  { s with completeTimer := s.completeTimer.request, completeReqSent := true }

def oadAbortEvt (s : OadState) : OadState :=
  { s.emit .abortMsg with handle := OadHandle.zero }

def oadBlockReqTimeoutEvt (s : OadState) : OadState :=
  let h := s.handle
  if h.blockReqRetryCount < maxBlockReqRetryCount then
    oadUpdate .blockReq
      { s with
        handle :=
          { h with blockReqRetryCount := (h.blockReqRetryCount + 1) % 2 ^ 8 } }
  else
    oadUpdate .abort s

def oadTasklet (env : TaskletEnv) : OadEvt → OadState → OadState
  | .init, s => { s with handle := OadHandle.zero }
  | .blockReq, s => oadBlockReqEvt s
  | .blockRecv, s => oadBlockRecvEvt env s
  | .complete, s => oadCompleteEvt s
  | .abort, s => oadAbortEvt s
  | .blockReqTimeout, s => oadBlockReqTimeoutEvt s
  | .completeTimeout, s =>
      sysCtrlSystemReset { s with completeTimer := s.completeTimer.cancel }

/-! ## The machine -/

/-- One action: a callback of the CoAP service, the oldest event of the
tasklet, a timer running out, or a timer event. -/
inductive OadAct
  | request (env : NotifEnv) (sourceAddress : List UInt8) (hdr : CoapHdr)
  | imgRsp (hdr : CoapHdr)
  | completeRsp
  | event (env : TaskletEnv)
  | expire (id : OadTimerId)
  | timerEvent (env : TaskletEnv) (id : OadTimerId)

def OadState.timer (s : OadState) : OadTimerId → Timer
  | .blockReq => s.reqTimer
  | .complete => s.completeTimer

def OadState.setTimer (s : OadState) (t : Timer) : OadTimerId → OadState
  | .blockReq => { s with reqTimer := t }
  | .complete => { s with completeTimer := t }

/-- The event type a timer was requested with. -/
def OadTimerId.timeoutEvt : OadTimerId → OadEvt
  | .blockReq => .blockReqTimeout
  | .complete => .completeTimeout

def step (dev : Device) (s : OadState) : OadAct → Option OadState
  | .request env sourceAddress hdr =>
      some (coapOadCb dev env sourceAddress hdr s).1
  | .imgRsp hdr => (oadImgRspCb hdr s).map Prod.fst
  | .completeRsp =>
      if s.completeReqSent then some (oadCompleteRspCb s) else none
  | .event env =>
      match s.queue with
      | [] => none
      | e :: rest => some (oadTasklet env e { s with queue := rest })
  | .expire id =>
      let t := s.timer id
      if t.pending = 0 then none
      else
        some (s.setTimer { pending := t.pending - 1, queued := t.queued + 1 } id)
  | .timerEvent env id =>
      let t := s.timer id
      if t.queued = 0 then none
      else
        some (oadTasklet env id.timeoutEvt
          (s.setTimer { t with queued := t.queued - 1 } id))

/-! ## What the callbacks can do -/

/-- A notification of the right size outside a transfer: its request info is
stored, whatever comes of it. -/
def StoresInfo (s : OadState) (request : CoapHdr) : Prop :=
  isFwvRequest request = false ∧ s.handle.oadInProgress = false ∧
    isNotifRequest request = true ∧ request.payloadLen = OadNotifReqMsg.size

instance (s : OadState) (request : CoapHdr) : Decidable (StoresInfo s request) :=
  inferInstanceAs (Decidable (_ ∧ _))

/-- The notification is accepted and the acceptance could be sent. -/
def OpensTransfer (dev : Device) (env : NotifEnv) (s : OadState)
    (request : CoapHdr) : Prop :=
  StoresInfo s request ∧
    ntfAccepted dev (OadNotifReqMsg.ofBytes request.payloadPtr) = true ∧
    env.ret = 0

instance (dev : Device) (env : NotifEnv) (s : OadState) (request : CoapHdr) :
    Decidable (OpensTransfer dev env s request) :=
  inferInstanceAs (Decidable (_ ∧ _))

/-- The state in which an accepted notification starts its transfer. -/
def OadState.accepted (request : CoapHdr) (s : OadState) : OadState :=
  (s.setNotifReqInfo (OadNotifReqMsg.ofBytes request.payloadPtr)).emit
    (.notifRsp (OadNotifReqMsg.ofBytes request.payloadPtr).imgId 1 true)

/-- The three things a request can do. -/
theorem coapOadCb_cases (dev : Device) (env : NotifEnv)
    (sourceAddress : List UInt8) (request : CoapHdr) (s : OadState) :
    (¬StoresInfo s request ∧
      ((coapOadCb dev env sourceAddress request s).1 = s ∨
        ∃ o, (o = .badRequest ∨
            o = .fwvRsp oadImgId dev.chipType dev.mcubootVersion) ∧
          (coapOadCb dev env sourceAddress request s).1 = s.emit o)) ∨
    (StoresInfo s request ∧ ¬OpensTransfer dev env s request ∧
      ∃ status sent, ¬(status = 1 ∧ sent = true) ∧
        (coapOadCb dev env sourceAddress request s).1 =
          (s.setNotifReqInfo (OadNotifReqMsg.ofBytes request.payloadPtr)).emit
            (.notifRsp (OadNotifReqMsg.ofBytes request.payloadPtr).imgId status
              sent)) ∨
    (OpensTransfer dev env s request ∧
      (coapOadCb dev env sourceAddress request s).1 =
        (startTransfer env sourceAddress (s.accepted request)).1) := by
  by_cases hstore : StoresInfo s request
  · obtain ⟨hfwv, hidle, hnotif, hsize⟩ := hstore
    right
    by_cases hntf : ntfAccepted dev (OadNotifReqMsg.ofBytes request.payloadPtr)
    · by_cases hret : env.ret = 0
      · right
        refine ⟨⟨⟨hfwv, hidle, hnotif, hsize⟩, hntf, hret⟩, ?_⟩
        simp [coapOadCb, hfwv, hidle, hnotif, hsize, hntf, hret,
          OadState.accepted]
      · left
        refine ⟨⟨hfwv, hidle, hnotif, hsize⟩, fun h => hret h.2.2, 1,
          env.ret == 0, by simpa using hret, ?_⟩
        simp [coapOadCb, hfwv, hidle, hnotif, hsize, hntf, hret]
    · left
      refine ⟨⟨hfwv, hidle, hnotif, hsize⟩, fun h => hntf h.2.1, 0,
        env.ret == 0, by simp, ?_⟩
      simp [coapOadCb, hfwv, hidle, hnotif, hsize, hntf]
  · left
    refine ⟨hstore, ?_⟩
    unfold coapOadCb
    by_cases hfwv : isFwvRequest request = true
    · right
      exact ⟨_, .inr rfl, by simp [hfwv]⟩
    · by_cases hcond : (!s.handle.oadInProgress && isNotifRequest request) = true
      · right
        have hsize : request.payloadLen ≠ OadNotifReqMsg.size := by
          intro hsize
          simp only [Bool.and_eq_true, Bool.not_eq_true'] at hcond
          exact hstore ⟨by simpa using hfwv, hcond.1, hcond.2, hsize⟩
        exact ⟨_, .inl rfl, by simp [hfwv, hcond, hsize]⟩
      · left
        simp [hfwv, hcond]

/-- The image area erased for a transfer. -/
def eraseResult (env : NotifEnv) (s : OadState) : Flash × OadStorageStatus :=
  oadStorageEraseImg env.nvsErase imageMaxSize
    (oadStorageInit env.nvsOpen s.flash)

theorem eraseResult_frame (env : NotifEnv) (s : OadState) :
    (eraseResult env s).1.isOpen =
        (oadStorageInit env.nvsOpen s.flash).isOpen ∧
      (eraseResult env s).1.useExternalFlash = true ∧
      (eraseResult env s).1.imgWrites = [] :=
  eraseImg_frame env.nvsErase imageMaxSize (oadStorageInit env.nvsOpen s.flash)

/-- How a transfer starts: either it is aborted before the flash is touched, or
the erase of the image area decides between a block request and an abort. -/
theorem startTransfer_cases (env : NotifEnv) (sourceAddress : List UInt8)
    (s : OadState) :
    (∃ total, (env.malloc = none ∧ total = s.handle.totalBlocks ∨
        totalBlocksOf s.handle.oadNotifReqInfo = 0 ∧ total = 0) ∧
      (startTransfer env sourceAddress s).1 =
        oadUpdate .abort
          { s with
            handle :=
              { s.handle.restart sourceAddress env.malloc with
                totalBlocks := total } }) ∨
    (totalBlocksOf s.handle.oadNotifReqInfo ≠ 0 ∧ env.malloc.isSome ∧
      ∃ evt, (evt = .abort ∧ (eraseResult env s).2 ≠ .success ∨
          evt = .blockReq) ∧
        (startTransfer env sourceAddress s).1 =
          oadUpdate evt
            { s with
              handle :=
                { s.handle.restart sourceAddress env.malloc with
                  totalBlocks := totalBlocksOf s.handle.oadNotifReqInfo }
              flash := (eraseResult env s).1 }) := by
  cases hmalloc : env.malloc with
  | none =>
      left
      exact ⟨s.handle.totalBlocks, .inl ⟨rfl, rfl⟩,
        by simp [startTransfer, hmalloc, OadHandle.restart]⟩
  | some buf =>
      by_cases htotal : totalBlocksOf s.handle.oadNotifReqInfo = 0
      · left
        exact ⟨0, .inr ⟨htotal, rfl⟩,
          by simp [startTransfer, hmalloc, OadHandle.restart, htotal]⟩
      · right
        refine ⟨htotal, rfl, ?_⟩
        by_cases hret : (eraseResult env s).2 = .success
        · refine ⟨.blockReq, .inr rfl, ?_⟩
          unfold eraseResult at hret ⊢
          simp [startTransfer, hmalloc, OadHandle.restart, htotal, hret]
        · refine ⟨.abort, .inl ⟨rfl, hret⟩, ?_⟩
          unfold eraseResult at hret ⊢
          simp [startTransfer, hmalloc, OadHandle.restart, htotal, hret]

/-- The response carries the block asked for, while one is asked for. -/
def RspForCurrent (s : OadState) (response : CoapHdr) : Prop :=
  s.handle.blockReqInProgress = true ∧
    s.handle.currBlockNum = le16 response.payloadPtr 1

instance (s : OadState) (response : CoapHdr) :
    Decidable (RspForCurrent s response) :=
  inferInstanceAs (Decidable (_ ∧ _))

/-- The response is accepted: its data is copied and `OAD_BLOCK_RECV_EVT` is
queued. -/
def AcceptsRsp (s : OadState) (response : CoapHdr) : Prop :=
  RspForCurrent s response ∧
    rspDataLen response ≤ s.handle.oadNotifReqInfo.blockLen

instance (s : OadState) (response : CoapHdr) :
    Decidable (AcceptsRsp s response) :=
  inferInstanceAs (Decidable (_ ∧ _))

/-- The four things a block response can do. -/
theorem oadImgRspCb_cases {response : CoapHdr} {s t : OadState} {ret : Int}
    (h : oadImgRspCb response s = some (t, ret)) :
    (s.handle.blockReqInProgress = false ∧ t = s) ∨
    (s.handle.blockReqInProgress = true ∧ ¬RspForCurrent s response ∧
      ∃ imgId blockNum, t = s.setCurrBlock
        { s.handle.oadCurrBlock with imgId, blockNum }) ∨
    (RspForCurrent s response ∧ ¬AcceptsRsp s response ∧
      ∃ imgId blockNum, t = s.setCurrBlock
        { s.handle.oadCurrBlock with
          imgId, blockNum, dataLen := rspDataLen response }) ∨
    (AcceptsRsp s response ∧
      ∃ imgId blockNum data,
        memcpyBlock s.handle.oadCurrBlock.data (rspDataLen response)
            (fun i => response.payloadPtr (3 + i)) = some data ∧
        t = oadUpdate .blockRecv (s.setCurrBlock
          { imgId, blockNum, data, dataLen := rspDataLen response })) := by
  unfold oadImgRspCb at h
  by_cases hprog : s.handle.blockReqInProgress = true
  · rw [if_pos hprog] at h
    right
    by_cases hnum : s.handle.currBlockNum = le16 response.payloadPtr 1
    · rw [if_neg (not_not.mpr hnum)] at h
      right
      by_cases hlen : rspDataLen response ≤ s.handle.oadNotifReqInfo.blockLen
      · right
        rw [if_neg (Nat.not_lt.mpr hlen)] at h
        obtain ⟨data, hcopy, heq⟩ := Option.map_eq_some_iff.mp h
        exact ⟨⟨⟨hprog, hnum⟩, hlen⟩, _, _, data, hcopy,
          (Prod.mk.inj heq).1.symm⟩
      · left
        rw [if_pos (Nat.lt_of_not_le hlen)] at h
        exact ⟨⟨hprog, hnum⟩, fun hacc => hlen hacc.2, _, _,
          (Prod.mk.inj (Option.some.inj h)).1.symm⟩
    · left
      rw [if_pos hnum] at h
      exact ⟨hprog, fun hcur => hnum hcur.2, _, _,
        (Prod.mk.inj (Option.some.inj h)).1.symm⟩
  · left
    rw [if_neg hprog] at h
    exact ⟨Bool.eq_false_iff.mpr hprog,
      (Prod.mk.inj (Option.some.inj h)).1.symm⟩

/-- An accepted response is copied into the buffer and queued. -/
theorem oadImgRspCb_accepts {response : CoapHdr} {s : OadState} {buf : Store}
    (hacc : AcceptsRsp s response) (hbuf : s.handle.oadCurrBlock.data = some buf) :
    oadImgRspCb response s =
      some (oadUpdate .blockRecv (s.setCurrBlock
        { imgId := (response.payloadPtr 0).toNat
          blockNum := le16 response.payloadPtr 1
          data := some (blit buf 0 (rspDataLen response)
            fun i => response.payloadPtr (3 + i))
          dataLen := rspDataLen response }), 0) := by
  obtain ⟨⟨hprog, hnum⟩, hlen⟩ := hacc
  unfold oadImgRspCb
  rw [if_pos hprog, if_neg (not_not.mpr hnum), if_neg (Nat.not_lt.mpr hlen),
    hbuf]
  rfl

/-- What is left to do once all bytes are in: the event queue grows by an abort
or, with the flash closed, by the complete event; the record of the image
blocks and the image itself stay. -/
theorem oadImageDone_cases (env : TaskletEnv) (s : OadState) :
    ∃ flash, (flash.imgWrites = s.flash.imgWrites ∧
        flash.useExternalFlash = s.flash.useExternalFlash ∧
        (flash.isOpen = true → s.flash.isOpen = true)) ∧
      (∀ i, i < s.handle.oadNotifReqInfo.imageLen →
        flash.mem i = s.flash.mem i) ∧
      (oadImageDone env s = oadUpdate .abort { s with flash } ∨
        flash.isOpen = false ∧
          oadImageDone env s = oadUpdate .complete { s with flash }) := by
  by_cases hfit : s.handle.oadNotifReqInfo.imageLen ≤
      imageMaxSize - bootImgMagicSize
  · have hframe := oadStorageWrite_frame env.nvsMagic
      (imageMaxSize - bootImgMagicSize)
      (ofList (bootImgMagic.flatMap bytes32)) bootImgMagicSize s.flash
    rcases hwrite : oadStorageWrite env.nvsMagic
        (imageMaxSize - bootImgMagicSize)
        (ofList (bootImgMagic.flatMap bytes32)) bootImgMagicSize s.flash
      with ⟨flash, status⟩
    rw [hwrite] at hframe
    obtain ⟨hrec, hopen, hext, hmem⟩ := hframe
    have hbelow := fun i hi => hmem i (Nat.lt_of_lt_of_le hi hfit)
    cases status with
    | flashError =>
        refine ⟨flash, ⟨hrec, hext, hopen.symm.trans⟩, hbelow, .inl ?_⟩
        simp [oadImageDone, hfit, hwrite]
    | success =>
        refine ⟨{ flash with isOpen := false }, ⟨hrec, hext, by simp⟩, hbelow,
          .inr ⟨rfl, ?_⟩⟩
        simp [oadImageDone, hfit, hwrite, oadStorageClose_eq]
  · refine ⟨{ s.flash with isOpen := false }, ⟨rfl, rfl, by simp⟩,
      fun i _ => rfl, .inr ⟨rfl, ?_⟩⟩
    simp [oadImageDone, hfit, oadStorageClose_eq]

/-- The handle with which a received block is processed. -/
def OadState.blockTaken (s : OadState) : OadState :=
  { s with
    handle :=
      { s.handle with blockReqInProgress := false, blockReqRetryCount := 0 }
    reqTimer := s.reqTimer.cancel }

/-- The bytes received once the current block is counted. -/
def OadHandle.recvAfter (h : OadHandle) : Nat :=
  (h.currBytesRecv + h.oadCurrBlock.dataLen) % 2 ^ 32

/-- The write of the block held in the handle. -/
def OadState.writeCurrBlock (nvs : NvsStatus) (s : OadState) :
    Flash × OadStorageStatus :=
  oadStorageImgBlockWrite nvs s.handle.currBlockNum
    s.handle.oadNotifReqInfo.blockLen
    (s.handle.oadCurrBlock.data.getD fun _ => 0)
    s.handle.oadCurrBlock.dataLen s.flash

/-- The state in which the written block is counted. -/
def OadState.counted (flash : Flash) (s : OadState) : OadState :=
  { s.blockTaken with
    handle := { s.blockTaken.handle with currBytesRecv := s.handle.recvAfter }
    flash }

/-- The four ways a received block ends: the write fails, the byte count is
wrong after the last block, the image is done, or the next block is due. -/
theorem oadBlockRecvEvt_cases (env : TaskletEnv) (s : OadState) :
    (∃ flash, s.writeCurrBlock env.nvsBlock = (flash, .flashError) ∧
      oadBlockRecvEvt env s = oadUpdate .abort { s.blockTaken with flash }) ∨
    (∃ flash, s.writeCurrBlock env.nvsBlock = (flash, .success) ∧
      ((s.handle.currBlockNum + 1 = s.handle.totalBlocks ∧
          s.handle.recvAfter ≠ s.handle.oadNotifReqInfo.imageLen ∧
          oadBlockRecvEvt env s = oadUpdate .abort (s.counted flash)) ∨
        (s.handle.currBlockNum + 1 = s.handle.totalBlocks ∧
          s.handle.recvAfter = s.handle.oadNotifReqInfo.imageLen ∧
          oadBlockRecvEvt env s = oadImageDone env (s.counted flash)) ∨
        (s.handle.currBlockNum + 1 ≠ s.handle.totalBlocks ∧
          oadBlockRecvEvt env s = oadUpdate .blockReq
            { s.counted flash with
              handle :=
                { (s.counted flash).handle with
                  currBlockNum := (s.handle.currBlockNum + 1) % 2 ^ 16 } }))) := by
  rcases hwrite : s.writeCurrBlock env.nvsBlock with ⟨flash, status⟩
  have hcall := hwrite
  unfold OadState.writeCurrBlock at hcall
  cases status with
  | flashError =>
      left
      refine ⟨flash, rfl, ?_⟩
      simp only [oadBlockRecvEvt, hcall]
      rfl
  | success =>
      right
      refine ⟨flash, rfl, ?_⟩
      by_cases hlast : s.handle.currBlockNum + 1 = s.handle.totalBlocks
      · by_cases hrecv : s.handle.recvAfter = s.handle.oadNotifReqInfo.imageLen
        · right
          left
          refine ⟨hlast, hrecv, ?_⟩
          rw [OadHandle.recvAfter] at hrecv
          simp only [oadBlockRecvEvt, hcall]
          rw [if_pos hlast, if_pos hrecv]
          rfl
        · left
          refine ⟨hlast, hrecv, ?_⟩
          rw [OadHandle.recvAfter] at hrecv
          simp only [oadBlockRecvEvt, hcall]
          rw [if_pos hlast, if_neg hrecv]
          rfl
      · right
        right
        refine ⟨hlast, ?_⟩
        simp only [oadBlockRecvEvt, hcall]
        rw [if_neg hlast]
        rfl

/-- A timeout of the block request pushes one event. -/
theorem oadBlockReqTimeoutEvt_cases (s : OadState) :
    ∃ evt count, (evt = .blockReq ∨ evt = .abort) ∧
      oadBlockReqTimeoutEvt s = oadUpdate evt
        { s with handle := { s.handle with blockReqRetryCount := count } } := by
  by_cases hretry : s.handle.blockReqRetryCount < maxBlockReqRetryCount
  · exact ⟨.blockReq, _, .inl rfl, by simp [oadBlockReqTimeoutEvt, hretry]; rfl⟩
  · exact ⟨.abort, s.handle.blockReqRetryCount, .inr rfl,
      by simp [oadBlockReqTimeoutEvt, hretry]⟩

/-- However a received block ends, its write is what the record of block writes
shows of it, and the flash is not opened. -/
theorem oadBlockRecvEvt_flash (env : TaskletEnv) (s : OadState) :
    (oadBlockRecvEvt env s).flash.imgWrites =
        (s.writeCurrBlock env.nvsBlock).1.imgWrites ∧
      (oadBlockRecvEvt env s).flash.useExternalFlash =
        s.flash.useExternalFlash ∧
      ((oadBlockRecvEvt env s).flash.isOpen = true → s.flash.isOpen = true) := by
  obtain ⟨hopen, hext⟩ := imgBlockWrite_frame env.nvsBlock
    s.handle.currBlockNum s.handle.oadNotifReqInfo.blockLen
    (s.handle.oadCurrBlock.data.getD fun _ => 0) s.handle.oadCurrBlock.dataLen
    s.flash
  rw [← OadState.writeCurrBlock] at hopen hext
  rcases oadBlockRecvEvt_cases env s with ⟨flash, hwrite, heq⟩ |
      ⟨flash, hwrite, ⟨_, _, heq⟩ | ⟨_, _, heq⟩ | ⟨_, heq⟩⟩
  · rw [hwrite] at hopen hext
    rw [heq, hwrite]
    exact ⟨rfl, hext, hopen.symm.trans⟩
  · rw [hwrite] at hopen hext
    rw [heq, hwrite]
    exact ⟨rfl, hext, hopen.symm.trans⟩
  · rw [hwrite] at hopen hext
    obtain ⟨flash', ⟨hrec, hext', hopen'⟩, _, hdone | ⟨_, hdone⟩⟩ :=
      oadImageDone_cases env (s.counted flash)
    · rw [heq, hdone, hwrite]
      exact ⟨hrec, hext'.trans hext, fun h => hopen.symm.trans (hopen' h)⟩
    · rw [heq, hdone, hwrite]
      exact ⟨hrec, hext'.trans hext, fun h => hopen.symm.trans (hopen' h)⟩
  · rw [hwrite] at hopen hext
    rw [heq, hwrite]
    exact ⟨rfl, hext, hopen.symm.trans⟩

/-- However a received block ends, the handle changes in its counters only, and
the block number moves on only to a block still to come. -/
theorem oadBlockRecvEvt_handle (env : TaskletEnv) (s : OadState) :
    ∃ recv curr,
      (oadBlockRecvEvt env s).handle =
        { s.handle with
          blockReqInProgress := false
          blockReqRetryCount := 0
          currBytesRecv := recv
          currBlockNum := curr } ∧
      (curr = s.handle.currBlockNum ∨
        s.handle.currBlockNum + 1 ≠ s.handle.totalBlocks ∧
          curr = (s.handle.currBlockNum + 1) % 2 ^ 16) := by
  rcases oadBlockRecvEvt_cases env s with ⟨flash, _, heq⟩ |
      ⟨flash, _, ⟨_, _, heq⟩ | ⟨_, _, heq⟩ | ⟨hmore, heq⟩⟩
  · rw [heq]
    exact ⟨_, _, rfl, .inl rfl⟩
  · rw [heq]
    exact ⟨_, _, rfl, .inl rfl⟩
  · obtain ⟨flash', _, _, hdone | ⟨_, hdone⟩⟩ :=
      oadImageDone_cases env (s.counted flash)
    · rw [heq, hdone]
      exact ⟨_, _, rfl, .inl rfl⟩
    · rw [heq, hdone]
      exact ⟨_, _, rfl, .inl rfl⟩
  · rw [heq]
    exact ⟨_, _, rfl, .inr ⟨hmore, rfl⟩⟩

theorem count_complete_push {e : OadEvt} {q : List OadEvt} (he : e ≠ .complete) :
    (q ++ [e]).count .complete = q.count .complete := by
  rw [List.count_append]
  simp [he]

/-- The write of the last block, with all bytes counted, after which the flash
holds what it held after the write. -/
def WritesLast (s t : OadState) : Prop :=
  ∃ nvs flash, s.writeCurrBlock nvs = (flash, .success) ∧
    s.handle.currBlockNum + 1 = s.handle.totalBlocks ∧
    s.handle.recvAfter = s.handle.oadNotifReqInfo.imageLen ∧
    t.flash.imgWrites = flash.imgWrites ∧
    ∀ i, i < s.handle.oadNotifReqInfo.imageLen → t.flash.mem i = flash.mem i

theorem oadBlockRecvEvt_queues_complete {env : TaskletEnv} {s : OadState}
    (hqueued : s.queue.count .complete <
      (oadBlockRecvEvt env s).queue.count .complete) :
    WritesLast s (oadBlockRecvEvt env s) := by
  have hgrew : ∀ e, e ≠ .complete →
      (oadBlockRecvEvt env s).queue ≠ s.queue ++ [e] := by
    intro e he heq
    rw [heq, count_complete_push he] at hqueued
    exact lt_irrefl _ hqueued
  rcases oadBlockRecvEvt_cases env s with ⟨flash, _, heq⟩ |
      ⟨flash, hwrite, ⟨_, _, heq⟩ | ⟨hlast, hrecv, heq⟩ | ⟨_, heq⟩⟩
  · exact absurd (by rw [heq]; rfl) (hgrew .abort (by decide))
  · exact absurd (by rw [heq]; rfl) (hgrew .abort (by decide))
  · obtain ⟨flash', ⟨hrec, _⟩, hmem, hdone | ⟨_, hdone⟩⟩ :=
      oadImageDone_cases env (s.counted flash)
    · exact absurd (by rw [heq, hdone]; rfl) (hgrew .abort (by decide))
    · rw [heq, hdone]
      exact ⟨env.nvsBlock, flash, hwrite, hlast, hrecv, hrec, hmem⟩
  · exact absurd (by rw [heq]; rfl) (hgrew .blockReq (by decide))

theorem oadTasklet_queues_complete {env : TaskletEnv} {e : OadEvt}
    {s : OadState}
    (hqueued : s.queue.count .complete <
      (oadTasklet env e s).queue.count .complete) :
    e = .blockRecv ∧ WritesLast s (oadTasklet env e s) := by
  cases e with
  | blockRecv => exact ⟨rfl, oadBlockRecvEvt_queues_complete hqueued⟩
  | blockReqTimeout =>
      obtain ⟨evt, count, hevt, heq⟩ := oadBlockReqTimeoutEvt_cases s
      have hne : evt ≠ .complete := by rcases hevt with rfl | rfl <;> decide
      rw [oadTasklet, heq] at hqueued
      exact absurd (count_complete_push hne) (Nat.ne_of_gt hqueued)
  | init | blockReq | complete | abort => exact absurd hqueued (lt_irrefl _)
  | completeTimeout =>
      simp [oadTasklet, sysCtrlSystemReset, OadState.boot] at hqueued

/-- **Who queues the complete event.**  Only the processing of a received block
does, when that block is the last one and all bytes are counted. -/
theorem step_queues_complete {dev : Device} {s t : OadState} {a : OadAct}
    (hstep : step dev s a = some t)
    (hqueued : s.queue.count .complete < t.queue.count .complete) :
    ∃ rest, s.queue = .blockRecv :: rest ∧ WritesLast s t := by
  have hsame : t.queue.count .complete ≠ s.queue.count .complete :=
    Nat.ne_of_gt hqueued
  cases a with
  | request env addr hdr =>
      refine absurd ?_ hsame
      cases hstep
      rcases coapOadCb_cases dev env addr hdr s with
        ⟨_, heq | ⟨o, _, heq⟩⟩ | ⟨_, _, status, sent, _, heq⟩ | ⟨_, heq⟩
      · rw [heq]
      · rw [heq]
        rfl
      · rw [heq]
        rfl
      · rw [heq]
        rcases startTransfer_cases env addr (s.accepted hdr) with
          ⟨_, _, heq⟩ | ⟨_, _, evt, hevt, heq⟩
        · rw [heq]
          exact count_complete_push (by decide)
        · rw [heq]
          exact count_complete_push
            (by rcases hevt with ⟨rfl, _⟩ | rfl <;> decide)
  | imgRsp hdr =>
      obtain ⟨⟨t', ret⟩, hcb, rfl⟩ := Option.map_eq_some_iff.mp hstep
      refine absurd ?_ hsame
      rcases oadImgRspCb_cases hcb with ⟨_, rfl⟩ | ⟨_, _, _, _, rfl⟩ |
        ⟨_, _, _, _, rfl⟩ | ⟨_, _, _, _, _, rfl⟩
      · rfl
      · rfl
      · rfl
      · exact count_complete_push (by decide)
  | completeRsp =>
      simp only [step, Option.ite_none_right_eq_some] at hstep
      rw [← Option.some.inj hstep.2] at hqueued
      simp [oadCompleteRspCb, sysCtrlSystemReset, OadState.boot] at hqueued
  | event env =>
      cases hq : s.queue with
      | nil => simp [step, hq] at hstep
      | cons e rest =>
          simp only [step, hq, Option.some.injEq] at hstep
          subst hstep
          have hpop : rest.count .complete ≤ s.queue.count .complete := by
            rw [hq]
            exact List.count_le_count_cons
          obtain ⟨rfl, hlast⟩ := oadTasklet_queues_complete
            (s := { s with queue := rest }) (lt_of_le_of_lt hpop hqueued)
          exact ⟨rest, rfl, hlast⟩
  | expire id =>
      simp only [step, Option.ite_none_left_eq_some] at hstep
      rw [← Option.some.inj hstep.2] at hsame
      cases id <;> exact absurd rfl hsame
  | timerEvent env id =>
      simp only [step, Option.ite_none_left_eq_some] at hstep
      rw [← Option.some.inj hstep.2] at hqueued
      have htimer : s.queue.count .complete = (s.setTimer
          { s.timer id with queued := (s.timer id).queued - 1 } id).queue.count
          .complete := by cases id <;> rfl
      rw [htimer] at hqueued
      obtain ⟨hid, _⟩ := oadTasklet_queues_complete hqueued
      cases id <;> cases hid

/-! ## A sample transfer of two blocks of one byte -/

def sampleDevice : Device where
  chipType := 26
  mcubootVersion :=
    { ivMajor := 1, ivMinor := 0, ivRevision := 0, ivBuildNum := 0 }

def sampleNotif : CoapHdr :=
  .ofBytes .requestPut oadNotifUri
    [123, 26, 1, 0, 2, 0, 0, 0, 2, 0, 0, 0, 0, 0, 0, 0]

/-- A block response with one byte of data. -/
def sampleRsp (num data : UInt8) : OadAct :=
  .imgRsp (.ofBytes .other [] [123, num, 0, data])

end Oad
