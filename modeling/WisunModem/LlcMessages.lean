import WisunModem.RingSearch
import WisunModem.Runs

/-!
# The messages of the Wi-SUN LLC

`ws_llc_data_service.c` as it is built for the TI MAC: the messages that lie at the MAC, the
EAPOL messages that wait for their turn, the requests of the two MPX users, the confirms of
the MAC, and purges.  What the MAC answers is an argument of each call.  Both users have
registered their calls.
-/

namespace Llc

/-- `LLC_MESSAGE_QUEUE_LIST_SIZE_MAX` -/
def messageQueueListSizeMax : Nat := 16

/-- `WS_FT_DATA` and `WS_FT_EAPOL`; asynchronous frames are in no list in this build. -/
inductive FrameType where
  | data
  | eapol
  deriving DecidableEq

/-- `MPX_LOWPAN_ENC_USER_ID` and `MPX_KEY_MANAGEMENT_ENC_USER_ID` -/
inductive MpxUser where
  | lowpan
  | keyManagement
  deriving DecidableEq

/-- The status of a confirm: `MLME_TRANSACTION_OVERFLOW`, or what the MAC said. -/
inductive Status where
  | transactionOverflow
  | mac (status : UInt8)
  deriving DecidableEq

/-- `llc_message_t`.  `request` numbers the requests, and so tells messages apart as their
addresses do in the C code. -/
structure Message where
  messageType : FrameType
  mpxId : BitVec 4
  msgHandle : BitVec 8
  mpxUserHandle : UInt8
  request : Nat
  deriving DecidableEq

/-- One call of `data_confirm`, with the request it is the confirm of. -/
structure Confirm where
  user : MpxUser
  msduHandle : UInt8
  status : Status
  request : Nat
  deriving DecidableEq

/-- `llc_data_base_t` with its `temp_entries`.  The last four fields are not in the C code:
the number of requests so far, what the MAC accepted and neither confirmed nor purged, the
calls of `data_confirm`, and the requests that were purged or cleaned. -/
structure Base where
  macHandleBase : BitVec 8
  mpxId : BitVec 4
  llcMessageListSize : UInt8
  llcMessageList : List Message
  llcEapPendingList : List Message
  llcEapPendingListSize : UInt16
  activeEapolSession : Bool
  asked : Nat
  atMac : List (BitVec 8 × Nat)
  confirms : List Confirm
  dropped : List Nat
  deriving DecidableEq

namespace Base

/-- `ws_llc_base_allocate` -/
def start : Base := ⟨0, 0, 0, [], [], 0, false, 0, [], [], []⟩

/-- `llc_message_discover_by_mac_handle` -/
def llc_message_discover_by_mac_handle (base : Base) (handle : BitVec 8) : Option Message :=
  base.llcMessageList.find? fun message => message.msgHandle = handle

/-- `llc_message_discover_mpx_user_id` -/
def llc_message_discover_mpx_user_id (base : Base) (handle : UInt8) (user : MpxUser) :
    Option Message :=
  let messageType := match user with
    | .lowpan => FrameType.data
    | .keyManagement => FrameType.eapol
  base.llcMessageList.find? fun message =>
    message.messageType = messageType ∧ message.mpxUserHandle = handle

/-- `llc_message_free` -/
def llc_message_free (base : Base) (message : Message) : Base :=
  { base with
    llcMessageList := base.llcMessageList.erase message
    llcMessageListSize := base.llcMessageListSize - 1 }

/-- `llc_message_id_allocate` for an MPX user; `none` where a loop does not end. -/
def llc_message_id_allocate (base : Base) (message : Message) : Option (Message × Base) := do
  let handle ← RingSearch.firstFree (base.llcMessageList.map (·.msgHandle)) base.macHandleBase
  let id ← RingSearch.firstFree (base.llcMessageList.map (·.mpxId)) base.mpxId
  some ({ message with msgHandle := handle, mpxId := id },
    { base with macHandleBase := handle + 1, mpxId := id + 1 })

/-- `llc_message_allocate`: whether there is a message. -/
def llc_message_allocate (base : Base) (memory : Bool) : Bool :=
  if messageQueueListSizeMax ≤ base.llcMessageListSize.toNat then false else memory

/-- Both kinds of message get their ids and are listed before the MAC is asked. -/
def addToActive (base : Base) (message : Message) : Option (Message × Base) := do
  let (message, base) ← base.llc_message_id_allocate message
  some (message,
    { base with
      llcMessageListSize := base.llcMessageListSize + 1
      llcMessageList := base.llcMessageList ++ [message] })

/-- The registered call of a user. -/
def data_confirm (base : Base) (user : MpxUser) (msduHandle : UInt8) (status : Status)
    (request : Nat) : Base :=
  { base with confirms := base.confirms ++ [⟨user, msduHandle, status, request⟩] }

/-- The MAC takes a message, or refuses it. -/
def mcps_data_req_ext (base : Base) (message : Message) (status : UInt8) : Base :=
  if status = 0 then
    { base with atMac := base.atMac ++ [(message.msgHandle, message.request)] }
  else base

/-- The MAC gives a message up, or does not. -/
def mcps_purge_req (base : Base) (handle : BitVec 8) (status : UInt8) : Base :=
  if status = 0 then { base with atMac := base.atMac.filter fun entry => entry.1 ≠ handle }
  else base

/-- One more request. -/
def next (base : Base) : Base := { base with asked := base.asked + 1 }

/-- `ws_llc_lowpan_mpx_data_request` -/
def ws_llc_lowpan_mpx_data_request (base : Base) (msduHandle : UInt8) (memory : Bool)
    (status : UInt8) : Option Base :=
  if !base.llc_message_allocate memory then
    some (base.next.data_confirm .lowpan msduHandle .transactionOverflow base.asked)
  else do
    let (message, base') ← base.next.addToActive ⟨.data, 0, 0, msduHandle, base.asked⟩
    let base'' := base'.mcps_data_req_ext message status
    -- a message which the MAC refused stays in the list
    some (if status ≠ 0 then base''.data_confirm .lowpan msduHandle (.mac status) base.asked
      else base'')

/-- `ws_llc_mpx_eapol_send` -/
def ws_llc_mpx_eapol_send (base : Base) (message : Message) (status : UInt8) :
    Option (UInt8 × Base) := do
  let (message, base) ← base.addToActive message
  let base := base.mcps_data_req_ext message status
  some (status, if status = 0 then { base with activeEapolSession := true } else base)

/-- `ws_llc_mpx_eapol_request` -/
def ws_llc_mpx_eapol_request (base : Base) (msduHandle : UInt8) (memory : Bool)
    (status : UInt8) : Option Base :=
  if !base.llc_message_allocate memory then
    some (base.next.data_confirm .keyManagement msduHandle .transactionOverflow base.asked)
  else
    let message : Message := ⟨.eapol, 0, 0, msduHandle, base.asked⟩
    if base.activeEapolSession then
      some { base.next with
        llcEapPendingList := base.llcEapPendingList ++ [message]
        llcEapPendingListSize := base.llcEapPendingListSize + 1 }
    else do
      let (status, base') ← base.next.ws_llc_mpx_eapol_send message status
      some (if status ≠ 0 then
          base'.data_confirm .keyManagement msduHandle (.mac status) base.asked
        else base')

/-- What follows on the confirm of an EAPOL message: the first one that waits is sent. -/
def startPending (base : Base) (status : UInt8) : Option Base :=
  match base.llcEapPendingList with
  | [] => some base
  | message :: rest => do
      let base := { base with
        llcEapPendingList := rest
        llcEapPendingListSize := base.llcEapPendingListSize - 1 }
      -- the status of the MAC is not looked at here
      let (_, base) ← base.ws_llc_mpx_eapol_send message status
      some base

/-- `ws_llc_mac_confirm_cb`; without `conf_data` it is the confirm of an asynchronous frame.
`restart` is the answer of the MAC to a message that waited. -/
def ws_llc_mac_confirm_cb (base : Base) (msduHandle : BitVec 8) (status : UInt8)
    (confData : Bool) (restart : UInt8) : Option Base :=
  if !confData then some base
  else
    match base.llc_message_discover_by_mac_handle msduHandle with
    | none => some base
    | some message =>
        let base := base.llc_message_free message
        match message.messageType with
        | .data =>
            some (base.data_confirm .lowpan message.mpxUserHandle (.mac status) message.request)
        | .eapol =>
            let base := { base with activeEapolSession := false }
            let base := base.data_confirm .keyManagement message.mpxUserHandle (.mac status)
              message.request
            base.startPending restart

/-- `ws_llc_mpx_data_purge_request` -/
def ws_llc_mpx_data_purge_request (base : Base) (msduHandle : UInt8) (user : MpxUser)
    (status : UInt8) : Base :=
  match base.llc_message_discover_mpx_user_id msduHandle user with
  | none => base
  | some message =>
      let base := base.mcps_purge_req message.msgHandle status
      if status = 0 then
        { base.llc_message_free message with dropped := base.dropped ++ [message.request] }
      else base

/-- `ws_llc_clean`; the MAC refuses to purge some handles. -/
def ws_llc_clean (base : Base) (refused : List (BitVec 8)) : Base :=
  { base with
    llcMessageListSize := base.llcMessageListSize - UInt8.ofNat base.llcMessageList.length
    llcMessageList := []
    llcEapPendingList := []
    llcEapPendingListSize := 0
    activeEapolSession := false
    atMac := base.atMac.filter fun entry =>
      entry.1 ∈ refused ∨ entry.1 ∉ base.llcMessageList.map (·.msgHandle)
    dropped := base.dropped ++ base.llcMessageList.map (·.request) ++
      base.llcEapPendingList.map (·.request) }

end Base

/-- What comes to the LLC, with the answers of memory and MAC. -/
inductive Event where
  | data (msduHandle : UInt8) (memory : Bool) (status : UInt8)
  | eapol (msduHandle : UInt8) (memory : Bool) (status : UInt8)
  | confirm (handle : BitVec 8) (status : UInt8) (confData : Bool) (restart : UInt8)
  | purge (msduHandle : UInt8) (user : MpxUser) (status : UInt8)
  | clean (refused : List (BitVec 8))
  deriving DecidableEq

namespace Base

/-- The MAC is done with what it has under a handle. -/
def confirmedByMac (base : Base) (handle : BitVec 8) (confData : Bool) : Base :=
  if confData then { base with atMac := base.atMac.filter fun entry => entry.1 ≠ handle }
  else base

/-- One event. -/
def step (base : Base) : Event → Option Base
  | .data msduHandle memory status =>
      base.ws_llc_lowpan_mpx_data_request msduHandle memory status
  | .eapol msduHandle memory status => base.ws_llc_mpx_eapol_request msduHandle memory status
  | .confirm handle status confData restart =>
      (base.confirmedByMac handle confData).ws_llc_mac_confirm_cb handle status confData restart
  | .purge msduHandle user status =>
      some (base.ws_llc_mpx_data_purge_request msduHandle user status)
  | .clean refused => some (base.ws_llc_clean refused)

/-! ## What every run keeps -/

/-- The list and its size agree, and ids and handles are distinct. -/
structure Sized (base : Base) : Prop where
  size : base.llcMessageListSize.toNat = base.llcMessageList.length
  bounded : base.llcMessageList.length ≤ messageQueueListSizeMax
  handles : (base.llcMessageList.map (·.msgHandle)).Nodup
  mpxIds : (base.llcMessageList.map (·.mpxId)).Nodup

end Base

end Llc
