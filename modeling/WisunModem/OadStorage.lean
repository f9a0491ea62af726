import WisunModem.ByteStore

/-!
# OAD image storage

`oad_storage.c` over `flash_interface_ext_rtos_NVS.c`.  The NVS driver is not
part of the repository; each call of it takes the status the driver reports as
an argument.  A call that reports success stores what it was given; a call that
reports failure leaves some residue in the range it was given.

Every image block that reaches the driver is recorded in `imgWrites`, the
record starting anew with each erase of the image area.
-/

namespace Oad

open ByteStore

/-- `OADStorage_Status_t`, as far as it is used. -/
inductive OadStorageStatus
  | success
  | flashError
  deriving DecidableEq, Repr

/-- What one NVS call reports.  A failed call leaves a residue behind. -/
inductive NvsStatus
  | success
  | failure (residue : Store)

/-- The contents a call leaves in its range when it was given `wanted`. -/
def NvsStatus.left : NvsStatus → Store → Store
  | .success, wanted => wanted
  | .failure residue, _ => residue

def NvsStatus.isOk : NvsStatus → Bool
  | .success => true
  | .failure _ => false

/-- One image block handed to the flash driver. -/
structure ImgWrite where
  blkNum : Nat
  blockLen : Nat
  addr : Nat
  data : List UInt8
  ok : Bool
  deriving DecidableEq, Repr

/-- The flash with the static variables of both storage layers. -/
structure Flash where
  isOpen : Bool
  useExternalFlash : Bool
  mem : Store
  imgWrites : List ImgWrite

/-! ## The flash interface -/

def eflPageSize : Nat := 0x1000
def extflashPageMask : Nat := 0xFFFFF000
def intflashPageSize : Nat := 0x2000
def intflashPageMask : Nat := 0xFFFFE000

def extFlashAddress (page offset : Nat) : Nat := page * 2 ^ 12 + offset
def extFlashPage (addr : Nat) : Nat := addr / 2 ^ 12
def flashPage (addr : Nat) : Nat := addr / 2 ^ 13

/-- `addr & ~mask` on 32-bit words. -/
def pageOffset (addr mask : Nat) : Nat := addr &&& (2 ^ 32 - 1 - mask)

/-- `handle` tells whether `NVS_open` returns a handle. -/
def flashOpen (handle : Bool) (f : Flash) : Flash :=
  if !f.isOpen && handle then { f with isOpen := true } else f

def flashClose (f : Flash) : Flash :=
  if f.isOpen then { f with isOpen := false } else f

def hasExternalFlash : Bool := true

def writeFlashPg (nvs : NvsStatus) (page offset : Nat) (pBuf : Store)
    (len : Nat) (f : Flash) : Flash × Bool :=
  if f.isOpen then
    ({ f with
        mem := blit f.mem (extFlashAddress page offset) len (nvs.left pBuf) },
      nvs.isOk)
  else
    (f, false)

def writeFlash (nvs : NvsStatus) (addr : Nat) (pBuf : Store) (len : Nat)
    (f : Flash) : Flash × Bool :=
  if f.isOpen then
    ({ f with mem := blit f.mem addr len (nvs.left pBuf) }, nvs.isOk)
  else
    (f, false)

def eraseFlashPg (nvs : NvsStatus) (page : Nat) (f : Flash) : Flash × Bool :=
  if f.isOpen then
    ({ f with
        mem := blit f.mem (extFlashAddress page 0) eflPageSize
          (nvs.left fun _ => 0xFF) },
      nvs.isOk)
  else
    (f, false)

/-! ## The storage module -/

def oadStorageInit (handle : Bool) (f : Flash) : Flash :=
  { flashOpen handle f with useExternalFlash := hasExternalFlash }

def oadStorageWrite (nvs : NvsStatus) (offset : Nat) (pBuf : Store)
    (dataLen : Nat) (f : Flash) : Flash × OadStorageStatus :=
  let (f, flashStat) := writeFlash nvs offset pBuf dataLen f
  (f, if flashStat then .success else .flashError)

/-- The page number is held in eight bits. -/
def imgBlockPage (useExternalFlash : Bool) (blkStartAddr : Nat) : Nat :=
  (if useExternalFlash then extFlashPage blkStartAddr
    else flashPage blkStartAddr) % 2 ^ 8

def imgBlockOffset (useExternalFlash : Bool) (blkStartAddr : Nat) : Nat :=
  if useExternalFlash then pageOffset blkStartAddr extflashPageMask
  else pageOffset blkStartAddr intflashPageMask

/-- The address an image block goes to: a 32-bit product, split into page and
offset, and put together again by the page writer. -/
def imgBlockAddr (useExternalFlash : Bool) (blkNum blockLen : Nat) : Nat :=
  let blkStartAddr := blockLen * blkNum % 2 ^ 32
  extFlashAddress (imgBlockPage useExternalFlash blkStartAddr)
    (imgBlockOffset useExternalFlash blkStartAddr)

def oadStorageImgBlockWrite (nvs : NvsStatus) (blkNum blockLen : Nat)
    (pBlockData : Store) (dataLen : Nat) (f : Flash) :
    Flash × OadStorageStatus :=
  let blkStartAddr := blockLen * blkNum % 2 ^ 32
  let page := imgBlockPage f.useExternalFlash blkStartAddr
  let offset := imgBlockOffset f.useExternalFlash blkStartAddr
  let (f', flashStat) := writeFlashPg nvs page offset pBlockData dataLen f
  let issued : List ImgWrite :=
    if f.isOpen then
      [{ blkNum, blockLen, addr := extFlashAddress page offset,
         data := bytes pBlockData 0 dataLen, ok := flashStat }]
    else []
  ({ f' with imgWrites := f.imgWrites ++ issued },
    if flashStat then .success else .flashError)

/-- The number of pages to erase is held in eight bits. -/
def numFlashPages (imageLen pageSize : Nat) : Nat :=
  let n := imageLen / pageSize % 2 ^ 8
  if imageLen % pageSize ≠ 0 then (n + 1) % 2 ^ 8 else n

/-- The erase loop from `page` on, with `left` pages to go; it stops at the
first page which cannot be erased. -/
def erasePages (nvs : Nat → NvsStatus) :
    (left page : Nat) → Flash → Flash × OadStorageStatus
  | 0, _, f => (f, .success)
  | left + 1, page, f =>
      match eraseFlashPg (nvs page) (page % 2 ^ 8) f with
      | (f, false) => (f, .flashError)
      | (f, true) => erasePages nvs left (page + 1) f

def oadStorageEraseImg (nvs : Nat → NvsStatus) (imageLen : Nat) (f : Flash) :
    Flash × OadStorageStatus :=
  let pageSize := if f.useExternalFlash then eflPageSize else intflashPageSize
  erasePages nvs (numFlashPages imageLen pageSize) 0 { f with imgWrites := [] }

def oadStorageClose (f : Flash) : Flash := flashClose f

/-! ## What the operations change -/

theorem pageOffset_ext {addr : Nat} :
    pageOffset addr extflashPageMask = addr % 2 ^ 12 := by
  have hmask : 2 ^ 32 - 1 - extflashPageMask = 2 ^ 12 - 1 := rfl
  rw [pageOffset, hmask]
  exact Nat.and_two_pow_sub_one_eq_mod addr 12

/-- **Block address.**  On external flash a block below the first megabyte goes
to its block number times the block length. -/
theorem imgBlockAddr_ext {blkNum blockLen : Nat}
    (h : blockLen * blkNum < 2 ^ 20) :
    imgBlockAddr true blkNum blockLen = blockLen * blkNum := by
  have hword : blockLen * blkNum % 2 ^ 32 = blockLen * blkNum :=
    Nat.mod_eq_of_lt (by omega)
  simp only [imgBlockAddr, hword, imgBlockPage, imgBlockOffset, if_true,
    extFlashPage, pageOffset_ext, extFlashAddress]
  exact page_offset 12 8 h

/-- An open flash takes the block where `imgBlockAddr` says and records it. -/
theorem imgBlockWrite_open {nvs : NvsStatus} {blkNum blockLen dataLen : Nat}
    {pBlockData : Store} {f : Flash} (h : f.isOpen = true) :
    oadStorageImgBlockWrite nvs blkNum blockLen pBlockData dataLen f =
      ({ f with
          mem := blit f.mem (imgBlockAddr f.useExternalFlash blkNum blockLen)
            dataLen (nvs.left pBlockData)
          imgWrites := f.imgWrites ++
            [{ blkNum, blockLen
               addr := imgBlockAddr f.useExternalFlash blkNum blockLen
               data := bytes pBlockData 0 dataLen, ok := nvs.isOk }] },
        if nvs.isOk then .success else .flashError) := by
  simp [oadStorageImgBlockWrite, writeFlashPg, h, imgBlockAddr]

/-- A closed flash takes no block. -/
theorem imgBlockWrite_closed {nvs : NvsStatus} {blkNum blockLen dataLen : Nat}
    {pBlockData : Store} {f : Flash} (h : f.isOpen = false) :
    oadStorageImgBlockWrite nvs blkNum blockLen pBlockData dataLen f =
      (f, .flashError) := by
  cases f
  subst h
  simp [oadStorageImgBlockWrite, writeFlashPg]

/-- A block write leaves the static variables alone. -/
theorem imgBlockWrite_frame (nvs : NvsStatus) (blkNum blockLen : Nat)
    (pBlockData : Store) (dataLen : Nat) (f : Flash) :
    (oadStorageImgBlockWrite nvs blkNum blockLen pBlockData dataLen f).1.isOpen =
        f.isOpen ∧
      (oadStorageImgBlockWrite nvs blkNum blockLen pBlockData dataLen
        f).1.useExternalFlash = f.useExternalFlash := by
  cases hopen : f.isOpen with
  | false =>
      rw [imgBlockWrite_closed hopen]
      exact ⟨hopen, rfl⟩
  | true =>
      rw [imgBlockWrite_open hopen]
      exact ⟨hopen, rfl⟩

theorem oadStorageClose_eq (f : Flash) :
    oadStorageClose f = { f with isOpen := false } := by
  cases f
  simp only [oadStorageClose, flashClose]
  split <;> simp_all

/-- A plain write leaves what lies below it alone. -/
theorem oadStorageWrite_frame (nvs : NvsStatus) (offset : Nat) (pBuf : Store)
    (dataLen : Nat) (f : Flash) :
    (oadStorageWrite nvs offset pBuf dataLen f).1.imgWrites = f.imgWrites ∧
      (oadStorageWrite nvs offset pBuf dataLen f).1.isOpen = f.isOpen ∧
      (oadStorageWrite nvs offset pBuf dataLen f).1.useExternalFlash =
        f.useExternalFlash ∧
      ∀ i, i < offset →
        (oadStorageWrite nvs offset pBuf dataLen f).1.mem i = f.mem i := by
  cases hopen : f.isOpen with
  | false => simp [oadStorageWrite, writeFlash, hopen]
  | true =>
      refine ⟨?_, ?_, ?_, fun i hi => ?_⟩
      · simp [oadStorageWrite, writeFlash, hopen]
      · simp [oadStorageWrite, writeFlash, hopen]
      · simp [oadStorageWrite, writeFlash, hopen]
      · have hout : ¬(offset ≤ i ∧ i < offset + dataLen) := by omega
        simp [oadStorageWrite, writeFlash, hopen, blit, hout]

theorem eraseFlashPg_frame (nvs : NvsStatus) (page : Nat) (f : Flash) :
    (eraseFlashPg nvs page f).1.isOpen = f.isOpen ∧
      (eraseFlashPg nvs page f).1.useExternalFlash = f.useExternalFlash ∧
      (eraseFlashPg nvs page f).1.imgWrites = f.imgWrites := by
  unfold eraseFlashPg
  split <;> exact ⟨rfl, rfl, rfl⟩

theorem erasePages_frame (nvs : Nat → NvsStatus) (left page : Nat) (f : Flash) :
    (erasePages nvs left page f).1.isOpen = f.isOpen ∧
      (erasePages nvs left page f).1.useExternalFlash = f.useExternalFlash ∧
      (erasePages nvs left page f).1.imgWrites = f.imgWrites := by
  induction left generalizing page f with
  | zero => exact ⟨rfl, rfl, rfl⟩
  | succ left ih =>
      have hpage := eraseFlashPg_frame (nvs page) (page % 2 ^ 8) f
      rcases hres : eraseFlashPg (nvs page) (page % 2 ^ 8) f with ⟨f', ok⟩
      rw [hres] at hpage
      cases ok with
      | false => simpa only [erasePages, hres] using hpage
      | true =>
          obtain ⟨ho, hx, hw⟩ := ih (page + 1) f'
          simp only [erasePages, hres]
          exact ⟨ho.trans hpage.1, hx.trans hpage.2.1, hw.trans hpage.2.2⟩

/-- Erasing keeps the interface open and starts the record anew. -/
theorem eraseImg_frame (nvs : Nat → NvsStatus) (imageLen : Nat) (f : Flash) :
    (oadStorageEraseImg nvs imageLen f).1.isOpen = f.isOpen ∧
      (oadStorageEraseImg nvs imageLen f).1.useExternalFlash =
        f.useExternalFlash ∧
      (oadStorageEraseImg nvs imageLen f).1.imgWrites = [] :=
  erasePages_frame nvs _ 0 { f with imgWrites := [] }

/-- An open flash that fails no page is erased. -/
theorem erasePages_ok {nvs : Nat → NvsStatus} (hok : ∀ page, nvs page = .success)
    {left page : Nat} {f : Flash} (hopen : f.isOpen = true) :
    (erasePages nvs left page f).2 = .success := by
  induction left generalizing page f with
  | zero => rfl
  | succ left ih =>
      simp only [erasePages, eraseFlashPg, hopen, hok, if_true, NvsStatus.isOk]
      exact ih rfl

end Oad
