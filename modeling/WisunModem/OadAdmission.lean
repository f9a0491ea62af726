import WisunModem.OadFlashBounds

/-!
# Admission of a transfer

The number of blocks is the quotient of a 32-bit length by a 16-bit length,
both from the network, and is kept in sixteen bits.  A notification whose
quotient does not fit starts a transfer of fewer blocks than the image has,
unless the bits that are kept are all zero, in which case it is turned down.
-/

namespace Oad

open ByteStore

variable {dev : Device} {env : NotifEnv} {addr : List UInt8} {request : CoapHdr} {s : OadState}

/-- `coap_oad_cb` gets as far as the division. -/
def Divides (dev : Device) (env : NotifEnv) (s : OadState) (request : CoapHdr) : Prop :=
  OpensTransfer dev env s request ∧ env.malloc.isSome

/-- The flash is touched, or a block is requested. -/
def Starts (s s' : OadState) : Prop :=
  s'.flash ≠ s.flash ∨ s'.queue = s.queue ++ [.blockReq]

/-- A call divides by a length that is not zero, and starts a transfer only with the exact
number of blocks. -/
structure AdmitsExactly (info : OadNotifReqMsg) (divides : Prop) (s s' : OadState) : Prop where
  divisor : divides → info.blockLen ≠ 0
  positive : Starts s s' → 0 < info.blockLen
  total : Starts s s' → s'.handle.totalBlocks = blockCount info.imageLen info.blockLen
  reaches : Starts s s' → info.imageLen ≤ s'.handle.totalBlocks * info.blockLen
  needed : Starts s s' → (s'.handle.totalBlocks - 1) * info.blockLen < info.imageLen

/-- Every call with a notification admits exactly. -/
def AdmittedExactly (dev : Device) (request : CoapHdr) : Prop :=
  ∀ env addr s, AdmitsExactly (.ofBytes request.payloadPtr) (Divides dev env s request) s
    (coapOadCb dev env addr request s).1

/-- The notification is turned down, or its block length is not zero and the number of its
blocks has sixteen bits, or sixteen zeros at its end. -/
def CountFits (dev : Device) (request : CoapHdr) : Prop :=
  isNotifRequest request = true → request.payloadLen = OadNotifReqMsg.size →
    ntfAccepted dev (.ofBytes request.payloadPtr) = true →
      (OadNotifReqMsg.ofBytes request.payloadPtr).blockLen ≠ 0 ∧
        (blockCount (OadNotifReqMsg.ofBytes request.payloadPtr).imageLen
            (OadNotifReqMsg.ofBytes request.payloadPtr).blockLen < 2 ^ 16 ∨
          blockCount (OadNotifReqMsg.ofBytes request.payloadPtr).imageLen
            (OadNotifReqMsg.ofBytes request.payloadPtr).blockLen % 2 ^ 16 = 0)

/-- The bounds of the quotient that was rounded up. -/
theorem blockCount_bounds {len size : Nat} (hsize : 0 < size) (hcount : blockCount len size ≠ 0) :
    len ≤ blockCount len size * size ∧ (blockCount len size - 1) * size < len := by
  constructor
  · have hnot : ¬ blockCount len size < blockCount len size := Nat.lt_irrefl _
    rw [lt_blockCount_iff hsize] at hnot
    omega
  · exact mul_lt_of_lt_blockCount (by omega)

/-- What starts a transfer got past the division and found a number of blocks. -/
theorem starts_cases (hstarts : Starts s (coapOadCb dev env addr request s).1) :
    Divides dev env s request ∧ totalBlocksOf (.ofBytes request.payloadPtr) ≠ 0 ∧
      (coapOadCb dev env addr request s).1.handle.totalBlocks =
        totalBlocksOf (.ofBytes request.payloadPtr) := by
  have hquiet : ∀ s' : OadState, s'.flash = s.flash → s'.queue = s.queue → ¬ Starts s s' := by
    intro s' hflash hqueue hstarts
    obtain hne | hgrown := hstarts
    · exact hne hflash
    · rw [hqueue] at hgrown
      simpa using congrArg List.length hgrown
  obtain ⟨-, heq | ⟨o, -, heq⟩⟩ | ⟨-, -, status, sent, -, heq⟩ | ⟨hopens, heq⟩ :=
    coapOadCb_cases dev env addr request s
  · exact absurd hstarts (hquiet _ (by rw [heq]) (by rw [heq]))
  · exact absurd hstarts (hquiet _ (by rw [heq]; rfl) (by rw [heq]; rfl))
  · exact absurd hstarts (hquiet _ (by rw [heq]; rfl) (by rw [heq]; rfl))
  · obtain ⟨total, -, habort⟩ | ⟨htotal, hmalloc, evt, -, hstart⟩ :=
      startTransfer_cases env addr (s.accepted request)
    · rw [heq, habort] at hstarts
      obtain hne | hgrown := hstarts
      · exact absurd rfl hne
      · have hlast : s.queue ++ [OadEvt.abort] = s.queue ++ [.blockReq] := hgrown
        cases List.append_cancel_left hlast
    · refine ⟨⟨hopens, hmalloc⟩, htotal, ?_⟩
      rw [heq, hstart]
      rfl

/-- The bits that are kept are the number of blocks, or all zero. -/
theorem totalBlocksOf_exact {info : OadNotifReqMsg} (hne : totalBlocksOf info ≠ 0)
    (hfits : blockCount info.imageLen info.blockLen < 2 ^ 16 ∨
      blockCount info.imageLen info.blockLen % 2 ^ 16 = 0) :
    totalBlocksOf info = blockCount info.imageLen info.blockLen := by
  rw [totalBlocksOf_eq] at hne ⊢
  obtain hlt | hzero := hfits
  · exact Nat.mod_eq_of_lt hlt
  · exact absurd hzero hne

/-- An accepted notification with a number of blocks starts its transfer, if all goes well. -/
theorem starts_of_total {mem : Store} (hopens : OpensTransfer dev .ok (.boot mem []) request)
    (htotal : totalBlocksOf (.ofBytes request.payloadPtr) ≠ 0) :
    Starts (.boot mem []) (coapOadCb dev .ok [] request (.boot mem [])).1 := by
  obtain ⟨hno, -⟩ | ⟨-, hno, -⟩ | ⟨-, heq⟩ :=
    coapOadCb_cases dev .ok [] request (.boot mem [])
  · exact absurd hopens.1 hno
  · exact absurd hopens hno
  · obtain ⟨_, ⟨hmalloc, -⟩ | ⟨hzero, -⟩, -⟩ | ⟨-, -, evt, ⟨-, hfail⟩ | rfl, hstart⟩ :=
      startTransfer_cases .ok [] ((OadState.boot mem []).accepted request)
    · cases hmalloc
    · exact absurd hzero htotal
    · exact absurd (erasePages_ok (fun _ => rfl) rfl) hfail
    · right
      rw [heq, hstart]
      rfl

/-- Where every call admits exactly, the number of blocks fits. -/
theorem AdmittedExactly.countFits (hadmits : AdmittedExactly dev request) :
    CountFits dev request := by
  intro hnotif hsize hacc
  have hfwv : isFwvRequest request = false := by
    unfold isNotifRequest at hnotif
    unfold isFwvRequest
    cases hcode : request.msgCode <;> simp [hcode] at hnotif ⊢
  have hstore : StoresInfo (.boot (fun _ => 0) []) request := ⟨hfwv, rfl, hnotif, hsize⟩
  have hopens : OpensTransfer dev .ok (.boot (fun _ => 0) []) request := ⟨hstore, hacc, rfl⟩
  have hcall := hadmits .ok [] (.boot (fun _ => 0) [])
  refine ⟨hcall.divisor ⟨hopens, rfl⟩, ?_⟩
  by_contra hbad
  obtain ⟨hlarge, hbits⟩ := not_or.mp hbad
  have htotal : totalBlocksOf (.ofBytes request.payloadPtr) ≠ 0 := by
    rw [totalBlocksOf_eq]
    exact hbits
  have hstarts := starts_of_total hopens htotal
  have hexact := hcall.total hstarts
  rw [(starts_cases hstarts).2.2] at hexact
  have hlt := totalBlocksOf_lt (.ofBytes request.payloadPtr)
  omega

/-- Where the number of blocks fits, every call admits exactly. -/
theorem CountFits.admits (hfits : CountFits dev request) : AdmittedExactly dev request := by
  intro env addr s
  have hchecked := fun hopens : OpensTransfer dev env s request =>
    hfits hopens.1.2.2.1 hopens.1.2.2.2 hopens.2.1
  have hexact : Starts s (coapOadCb dev env addr request s).1 →
      0 < (OadNotifReqMsg.ofBytes request.payloadPtr).blockLen ∧
      (coapOadCb dev env addr request s).1.handle.totalBlocks =
        blockCount (OadNotifReqMsg.ofBytes request.payloadPtr).imageLen
          (OadNotifReqMsg.ofBytes request.payloadPtr).blockLen ∧
      blockCount (OadNotifReqMsg.ofBytes request.payloadPtr).imageLen
        (OadNotifReqMsg.ofBytes request.payloadPtr).blockLen ≠ 0 := by
    intro hstarts
    obtain ⟨hdivides, htotal, hkept⟩ := starts_cases hstarts
    obtain ⟨hpos, hcount⟩ := hchecked hdivides.1
    have hquotient := totalBlocksOf_exact htotal hcount
    exact ⟨Nat.pos_of_ne_zero hpos, hkept.trans hquotient, hquotient ▸ htotal⟩
  exact
    { divisor := fun hdivides => (hchecked hdivides.1).1
      positive := fun hstarts => (hexact hstarts).1
      total := fun hstarts => (hexact hstarts).2.1
      reaches := fun hstarts => by
        obtain ⟨hpos, htotal, hne⟩ := hexact hstarts
        rw [htotal]
        exact (blockCount_bounds hpos hne).1
      needed := fun hstarts => by
        obtain ⟨hpos, htotal, hne⟩ := hexact hstarts
        rw [htotal]
        exact (blockCount_bounds hpos hne).2 }

/-- **Admission.**  Every call with a notification divides by a length that is not zero, and
starts a transfer only with the exact number of blocks, if and only if the notification is
turned down or its number of blocks fits. -/
theorem admittedExactly_iff (dev : Device) (request : CoapHdr) :
    AdmittedExactly dev request ↔ CountFits dev request :=
  ⟨AdmittedExactly.countFits, CountFits.admits⟩

/-- A notification of 65537 blocks of one byte. -/
def longNotif : CoapHdr :=
  .ofBytes .requestPut oadNotifUri
    [123, 26, 1, 0, 0x01, 0x00, 0x01, 0x00, 2, 0, 0, 0, 0, 0, 0, 0]

/-- A notification of blocks of no byte. -/
def emptyNotif : CoapHdr :=
  .ofBytes .requestPut oadNotifUri [123, 26, 0, 0, 2, 0, 0, 0, 2, 0, 0, 0, 0, 0, 0, 0]

/-- Both are accepted; one starts a transfer of one block, the other divides by zero. -/
theorem not_admittedExactly :
    ¬ AdmittedExactly sampleDevice longNotif ∧ totalBlocksOf (.ofBytes longNotif.payloadPtr) = 1 ∧
      ¬ AdmittedExactly sampleDevice emptyNotif := by
  refine ⟨fun h => ?_, by decide, fun h => ?_⟩
  · exact absurd (h.countFits (by decide) (by decide) (by decide)).2 (by decide)
  · exact absurd (h.countFits (by decide) (by decide) (by decide)).1 (by decide)

end Oad
