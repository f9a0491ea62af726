import Mathlib.Algebra.GroupWithZero.Nat
import Mathlib.Data.List.Basic
import Mathlib.Tactic.Common

/-!
# The headers of a 6LoWPAN datagram

Fragments are described in terms of the uncompressed datagram.  What the receiver
needs for that is `iphc_header_scan`: how long the compressed headers at the front of a
datagram are, and how long they were before.

* `iphcHeaderScan_take` — it sees the same in every fragment that has all the headers;
* `iphcHeaderScan_growth` — compression loses little: a header is at most a few bytes
  longer than what it stands for.
-/

namespace Lowpan

/-- The bytes of an IPHC header behind the first two, where the multicast compression is
known. -/
def iphcInline (b0 b1 : UInt8) : Option Nat :=
  let context := if b1 &&& 0x80 ≠ 0 then 1 else 0
  let trafficFlow :=
    if b0 &&& 0x18 = 0x00 then 4
    else if b0 &&& 0x18 = 0x08 then 3
    else if b0 &&& 0x18 = 0x10 then 1
    else 0
  let nextHeader := if b0 &&& 0x04 = 0 then 1 else 0
  let hopLimit := if b0 &&& 0x03 = 0 then 1 else 0
  let source :=
    if b1 &&& 0x30 = 0x00 then if b1 &&& 0x40 = 0 then 16 else 0
    else if b1 &&& 0x30 = 0x10 then 8
    else if b1 &&& 0x30 = 0x20 then 2
    else 0
  let destination :=
    if b1 &&& 0x08 ≠ 0 then
      if b1 &&& 0x07 = 0x00 then some 16
      else if b1 &&& 0x07 = 0x01 ∨ b1 &&& 0x07 = 0x04 then some 6
      else if b1 &&& 0x07 = 0x02 then some 4
      else if b1 &&& 0x07 = 0x03 then some 1
      else none
    else if b1 &&& 0x03 = 0x00 then some 16
    else if b1 &&& 0x03 = 0x01 then some 8
    else if b1 &&& 0x03 = 0x02 then some 2
    else some 0
  destination.map fun n => context + trafficFlow + nextHeader + hopLimit + source + n

/-- The bytes of a compressed UDP header behind its identifier. -/
def udpInline (id : UInt8) : Nat :=
  (if id &&& 0x04 = 0 then 2 else 0) +
    (if id &&& 0x03 = 0 then 4 else if id &&& 0x03 = 3 then 1 else 3)

/-- What a header says of the one behind it: it starts at `pos`, `uncomp` bytes of
uncompressed headers lie before it. -/
structure Place where
  pos : Nat
  uncomp : Nat

/-- The kinds of header there may be at a place. -/
inductive Next
  | iphc (p : Place)
  | nhc (p : Place)
  | finish (p : Place)
  /-- Truncated, or nothing that is known. -/
  | fail

/-- `IPv6START` -/
def iphcNext (bytes : List UInt8) (p : Place) : Next :=
  if p.pos + 2 > bytes.length then .fail
  else
    let b0 := bytes.getD p.pos 0
    if b0 &&& 0xE0 ≠ 0x60 then .fail
    else
      match iphcInline b0 (bytes.getD (p.pos + 1) 0) with
      | none => .fail
      | some n =>
          let p : Place := ⟨p.pos + 2 + n, p.uncomp + 40⟩
          if b0 &&& 0x04 ≠ 0 then .nhc p else .finish p

/-- Another compressed header follows, or none does. -/
def Next.behind (more : Bool) (p : Place) : Next := if more then .nhc p else .finish p

/-- An extension header whose length, or the next header in front of it, is at `pos`. -/
def extNext (bytes : List UInt8) (id : UInt8) (pos uncomp : Nat) : Next :=
  let more := decide (id &&& 0x01 ≠ 0)
  let pos := pos + (!more).toNat
  if pos ≥ bytes.length then .fail
  else if id &&& 0xFE = 0xE4 then .behind more ⟨pos + 7, uncomp + 8⟩
  else
    let len := (bytes.getD pos 0).toNat
    .behind more ⟨pos + 1 + len, uncomp + (2 + len + 7) / 8 * 8⟩

/-- One turn of the loop over the following headers. -/
def nhcNext (bytes : List UInt8) (p : Place) : Next :=
  if p.pos ≥ bytes.length then .fail
  else
    let id := bytes.getD p.pos 0
    if id &&& 0xF0 = 0xE0 then
      if id &&& 0xFE = 0xEE then .iphc ⟨p.pos + 1, p.uncomp⟩
      else if id &&& 0xFE = 0xE0 ∨ id &&& 0xFE = 0xE2 ∨ id &&& 0xFE = 0xE4 ∨
          id &&& 0xFE = 0xE6 ∨ id &&& 0xFE = 0xE8 then
        extNext bytes id (p.pos + 1) p.uncomp
      else .finish ⟨p.pos + 1, p.uncomp⟩
    else if id &&& 0xF8 = 0xF0 then .finish ⟨p.pos + 1 + udpInline id, p.uncomp + 8⟩
    else .finish ⟨p.pos + 1, p.uncomp⟩

/-- The headers from one on.  Each takes at least a byte, so the length is fuel
enough. -/
def scanFrom (bytes : List UInt8) : Nat → Next → Nat × Nat
  | 0, _ => (0, 0)
  | _ + 1, .fail => (0, 0)
  | _ + 1, .finish p => if p.pos > bytes.length then (0, 0) else (p.pos, p.uncomp)
  | fuel + 1, .iphc p => scanFrom bytes fuel (iphcNext bytes p)
  | fuel + 1, .nhc p => scanFrom bytes fuel (nhcNext bytes p)

/-- `iphc_header_scan`: the sizes of the compressed headers and of the uncompressed
ones, of 16 bits. -/
def iphcHeaderScan (bytes : List UInt8) : Nat × Nat :=
  if bytes.head? = some 0x41 then (1, 0)
  else
    let r := scanFrom bytes (bytes.length + 2) (.iphc ⟨0, 0⟩)
    (r.1, r.2 % 2 ^ 16)

/-! ## Places move on -/

/-- Where the next header starts. -/
def Next.pos : Next → Nat
  | .iphc p | .nhc p | .finish p => p.pos
  | .fail => 0

/-- The loop does not go on. -/
def Next.isFail : Next → Bool
  | .fail => true
  | _ => false

theorem iphcNext_pos {bytes : List UInt8} {p : Place} (h : (iphcNext bytes p).isFail = false) :
    p.pos + 2 ≤ (iphcNext bytes p).pos := by
  unfold iphcNext at h ⊢
  dsimp only at h ⊢
  split at h
  · cases h
  · rename_i hroom
    rw [if_neg hroom]
    split at h
    · cases h
    · rename_i hid
      rw [if_neg hid]
      cases hn : iphcInline (bytes.getD p.pos 0) (bytes.getD (p.pos + 1) 0) with
      | none =>
          rw [hn] at h
          cases h
      | some n =>
          dsimp only
          split <;> simp only [Next.pos] <;> omega

@[simp] theorem pos_behind (more : Bool) (p : Place) : (Next.behind more p).pos = p.pos := by
  cases more <;> rfl

theorem extNext_pos {bytes : List UInt8} {id : UInt8} {pos uncomp : Nat}
    (h : (extNext bytes id pos uncomp).isFail = false) :
    pos + (!decide (id &&& 0x01 ≠ 0)).toNat < (extNext bytes id pos uncomp).pos := by
  unfold extNext at h ⊢
  dsimp only at h ⊢
  split at h
  · cases h
  · rename_i hin
    rw [if_neg hin]
    split <;> rw [pos_behind] <;> dsimp only <;> omega

theorem nhcNext_pos {bytes : List UInt8} {p : Place} (h : (nhcNext bytes p).isFail = false) :
    p.pos < (nhcNext bytes p).pos := by
  unfold nhcNext at h ⊢
  dsimp only at h ⊢
  split at h
  · cases h
  · rename_i hroom
    rw [if_neg hroom]
    split
    · rename_i hext
      rw [if_pos hext] at h
      split
      · simp only [Next.pos]
        omega
      · rename_i hip
        rw [if_neg hip] at h
        split
        · rename_i hknown
          rw [if_pos hknown] at h
          have := extNext_pos h
          omega
        · simp only [Next.pos]
          omega
    · split <;> simp only [Next.pos] <;> omega

/-- What is found ends behind the header it starts with. -/
theorem scanFrom_pos (bytes : List UInt8) (fuel : Nat) (next : Next)
    (h : (scanFrom bytes fuel next).1 ≠ 0) :
    next.isFail = false ∧ next.pos ≤ (scanFrom bytes fuel next).1 := by
  induction fuel generalizing next with
  | zero => exact absurd rfl h
  | succ fuel ih =>
      cases next with
      | fail => exact absurd rfl h
      | finish p =>
          refine ⟨rfl, ?_⟩
          unfold scanFrom at h ⊢
          split at h
          · exact absurd rfl h
          · rename_i hin
            rw [if_neg hin]
            exact Nat.le_refl _
      | iphc p =>
          obtain ⟨hok, hle⟩ := ih _ h
          have hpos := iphcNext_pos hok
          exact ⟨rfl, show p.pos ≤ _ from Nat.le_trans (by omega) hle⟩
      | nhc p =>
          obtain ⟨hok, hle⟩ := ih _ h
          have hpos := nhcNext_pos hok
          exact ⟨rfl, show p.pos ≤ _ from Nat.le_trans (Nat.le_of_lt hpos) hle⟩

/-- The headers lie in the datagram. -/
theorem iphcHeaderScan_le (bytes : List UInt8) : (iphcHeaderScan bytes).1 ≤ bytes.length := by
  have hscan (fuel : Nat) (next : Next) : (scanFrom bytes fuel next).1 ≤ bytes.length := by
    induction fuel generalizing next with
    | zero => exact Nat.zero_le _
    | succ fuel ih =>
        cases next with
        | fail => exact Nat.zero_le _
        | finish p =>
            unfold scanFrom
            split
            · exact Nat.zero_le _
            · rename_i hin
              exact Nat.le_of_not_lt hin
        | iphc p => exact ih _
        | nhc p => exact ih _
  unfold iphcHeaderScan
  dsimp only
  split
  · rename_i hraw
    cases bytes with
    | nil => cases hraw
    | cons b bs => simp
  · exact hscan _ _

/-! ## Fragments with all the headers -/

theorem getD_take (bytes : List UInt8) {n i : Nat} (h : i < n) :
    (bytes.take n).getD i 0 = bytes.getD i 0 := by
  rw [List.getD_eq_getElem?_getD, List.getD_eq_getElem?_getD, List.getElem?_take_of_lt h]

theorem iphcNext_take {bytes : List UInt8} {p : Place} {n : Nat} (h : p.pos + 2 ≤ n) :
    iphcNext (bytes.take n) p = iphcNext bytes p := by
  have hroom : p.pos + 2 > (bytes.take n).length ↔ p.pos + 2 > bytes.length := by
    rw [List.length_take]
    omega
  unfold iphcNext
  simp only [hroom]
  rw [getD_take bytes (by omega), getD_take bytes (by omega)]

theorem extNext_take {bytes : List UInt8} {id : UInt8} {pos uncomp n : Nat}
    (hok : (extNext bytes id pos uncomp).isFail = false)
    (h : (extNext bytes id pos uncomp).pos ≤ n) :
    extNext (bytes.take n) id pos uncomp = extNext bytes id pos uncomp := by
  have hpos := extNext_pos hok
  unfold extNext
  dsimp only
  generalize pos + (!decide (id &&& 0x01 ≠ 0)).toNat = q at *
  have hroom : q ≥ (bytes.take n).length ↔ q ≥ bytes.length := by
    rw [List.length_take]
    omega
  simp only [hroom, getD_take bytes (show q < n by omega)]

theorem nhcNext_take {bytes : List UInt8} {p : Place} {n : Nat}
    (hok : (nhcNext bytes p).isFail = false) (h : (nhcNext bytes p).pos ≤ n) :
    nhcNext (bytes.take n) p = nhcNext bytes p := by
  have hpos := nhcNext_pos hok
  have hroom : p.pos ≥ (bytes.take n).length ↔ p.pos ≥ bytes.length := by
    rw [List.length_take]
    omega
  have hid := getD_take bytes (show p.pos < n by omega)
  unfold nhcNext at hok h ⊢
  dsimp only at hok h ⊢
  simp only [hroom, hid]
  split
  · rfl
  · rename_i hin
    rw [if_neg hin] at hok h
    split
    · rename_i hext
      rw [if_pos hext] at hok h
      split
      · rfl
      · rename_i hip
        rw [if_neg hip] at hok h
        split
        · rename_i hknown
          rw [if_pos hknown] at hok h
          exact extNext_take hok h
        · rfl
    · rfl

theorem scanFrom_take (bytes : List UInt8) (n fuel : Nat) (next : Next) (fuel' : Nat)
    (h : (scanFrom bytes fuel next).1 ≠ 0) (hle : (scanFrom bytes fuel next).1 ≤ n)
    (hfuel : n + 2 ≤ fuel' + next.pos) :
    scanFrom (bytes.take n) fuel' next = scanFrom bytes fuel next := by
  induction fuel generalizing fuel' next with
  | zero => exact absurd rfl h
  | succ fuel ih =>
      have hin := (scanFrom_pos bytes _ next h).2
      obtain ⟨fuel', rfl⟩ : ∃ f, fuel' = f + 1 := ⟨fuel' - 1, by omega⟩
      cases next with
      | fail => rfl
      | finish p =>
          have hsame : p.pos > (bytes.take n).length ↔ p.pos > bytes.length := by
            have : p.pos ≤ n := Nat.le_trans hin hle
            rw [List.length_take]
            omega
          simp only [scanFrom, hsame]
      | iphc p =>
          obtain ⟨hok, hpos⟩ := scanFrom_pos bytes fuel (iphcNext bytes p) h
          have hle' : (scanFrom bytes fuel (iphcNext bytes p)).1 ≤ n := hle
          have := iphcNext_pos hok
          simp only [scanFrom]
          rw [iphcNext_take (by omega)]
          simp only [Next.pos] at hfuel
          exact ih _ _ h hle (by omega)
      | nhc p =>
          obtain ⟨hok, hpos⟩ := scanFrom_pos bytes fuel (nhcNext bytes p) h
          have hle' : (scanFrom bytes fuel (nhcNext bytes p)).1 ≤ n := hle
          have := nhcNext_pos hok
          simp only [scanFrom]
          rw [nhcNext_take hok (by omega)]
          simp only [Next.pos] at hfuel
          exact ih _ _ h hle (by omega)

/-- **A fragment with all the headers shows them as the whole datagram does.** -/
theorem iphcHeaderScan_take (bytes : List UInt8) (n : Nat) (h : (iphcHeaderScan bytes).1 ≠ 0)
    (hle : (iphcHeaderScan bytes).1 ≤ n) :
    iphcHeaderScan (bytes.take n) = iphcHeaderScan bytes := by
  unfold iphcHeaderScan at h hle ⊢
  dsimp only at h hle ⊢
  by_cases hraw : bytes.head? = some 0x41
  · rw [if_pos hraw] at hle
    have hhead : (bytes.take n).head? = bytes.head? := by
      cases bytes with
      | nil => rw [List.take_nil]
      | cons b bs =>
          obtain ⟨n, rfl⟩ : ∃ m, n = m + 1 := ⟨n - 1, by dsimp only at hle; omega⟩
          rfl
    rw [hhead, if_pos hraw, if_pos hraw]
  · rw [if_neg hraw] at h hle
    have hhead : ¬(bytes.take n).head? = some 0x41 := by
      intro hne
      apply hraw
      cases bytes with
      | nil =>
          rw [List.take_nil] at hne
          exact hne
      | cons b bs =>
          cases n with
          | zero => cases hne
          | succ n => exact hne
    rw [if_neg hhead, if_neg hraw]
    have hlong : n ≤ bytes.length → (bytes.take n).length = n := by
      intro hn
      rw [List.length_take]
      omega
    by_cases hn : n ≤ bytes.length
    · rw [hlong hn, scanFrom_take bytes n _ _ (n + 2) h hle (by simp [Next.pos])]
    · rw [List.take_of_length_le (by omega)]

/-! ## What compression gains -/

/-- The uncompressed headers are hardly shorter than the compressed ones, and not much
longer; a header may begin one byte later than the rule allows it to end. -/
def Next.Balanced : Next → Prop
  | .nhc p => 19 * p.pos ≤ 20 * p.uncomp ∧ p.uncomp ≤ 20 * p.pos
  | .iphc p | .finish p => 19 * p.pos ≤ 20 * p.uncomp + 19 ∧ p.uncomp ≤ 20 * p.pos
  | .fail => True

theorem iphcInline_le {b0 b1 : UInt8} {n : Nat} (h : iphcInline b0 b1 = some n) :
    n ≤ 39 ∧ (b0 &&& 0x04 ≠ 0 → n ≤ 38) := by
  unfold iphcInline at h
  dsimp only at h
  obtain ⟨d, hd, rfl⟩ := Option.map_eq_some_iff.mp h
  have hdest : d ≤ 16 := by
    revert hd
    split_ifs <;> intro hd <;> cases hd <;> omega
  have hcontext : (if b1 &&& 0x80 ≠ 0 then 1 else 0) ≤ 1 := by split <;> omega
  have hflow : (if b0 &&& 0x18 = 0x00 then 4 else if b0 &&& 0x18 = 0x08 then 3
      else if b0 &&& 0x18 = 0x10 then 1 else 0) ≤ 4 := by split_ifs <;> omega
  have hhop : (if b0 &&& 0x03 = 0 then 1 else 0) ≤ 1 := by split <;> omega
  have hsource : (if b1 &&& 0x30 = 0x00 then if b1 &&& 0x40 = 0 then 16 else 0
      else if b1 &&& 0x30 = 0x10 then 8
      else if b1 &&& 0x30 = 0x20 then 2 else 0) ≤ 16 := by split_ifs <;> omega
  by_cases hnext : b0 &&& 0x04 = 0
  · rw [if_pos hnext]
    exact ⟨by omega, fun hne => absurd hnext hne⟩
  · rw [if_neg hnext]
    exact ⟨by omega, fun _ => by omega⟩

theorem iphcNext_balanced {bytes : List UInt8} {p : Place} (h : Next.Balanced (.iphc p)) :
    (iphcNext bytes p).Balanced := by
  have h : 19 * p.pos ≤ 20 * p.uncomp + 19 ∧ p.uncomp ≤ 20 * p.pos := h
  unfold iphcNext
  dsimp only
  split
  · trivial
  · split
    · trivial
    · cases hn : iphcInline (bytes.getD p.pos 0) (bytes.getD (p.pos + 1) 0) with
      | none => trivial
      | some n =>
          obtain ⟨hle, hmore⟩ := iphcInline_le hn
          dsimp only
          split
          · rename_i hnext
            have := hmore hnext
            exact ⟨by dsimp only; omega, by dsimp only; omega⟩
          · exact ⟨by dsimp only; omega, by dsimp only; omega⟩

theorem extNext_balanced {bytes : List UInt8} {id : UInt8} {pos uncomp : Nat}
    (h : 19 * pos ≤ 20 * uncomp + 19 ∧ uncomp + 20 ≤ 20 * pos) :
    (extNext bytes id pos uncomp).Balanced := by
  unfold extNext
  dsimp only
  cases decide (id &&& 0x01 ≠ 0) <;>
    simp only [Next.behind, Bool.not_true, Bool.not_false, Bool.toNat_true, Bool.toNat_false]
  all_goals
    split
    · trivial
    · split
      · constructor <;> simp only <;> omega
      · constructor <;> simp only <;> omega

theorem nhcNext_balanced {bytes : List UInt8} {p : Place} (h : Next.Balanced (.nhc p)) :
    (nhcNext bytes p).Balanced := by
  have h : 19 * p.pos ≤ 20 * p.uncomp ∧ p.uncomp ≤ 20 * p.pos := h
  have hudp (id : UInt8) : udpInline id ≤ 6 := by
    unfold udpInline
    split_ifs <;> omega
  unfold nhcNext
  dsimp only
  split
  · trivial
  · split
    · split
      · constructor <;> simp only <;> omega
      · split
        · apply extNext_balanced
          constructor <;> omega
        · constructor <;> simp only <;> omega
    · split
      · have := hudp (bytes.getD p.pos 0)
        constructor <;> simp only <;> omega
      · constructor <;> simp only <;> omega

theorem scanFrom_balanced (bytes : List UInt8) (fuel : Nat) (next : Next) (h : next.Balanced) :
    19 * (scanFrom bytes fuel next).1 ≤ 20 * (scanFrom bytes fuel next).2 + 19 ∧
      (scanFrom bytes fuel next).2 ≤ 20 * (scanFrom bytes fuel next).1 := by
  induction fuel generalizing next with
  | zero => exact ⟨by simp [scanFrom], by simp [scanFrom]⟩
  | succ fuel ih =>
      cases next with
      | fail => exact ⟨by simp [scanFrom], by simp [scanFrom]⟩
      | finish p =>
          unfold scanFrom
          split
          · exact ⟨by simp, by simp⟩
          · exact h
      | iphc p => exact ih _ (iphcNext_balanced h)
      | nhc p => exact ih _ (nhcNext_balanced h)

/-- **Compression loses little**, as long as the uncompressed headers have a length. -/
theorem iphcHeaderScan_growth (bytes : List UInt8) (h : (iphcHeaderScan bytes).1 < 2 ^ 8) :
    19 * (iphcHeaderScan bytes).1 ≤ 20 * (iphcHeaderScan bytes).2 + 19 := by
  unfold iphcHeaderScan at h ⊢
  dsimp only at h ⊢
  split
  · exact Nat.le_refl _
  · rename_i hraw
    rw [if_neg hraw] at h
    have hbalanced := scanFrom_balanced bytes (bytes.length + 2) (.iphc ⟨0, 0⟩)
      ⟨by decide, by decide⟩
    dsimp only at h ⊢
    rw [Nat.mod_eq_of_lt (by omega)]
    exact hbalanced.1

end Lowpan
