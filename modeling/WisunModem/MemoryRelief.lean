import Mathlib.Algebra.GroupWithZero.Nat
import Mathlib.Data.List.Basic
import Mathlib.Tactic.Common

/-!
# Memory relief

When memory runs short the adaptation layer gives up packets that wait to be
sent, the last of the queue first, and keeps a reserve.  The amount to be freed
is cut down to what lies above the reserve; the comparison that decides whether
to cut it subtracts in 32 bits, and a request for more than the whole queue wraps
around and is not cut down.
-/

namespace Lowpan

/-- `buffer_priority_t`. -/
inductive BufferPriority
  | normal | high | networkCtrl | expediteForward | macBeacon
deriving DecidableEq, Repr

/-- The value of the enumerator. -/
def BufferPriority.toNat : BufferPriority → Nat
  | normal => 0
  | high => 1
  | networkCtrl => 2
  | expediteForward => 3
  | macBeacon => 4

/-- What the function reads of a `buffer_t`. -/
structure Buffer where
  size : UInt16
  priority : BufferPriority
deriving DecidableEq, Repr

/-- `LOWPAN_MEM_LIMIT_MIN_QUEUE`. -/
def memLimitMinQueue : Nat := 10

/-- `LOWPAN_MEM_LIMIT_MIN_MEMORY`. -/
def memLimitMinMemory : Nat := 10000

section Relief

-- `sizeof(buffer_t)`
variable (sizeofBuffer : Nat)

/-- What a buffer takes of the memory. -/
def Buffer.cost (entry : Buffer) : Nat := sizeofBuffer + entry.size.toNat

/-- What a list of buffers takes of the memory. -/
def memory (entries : List Buffer) : Nat := (entries.map (Buffer.cost sizeofBuffer)).sum

@[simp] theorem memory_nil : memory sizeofBuffer [] = 0 := by
  simp [memory]

@[simp] theorem memory_cons (entry : Buffer) (entries : List Buffer) :
    memory sizeofBuffer (entry :: entries)
      = entry.cost sizeofBuffer + memory sizeofBuffer entries := by
  simp [memory]

@[simp] theorem memory_append (xs ys : List Buffer) :
    memory sizeofBuffer (xs ++ ys) = memory sizeofBuffer xs + memory sizeofBuffer ys := by
  simp [memory]

@[simp] theorem memory_reverse (xs : List Buffer) :
    memory sizeofBuffer xs.reverse = memory sizeofBuffer xs := by
  simp [memory, List.sum_reverse]

/-- The direct transmit queue of an interface: buffers that lie in a memory of 32-bit
addresses, and the counter of them. -/
structure TxQueue where
  directTxQueue : List Buffer
  directTxQueueSize : UInt16
  counted : directTxQueueSize.toNat = directTxQueue.length
  fits : memory sizeofBuffer directTxQueue < 2 ^ 32

/-- The priority of the entry allows its removal. -/
def Buffer.Low (maxPriority : BufferPriority) (entry : Buffer) : Bool :=
  entry.priority.toNat ≤ maxPriority.toNat

/-- What the loop leaves of the queue and what it has given up, in the order of the loop. -/
structure Relief where
  kept : List Buffer
  failed : List Buffer
deriving DecidableEq, Repr

/-- The loop over the queue, whose last entry is the head of `entries`. -/
def freeLoop (maxPriority : BufferPriority) (requestedAmount : UInt32) :
    UInt32 → List Buffer → Relief
  | _, [] => ⟨[], []⟩
  | memoryFreed, entry :: entries =>
    let removed := entry.Low maxPriority
    let memoryFreed := if removed then memoryFreed + .ofNat (entry.cost sizeofBuffer) else memoryFreed
    let rest := if memoryFreed > requestedAmount then ⟨entries, []⟩
      else freeLoop maxPriority requestedAmount memoryFreed entries
    if removed then ⟨rest.kept, entry :: rest.failed⟩ else ⟨entry :: rest.kept, rest.failed⟩

/-- `adaptation_memory`. -/
def adaptationMemory (entries : List Buffer) : UInt32 :=
  entries.foldl (fun total entry => total + .ofNat (entry.cost sizeofBuffer)) 0

/-- The amount that the loop works with. -/
def reducedAmount (adaptationMemory requestedAmount : UInt32) : UInt32 :=
  if adaptationMemory - requestedAmount < .ofNat memLimitMinMemory then
    adaptationMemory - .ofNat memLimitMinMemory
  else requestedAmount

/-- `lowpan_adaptation_free_low_priority_packets` on the queue of the interface: the packets
that stay and those that are freed, in this order. -/
def freeLowPriorityPackets (maxPriority : BufferPriority) (requestedAmount : UInt32)
    (q : TxQueue sizeofBuffer) : Relief :=
  if q.directTxQueueSize.toNat < memLimitMinQueue then ⟨q.directTxQueue, []⟩
  else if adaptationMemory sizeofBuffer q.directTxQueue < .ofNat memLimitMinMemory then
    ⟨q.directTxQueue, []⟩
  else
    let relief := freeLoop sizeofBuffer maxPriority
      (reducedAmount (adaptationMemory sizeofBuffer q.directTxQueue) requestedAmount) 0
      q.directTxQueue.reverse
    ⟨relief.kept.reverse, relief.failed⟩

/-- What `lowpan_adaptation_free_heap` asks of an interface, which may be in the state of
high priority: the priority and the amount. -/
def heapRequest (fullGc lastRxHighPriority : Bool) : BufferPriority × UInt32 :=
  if fullGc && lastRxHighPriority then (.networkCtrl, 20000)
  else if lastRxHighPriority then (.networkCtrl, 10000)
  else if fullGc then (.normal, 10000)
  else (.normal, 3000)

/-- From the back of the queue, packets of low priority are given up until more than the
limit is freed: the last step was needed, and further ones are not. -/
def TakesBack (maxPriority : BufferPriority) (limit : Nat) (entries : List Buffer) (r : Relief) :
    Prop :=
  ∃ front back, entries = front ++ back ∧
    r.kept = front ++ back.filter (fun entry => !entry.Low maxPriority) ∧
    r.failed = (back.filter (Buffer.Low maxPriority)).reverse ∧
    (front = [] ∨ limit < memory sizeofBuffer r.failed) ∧
    ∀ entry rest, back = entry :: rest →
      memory sizeofBuffer (rest.filter (Buffer.Low maxPriority)) ≤ limit

/-- The queue is below the minimum that is reserved for operations. -/
def BelowMinimum (entries : List Buffer) : Prop :=
  entries.length < memLimitMinQueue ∨ memory sizeofBuffer entries < memLimitMinMemory

/-- **The reserve is kept.**  Below the minimum nothing is removed; else the back of the queue
gives up low priorities, as little as gets over the smaller of the amount and the memory
above the minimum. -/
structure Relieved (maxPriority : BufferPriority) (requestedAmount : Nat) (entries : List Buffer)
    (r : Relief) : Prop where
  below : BelowMinimum sizeofBuffer entries → r = ⟨entries, []⟩
  back : ¬ BelowMinimum sizeofBuffer entries → TakesBack sizeofBuffer maxPriority
    (min requestedAmount (memory sizeofBuffer entries - memLimitMinMemory)) entries r
  bounded : memory sizeofBuffer r.failed.dropLast
    ≤ min requestedAmount (memory sizeofBuffer entries - memLimitMinMemory)

/-- The request is not above the memory of the queue, or so far above that the difference
wraps below the minimum, or the packets of low priority but the first take no more than the
memory above the minimum. -/
def RequestFits (maxPriority : BufferPriority) (requestedAmount : Nat) (entries : List Buffer) :
    Prop :=
  BelowMinimum sizeofBuffer entries ∨ requestedAmount ≤ memory sizeofBuffer entries ∨
    2 ^ 32 - memLimitMinMemory + memory sizeofBuffer entries < requestedAmount ∨
    memory sizeofBuffer (entries.filter (Buffer.Low maxPriority)).tail
      ≤ memory sizeofBuffer entries - memLimitMinMemory

theorem memory_filter_le (p : Buffer → Bool) (entries : List Buffer) :
    memory sizeofBuffer (entries.filter p) ≤ memory sizeofBuffer entries := by
  induction entries with
  | nil => simp
  | cons entry entries ih =>
    by_cases hp : p entry
    · rw [List.filter_cons_of_pos hp, memory_cons, memory_cons]
      omega
    · rw [List.filter_cons_of_neg hp, memory_cons]
      omega

variable {sizeofBuffer} {maxPriority : BufferPriority} {entries : List Buffer}

/-- A sum that stays in 32 bits is exact. -/
theorem toNat_add_cost {freed : UInt32} {entry : Buffer}
    (hfits : freed.toNat + entry.cost sizeofBuffer < 2 ^ 32) :
    (freed + .ofNat (entry.cost sizeofBuffer)).toNat
      = freed.toNat + entry.cost sizeofBuffer := by
  rw [UInt32.toNat_add, UInt32.toNat_ofNat']
  omega

/-- The memory of the queue is added up exactly. -/
theorem adaptationMemory_toNat (hfits : memory sizeofBuffer entries < 2 ^ 32) :
    (adaptationMemory sizeofBuffer entries).toNat = memory sizeofBuffer entries := by
  have hsum : ∀ (entries : List Buffer) (total : UInt32),
      total.toNat + memory sizeofBuffer entries < 2 ^ 32 →
        (entries.foldl (fun total entry => total + .ofNat (entry.cost sizeofBuffer)) total).toNat
          = total.toNat + memory sizeofBuffer entries := by
    intro entries
    induction entries with
    | nil => simp
    | cons entry entries ih =>
      intro total htotal
      rw [memory_cons] at htotal ⊢
      have hroom : total.toNat + entry.cost sizeofBuffer < 2 ^ 32 := by omega
      have hadd := toNat_add_cost hroom
      rw [List.foldl_cons, ih _ (by omega), hadd]
      omega
  have hzero : (0 : UInt32).toNat = 0 := rfl
  have hall := hsum entries 0 (by omega)
  rw [adaptationMemory, hall]
  omega

/-- **The loop.**  It takes what it visits until the freed memory is over the amount, and
keeps the rest. -/
theorem freeLoop_spec (amount : UInt32) (entries : List Buffer) :
    ∀ freed : UInt32, freed.toNat + memory sizeofBuffer entries < 2 ^ 32 →
      freed.toNat ≤ amount.toNat →
      ∃ taken left, entries = taken ++ left ∧
        freeLoop sizeofBuffer maxPriority amount freed entries
          = ⟨taken.filter (fun entry => !entry.Low maxPriority) ++ left,
              taken.filter (Buffer.Low maxPriority)⟩ ∧
        (left = [] ∨ amount.toNat
          < freed.toNat + memory sizeofBuffer (taken.filter (Buffer.Low maxPriority))) ∧
        ∀ init last, taken = init ++ [last] →
          freed.toNat + memory sizeofBuffer (init.filter (Buffer.Low maxPriority))
            ≤ amount.toNat := by
  induction entries with
  | nil =>
    intro freed _ _
    exact ⟨[], [], by simp [freeLoop]⟩
  | cons entry entries ih =>
    intro freed hfits hfreed
    rw [memory_cons] at hfits
    have hroom : freed.toNat + entry.cost sizeofBuffer < 2 ^ 32 := by omega
    have hadd := toNat_add_cost hroom
    let freed' := if entry.Low maxPriority then freed + .ofNat (entry.cost sizeofBuffer) else freed
    have hfreed' : freed'.toNat
        = freed.toNat + memory sizeofBuffer ([entry].filter (Buffer.Low maxPriority)) := by
      by_cases hlow : entry.Low maxPriority
      · simp [freed', hlow, hadd]
      · simp [freed', hlow]
    have hcost := memory_filter_le sizeofBuffer (Buffer.Low maxPriority) [entry]
    rw [memory_cons, memory_nil] at hcost
    by_cases hstop : freed' > amount
    · refine ⟨[entry], entries, rfl, ?_, .inr ?_, ?_⟩
      · cases hlow : entry.Low maxPriority with
        | true =>
          simp only [hlow, freed', if_pos] at hstop
          simp [freeLoop, hlow, hstop]
        | false =>
          simp only [hlow, freed', Bool.false_eq_true, if_false] at hstop
          simp [freeLoop, hlow, hstop]
      · rw [← hfreed']
        exact hstop
      · intro init last heq
        cases init with
        | nil => simpa using hfreed
        | cons _ _ => simp at heq
    · have hle : freed'.toNat ≤ amount.toNat := Nat.le_of_not_lt hstop
      obtain ⟨taken, left, rfl, hloop, hover, hneeded⟩ := ih freed' (by omega) hle
      refine ⟨entry :: taken, left, rfl, ?_, ?_, ?_⟩
      · cases hlow : entry.Low maxPriority with
        | true =>
          simp only [hlow, freed', if_pos] at hstop hloop
          simp [freeLoop, hlow, hstop, hloop]
        | false =>
          simp only [hlow, freed', Bool.false_eq_true, if_false] at hstop hloop
          simp [freeLoop, hlow, hstop, hloop]
      · rcases hover with hnil | hover
        · exact .inl hnil
        · refine .inr ?_
          rw [← List.singleton_append, List.filter_append, memory_append]
          omega
      · intro init last heq
        cases init with
        | nil => simpa using hfreed
        | cons first init =>
          obtain ⟨rfl, rfl⟩ := List.cons.inj heq
          have hrest := hneeded init last rfl
          rw [← List.singleton_append, List.filter_append, memory_append]
          omega

/-- The amount that the loop works with, in numbers: the cut is missed by a request above the
memory of the queue whose difference does not wrap below the minimum. -/
theorem reducedAmount_toNat {total requested : UInt32} (hmin : memLimitMinMemory ≤ total.toNat) :
    (reducedAmount total requested).toNat
      = if requested.toNat ≤ total.toNat ∨ 2 ^ 32 - memLimitMinMemory + total.toNat < requested.toNat
        then min requested.toNat (total.toNat - memLimitMinMemory) else requested.toNat := by
  have hconst : (UInt32.ofNat memLimitMinMemory).toNat = memLimitMinMemory := rfl
  have hlt := requested.toNat_lt
  have htotal := total.toNat_lt
  have hdiff : (total - requested).toNat
      = (2 ^ 32 - requested.toNat + total.toNat) % 2 ^ 32 := UInt32.toNat_sub _ _
  have hcut : (total - .ofNat memLimitMinMemory).toNat
      = (2 ^ 32 - memLimitMinMemory + total.toNat) % 2 ^ 32 := by
    rw [UInt32.toNat_sub, hconst]
  have hless : total - requested < .ofNat memLimitMinMemory ↔
      (2 ^ 32 - requested.toNat + total.toNat) % 2 ^ 32 < memLimitMinMemory := by
    rw [UInt32.lt_iff_toNat_lt, hconst, hdiff]
  unfold reducedAmount
  by_cases hcond : total - requested < .ofNat memLimitMinMemory
  · rw [if_pos hcond, hcut]
    rw [hless] at hcond
    unfold memLimitMinMemory at *
    split <;> omega
  · rw [if_neg hcond]
    rw [hless] at hcond
    unfold memLimitMinMemory at *
    split <;> omega

/-- What is given up without its last packet stays within the limit. -/
theorem TakesBack.bounded {limit : Nat} {r : Relief}
    (h : TakesBack sizeofBuffer maxPriority limit entries r) :
    memory sizeofBuffer r.failed.dropLast ≤ limit := by
  obtain ⟨front, back, -, -, hfailed, -, hneeded⟩ := h
  rw [hfailed, List.dropLast_reverse, memory_reverse]
  cases back with
  | nil => simp
  | cons entry rest =>
    have hrest := hneeded entry rest rfl
    by_cases hlow : entry.Low maxPriority
    · rw [List.filter_cons_of_pos hlow]
      exact hrest
    · rw [List.filter_cons_of_neg hlow]
      cases hlist : rest.filter (Buffer.Low maxPriority) with
      | nil => simp
      | cons first others =>
        rw [hlist, memory_cons] at hrest
        rw [List.tail_cons]
        omega

/-- A limit above the memory of the queue takes every packet of low priority. -/
theorem TakesBack.all_of_lt {limit : Nat} {r : Relief}
    (h : TakesBack sizeofBuffer maxPriority limit entries r)
    (hlt : memory sizeofBuffer entries < limit) :
    r = ⟨entries.filter (fun entry => !entry.Low maxPriority),
      (entries.filter (Buffer.Low maxPriority)).reverse⟩ := by
  obtain ⟨front, back, rfl, hkept, hfailed, hover, -⟩ := h
  have hsub := memory_filter_le sizeofBuffer (Buffer.Low maxPriority) back
  rcases hover with rfl | hover
  · rw [List.nil_append] at hkept ⊢
    rw [← hkept, ← hfailed]
  · rw [hfailed, memory_reverse] at hover
    rw [memory_append] at hlt
    omega

/-- A queue up to its first packet of low priority. -/
theorem exists_first_low (maxPriority : BufferPriority) (entries : List Buffer) :
    ∃ front back, entries = front ++ back ∧ front.filter (Buffer.Low maxPriority) = [] ∧
      ∀ entry rest, back = entry :: rest → entry.Low maxPriority = true := by
  induction entries with
  | nil => exact ⟨[], [], by simp⟩
  | cons entry entries ih =>
    by_cases hlow : entry.Low maxPriority
    · refine ⟨[], entry :: entries, rfl, rfl, ?_⟩
      intro first rest heq
      obtain ⟨rfl, -⟩ := List.cons.inj heq
      exact hlow
    · obtain ⟨front, back, rfl, hfront, hback⟩ := ih
      exact ⟨entry :: front, back, rfl, by rw [List.filter_cons_of_neg hlow, hfront], hback⟩

/-- To give up every packet of low priority is right exactly if all but the first of them
stay within the limit. -/
theorem takesBack_all_iff {limit : Nat} :
    TakesBack sizeofBuffer maxPriority limit entries
        ⟨entries.filter (fun entry => !entry.Low maxPriority),
          (entries.filter (Buffer.Low maxPriority)).reverse⟩ ↔
      memory sizeofBuffer (entries.filter (Buffer.Low maxPriority)).tail ≤ limit := by
  constructor
  · intro h
    have hbound := h.bounded
    rwa [List.dropLast_reverse, memory_reverse] at hbound
  · intro htail
    by_cases hall : memory sizeofBuffer (entries.filter (Buffer.Low maxPriority)) ≤ limit
    · refine ⟨[], entries, rfl, rfl, rfl, .inl rfl, ?_⟩
      rintro entry rest rfl
      have hsub : memory sizeofBuffer (rest.filter (Buffer.Low maxPriority))
          ≤ memory sizeofBuffer ((entry :: rest).filter (Buffer.Low maxPriority)) := by
        rw [← List.singleton_append, List.filter_append, memory_append]
        omega
      omega
    · obtain ⟨front, back, rfl, hfront, hback⟩ := exists_first_low maxPriority entries
      rw [List.filter_append, hfront, List.nil_append] at htail hall
      have hkept : front.filter (fun entry => !entry.Low maxPriority) = front := by
        rw [List.filter_eq_self]
        intro entry hmem
        have hnot := List.filter_eq_nil_iff.mp hfront entry hmem
        simpa using hnot
      refine ⟨front, back, rfl, ?_, ?_, .inr ?_, ?_⟩
      · simp only [List.filter_append, hkept]
      · simp only [List.filter_append, hfront, List.nil_append]
      · simp only [List.filter_append, hfront, List.nil_append, memory_reverse]
        omega
      · rintro entry rest rfl
        rwa [List.filter_cons_of_pos (hback entry rest rfl), List.tail_cons] at htail

variable {requestedAmount : UInt32} {q : TxQueue sizeofBuffer}

/-- Below the minimum nothing is removed. -/
theorem free_below (hbelow : BelowMinimum sizeofBuffer q.directTxQueue) :
    freeLowPriorityPackets sizeofBuffer maxPriority requestedAmount q = ⟨q.directTxQueue, []⟩ := by
  unfold freeLowPriorityPackets
  rcases hbelow with hlength | hmemory
  · rw [if_pos (by rw [q.counted]; exact hlength)]
  · have hsmall : adaptationMemory sizeofBuffer q.directTxQueue < .ofNat memLimitMinMemory := by
      rw [UInt32.lt_iff_toNat_lt, adaptationMemory_toNat q.fits]
      exact hmemory
    rw [if_pos hsmall, ite_self]

/-- Above the minimum the back of the queue is given up, to the amount of the loop. -/
theorem free_above (maxPriority : BufferPriority) (requestedAmount : UInt32)
    (habove : ¬ BelowMinimum sizeofBuffer q.directTxQueue) :
    TakesBack sizeofBuffer maxPriority
      (reducedAmount (adaptationMemory sizeofBuffer q.directTxQueue) requestedAmount).toNat
      q.directTxQueue
      (freeLowPriorityPackets sizeofBuffer maxPriority requestedAmount q) := by
  obtain ⟨hlength, hmemory⟩ := not_or.mp habove
  have hlarge : ¬ adaptationMemory sizeofBuffer q.directTxQueue < .ofNat memLimitMinMemory := by
    rw [UInt32.lt_iff_toNat_lt, adaptationMemory_toNat q.fits]
    exact hmemory
  have hzero : (0 : UInt32).toNat = 0 := rfl
  have hfits := q.fits
  obtain ⟨taken, left, hsplit, hloop, hover, hneeded⟩ :=
    freeLoop_spec (reducedAmount (adaptationMemory sizeofBuffer q.directTxQueue) requestedAmount)
      q.directTxQueue.reverse 0 (by rw [memory_reverse, hzero, Nat.zero_add]; exact hfits)
      (by rw [hzero]; exact Nat.zero_le _)
  unfold freeLowPriorityPackets
  rw [if_neg (by rw [q.counted]; exact hlength), if_neg hlarge, hloop]
  refine ⟨left.reverse, taken.reverse, ?_, ?_, ?_, ?_, ?_⟩
  · rw [← List.reverse_append, ← hsplit, List.reverse_reverse]
  · simp
  · simp
  · rcases hover with rfl | hover
    · exact .inl rfl
    · exact .inr (by simpa [hzero] using hover)
  · intro entry rest heq
    have hlast := hneeded rest.reverse entry (by
      rw [← List.reverse_cons, ← heq, List.reverse_reverse])
    simpa [List.filter_reverse, hzero] using hlast

/-- **The reserve is kept exactly when the request fits.**  A larger request, short of the
wrap of the difference to a small one, takes every packet of low priority. -/
theorem relieved_iff (maxPriority : BufferPriority) (requestedAmount : UInt32)
    (q : TxQueue sizeofBuffer) :
    Relieved sizeofBuffer maxPriority requestedAmount.toNat q.directTxQueue
        (freeLowPriorityPackets sizeofBuffer maxPriority requestedAmount q) ↔
      RequestFits sizeofBuffer maxPriority requestedAmount.toNat q.directTxQueue := by
  by_cases hbelow : BelowMinimum sizeofBuffer q.directTxQueue
  · refine iff_of_true ⟨fun _ => free_below hbelow, fun habove => absurd hbelow habove, ?_⟩
      (.inl hbelow)
    rw [free_below hbelow]
    simp
  have hback := free_above maxPriority requestedAmount hbelow
  have hmin : memLimitMinMemory ≤ memory sizeofBuffer q.directTxQueue :=
    Nat.le_of_not_lt (not_or.mp hbelow).2
  rw [reducedAmount_toNat (by rw [adaptationMemory_toNat q.fits]; exact hmin),
    adaptationMemory_toNat q.fits] at hback
  by_cases hcut : requestedAmount.toNat ≤ memory sizeofBuffer q.directTxQueue ∨
      2 ^ 32 - memLimitMinMemory + memory sizeofBuffer q.directTxQueue < requestedAmount.toNat
  · rw [if_pos hcut] at hback
    refine iff_of_true ⟨fun h => absurd h hbelow, fun _ => hback, hback.bounded⟩ ?_
    rcases hcut with hsmall | hwrapped
    · exact .inr (.inl hsmall)
    · exact .inr (.inr (.inl hwrapped))
  -- the amount of the loop is out of reach, so that it ends with the queue
  rw [if_neg hcut] at hback
  obtain ⟨hlarge, hshort⟩ := not_or.mp hcut
  have hall := hback.all_of_lt (Nat.lt_of_not_le hlarge)
  rw [hall]
  have hsmaller : min requestedAmount.toNat (memory sizeofBuffer q.directTxQueue - memLimitMinMemory)
      = memory sizeofBuffer q.directTxQueue - memLimitMinMemory := by omega
  constructor
  · intro h
    have hrelieved := h.back hbelow
    rw [hsmaller, takesBack_all_iff] at hrelieved
    exact .inr (.inr (.inr hrelieved))
  · intro h
    rcases h with h | h | h | htail
    · exact absurd h hbelow
    · exact absurd h hlarge
    · exact absurd h hshort
    · have htakes := takesBack_all_iff.mpr htail
      rw [← hsmaller] at htakes
      exact ⟨fun h => absurd h hbelow, fun _ => htakes, htakes.bounded⟩

/-- Ten packets of 1000 bytes. -/
def tenPackets : TxQueue 200 where
  directTxQueue := List.replicate 10 ⟨1000, .normal⟩
  directTxQueueSize := 10
  counted := by decide
  fits := by decide

/-- The queue of twelve thousand bytes is lost to the request of the high-priority mode. -/
theorem not_relieved :
    ¬ ∀ (sizeofBuffer : Nat) (maxPriority : BufferPriority) (requestedAmount : UInt32)
      (q : TxQueue sizeofBuffer),
      Relieved sizeofBuffer maxPriority requestedAmount.toNat q.directTxQueue
        (freeLowPriorityPackets sizeofBuffer maxPriority requestedAmount q) := by
  intro h
  have hbound := (h 200 (heapRequest true true).1 (heapRequest true true).2 tenPackets).bounded
  revert hbound
  decide

end Relief

end Lowpan
