import WisunModem.RoutingHeader

/-!
# The RPL option of a packet

`rpl_data_locate_info` as its callers use it, with no interest in a source routing
header, `rpl_data_remember_outer`, which copies the option found, and the changes
`rpl_data_exthdr_provider_hbh_2` makes to it.

The walk over the options trusts the length each option announces.
`ipv6_handle_options` checks these lengths when a packet is received.
-/

namespace HopByHop

open ByteStore GuardedStore Exec

/-- `IPV6_OPTION_PAD1`. -/
def pad1 : UInt8 := 0x00

/-- `IPV6_OPTION_RPL`. -/
def rplOption : UInt8 := 0x63

/-! ## The walk -/

section

variable (ok : Nat → Bool) (stop : Nat)

/-- The walk over the options from `p`. -/
def findRpl (p : Nat) : Guarded (Option Nat) :=
  if p < stop then do
    let kind ← load ok p
    if kind = pad1 then findRpl (p + 1)
    else if kind = rplOption then pure (some p)
    else do
      let len ← load ok (p + 1)
      findRpl (p + 2 + len.toNat)
  else pure none
termination_by stop - p

end

/-- The header's end: `ptr + hdrlen` for a hop-by-hop header at 40. -/
def hbhEnd (m : Store) : Nat := 40 + ((m 41).toNat + 1) * 8

/-- `rpl_data_locate_info(buf, &hbh, NULL)` on a buffer of `len` bytes. -/
def rpl_data_locate_info (ok : Nat → Bool) (len : Nat) : Guarded (Option Nat) :=
  if len < 40 then pure none else do
    let ipLen ← loads ok 4 2
    let nh ← load ok 6
    if len - 40 < be ipLen then pure none
    else if nh = 0 ∧ 8 ≤ be ipLen then do
      let _ ← load ok 40
      let hdr ← load ok 41
      if be ipLen < (hdr.toNat + 1) * 8 then pure none
      else findRpl ok (40 + (hdr.toNat + 1) * 8) 42
    else if nh = 60 ∧ 8 ≤ be ipLen then do
      let _ ← load ok 40
      let _ ← load ok 41
      pure none
    else pure none

/-- The copy `rpl_data_remember_outer` takes of the option at `hbh`: its instance and
its length byte with the data. -/
def rememberOuter (ok : Nat → Bool) (hbh : Nat) : Guarded (UInt8 × List UInt8) := do
  let instanceId ← load ok (hbh + 3)
  let len ← load ok (hbh + 1)
  let copy ← loads ok (hbh + 1) (len.toNat + 1)
  pure (instanceId, copy)

/-- The changes made to the option when the packet is forwarded: the flags and the
instance byte as `flags` and `instanceByte` make them, and the new sender rank. -/
def updateOption (ok : Nat → Bool) (flags instanceByte : List UInt8 → UInt8 → UInt8) (rank : Nat)
    (opt : Nat) : Guarded PUnit := do
  let senderRank ← loads ok (opt + 4) 2
  let old ← load ok (opt + 2)
  save ok (opt + 2) (flags senderRank old)
  let id ← load ok (opt + 3)
  save ok (opt + 3) (instanceByte senderRank id)
  save ok (opt + 4) (UInt8.ofNat (rank / 2 ^ 8))
  save ok (opt + 5) (UInt8.ofNat rank)

/-! ## Options inside the header -/

/-- Where the walk stands before each option, up to the first RPL option. -/
def options (m : Store) (stop p : Nat) : List Nat :=
  if p < stop then
    p :: (if m p = pad1 then options m stop (p + 1)
      else if m p = rplOption then []
      else options m stop (p + 2 + (m (p + 1)).toNat))
  else []
termination_by stop - p

/-- A walk that may read below `stop` goes well exactly when it may read the length of
each option it skips, and finds only what `P` allows exactly when its first RPL option
is such. -/
theorem ends_findRpl {ok : Nat → Bool} {m : Store} {stop p : Nat} {P : Nat → Prop}
    (hok : ∀ x, x < stop → ok x = true) :
    Ends (findRpl ok stop p) m (fun r _ => ∀ q, r = some q → P q) ↔
      ∀ q ∈ options m stop p, (m q = rplOption → P q) ∧
        (m q ≠ pad1 → m q ≠ rplOption → ok (q + 1) = true) := by
  induction hn : stop - p using Nat.strongRecOn generalizing p with
  | ind n ih =>
      rw [findRpl, options]
      by_cases hp : p < stop
      · rw [if_pos hp, if_pos hp, ends_bind, ends_load, List.forall_mem_cons]
        by_cases hpad : m p = pad1
        · have hnotrpl : m p ≠ rplOption := by
            rw [hpad]
            decide
          rw [if_pos hpad, if_pos hpad, ih _ (by omega) rfl]
          simp [hok p hp, hpad, show pad1 ≠ rplOption by decide]
        · rw [if_neg hpad, if_neg hpad]
          by_cases hrpl : m p = rplOption
          · rw [if_pos hrpl, if_pos hrpl, ends_pure]
            simp [hok p hp, hrpl]
          · rw [if_neg hrpl, if_neg hrpl, ends_bind, ends_load, ih _ (by omega) rfl]
            simp [hok p hp, hpad, hrpl]
      · rw [if_neg hp, if_neg hp, ends_pure]
        simp

theorem le_of_mem_options {m : Store} {stop p q : Nat} (h : q ∈ options m stop p) :
    p ≤ q ∧ q < stop := by
  induction hn : stop - p using Nat.strongRecOn generalizing p with
  | ind n ih =>
      rw [options] at h
      by_cases hp : p < stop
      · rw [if_pos hp, List.mem_cons] at h
        rcases h with rfl | h
        · exact ⟨le_rfl, hp⟩
        · split at h
          · have hq := ih _ (by omega) h rfl
            omega
          · split at h
            · cases h
            · have hq := ih _ (by omega) h rfl
              omega
      · rw [if_neg hp] at h
        cases h

/-- The bytes of the packet. -/
def inPacket (len a : Nat) : Bool := decide (a < len)

/-- The bytes of the hop-by-hop header. -/
def inHbh (m : Store) (a : Nat) : Bool := decide (40 ≤ a ∧ a < hbhEnd m)

/-- The option lies inside the header, and so do the copy and the changes made of it. -/
def OptionBounded (m : Store) (opt : Nat) : Prop :=
  opt + 2 + (m (opt + 1)).toNat ≤ hbhEnd m ∧
    Ends (rememberOuter (inHbh m) opt) m (fun _ _ => True) ∧
    ∀ flags instanceByte rank,
      Ends (updateOption (inHbh m) flags instanceByte rank opt) m fun _ _ => True

theorem optionBounded_iff {m : Store} {opt : Nat} (hopt : 42 ≤ opt) :
    OptionBounded m opt ↔
      opt + 2 + (m (opt + 1)).toNat ≤ hbhEnd m ∧ opt + 6 ≤ hbhEnd m := by
  unfold OptionBounded rememberOuter updateOption
  simp only [ends_bind, ends_load, ends_loads, ends_save, ends_pure, inHbh, decide_eq_true_eq]
  constructor
  · rintro ⟨hdata, -, hupdate⟩
    obtain ⟨-, -, -, -, -, -, hlast, -⟩ := hupdate (fun _ b => b) (fun _ b => b) 0
    exact ⟨hdata, by omega⟩
  · rintro ⟨hdata, hfields⟩
    refine ⟨hdata, ⟨by omega, by omega, fun i hi => by omega, trivial⟩, fun _ _ _ => ?_⟩
    refine ⟨fun i hi => by omega, ?_⟩
    exact ⟨by omega, by omega, by omega, by omega, by omega, by omega, trivial⟩

/-- What is asked of a search: it stays inside the packet, and an option it returns is
inside the hop-by-hop header with all that is done with it. -/
def Bounded (m : Store) (len : Nat) : Prop :=
  Ends (rpl_data_locate_info (inPacket len) len) m fun r _ =>
    ∀ opt, r = some opt → OptionBounded m opt

/-- The packet starts with a hop-by-hop header that its lengths leave room for. -/
def HasHbh (m : Store) (len : Nat) : Prop :=
  40 + be (bytes m 4 2) ≤ len ∧ m 6 = 0 ∧ hbhEnd m ≤ 40 + be (bytes m 4 2)

/-- Options that are skipped have their length byte in the packet, and the first RPL
option is inside the header with its data and with its first six bytes. -/
def Sound (m : Store) (len : Nat) : Prop :=
  HasHbh m len → ∀ q ∈ options m (hbhEnd m) 42,
    (m q = rplOption → q + 2 + (m (q + 1)).toNat ≤ hbhEnd m ∧ q + 6 ≤ hbhEnd m) ∧
    (m q ≠ pad1 → m q ≠ rplOption → q + 1 < len)

/-- **The search is bounded exactly when the options are sound.** -/
theorem locate_inside_iff {m : Store} {len : Nat} : Bounded m len ↔ Sound m len := by
  unfold Bounded Sound HasHbh rpl_data_locate_info
  by_cases hlen : len < 40
  · rw [if_pos hlen, ends_pure]
    refine iff_of_true (fun opt h => by cases h) fun hhbh => ?_
    omega
  rw [if_neg hlen, ends_bind, ends_loads, ends_bind, ends_load]
  have hfirst : ∀ x, x < 40 → inPacket len x = true := fun x hx =>
    decide_eq_true (by omega)
  rw [and_iff_right fun i hi => hfirst (4 + i) (by omega),
    and_iff_right (hfirst 6 (by decide))]
  generalize be (bytes m 4 2) = ipLen
  have hend : 48 ≤ hbhEnd m := by
    unfold hbhEnd
    omega
  by_cases hfits : len - 40 < ipLen
  · rw [if_pos hfits, ends_pure]
    exact iff_of_true (fun opt h => by cases h) fun hhbh => by omega
  rw [if_neg hfits]
  by_cases hhbh : m 6 = 0 ∧ 8 ≤ ipLen
  · rw [if_pos hhbh]
    simp only [ends_bind, ends_load]
    have h40 : inPacket len 40 = true := decide_eq_true (by omega)
    have h41 : inPacket len 41 = true := decide_eq_true (by omega)
    rw [and_iff_right h40, and_iff_right h41]
    by_cases hhdr : ipLen < ((m 41).toNat + 1) * 8
    · rw [if_pos hhdr, ends_pure]
      refine iff_of_true (fun opt h => by cases h) fun h => ?_
      unfold hbhEnd at h
      omega
    · rw [if_neg hhdr]
      change Ends (findRpl (inPacket len) (hbhEnd m) 42) m _ ↔ _
      have hin : hbhEnd m ≤ 40 + ipLen := by
        unfold hbhEnd
        omega
      have hbelow : ∀ x, x < hbhEnd m → inPacket len x = true := fun x hx =>
        decide_eq_true (by omega)
      rw [ends_findRpl hbelow]
      constructor
      · intro h _ q hq
        obtain ⟨hrpl, hskip⟩ := h q hq
        have hle := (le_of_mem_options hq).1
        exact ⟨fun hq => (optionBounded_iff hle).mp (hrpl hq),
          fun h1 h2 => of_decide_eq_true (hskip h1 h2)⟩
      · intro h q hq
        obtain ⟨hrpl, hskip⟩ := h ⟨by omega, hhbh.1, hin⟩ q hq
        have hle := (le_of_mem_options hq).1
        exact ⟨fun hq => (optionBounded_iff hle).mpr (hrpl hq),
          fun h1 h2 => decide_eq_true (hskip h1 h2)⟩
  · rw [if_neg hhbh]
    have hnone : ¬(40 + ipLen ≤ len ∧ m 6 = 0 ∧ hbhEnd m ≤ 40 + ipLen) := fun h =>
      hhbh ⟨h.2.1, by omega⟩
    refine iff_of_true ?_ fun h => absurd h hnone
    split
    case isTrue hdest =>
      simp only [ends_bind, ends_load, ends_pure]
      exact ⟨decide_eq_true (by omega), decide_eq_true (by omega), fun opt h => by cases h⟩
    case isFalse => exact ends_pure.mpr fun opt h => by cases h

/-! ## Received packets -/

/-- The walk of `ipv6_handle_options` goes through.  `accepts` is what the handler of an
option, or the action bits of an unknown one, decide. -/
def handleOptions (rplDomain : Bool) (accepts : Nat → Bool) (m : Store) (stop p : Nat) : Bool :=
  if p < stop then
    if m p = pad1 then handleOptions rplDomain accepts m stop (p + 1)
    else if stop ≤ p + 1 then false
    else if stop < p + 2 + (m (p + 1)).toNat then false
    else if m p = rplOption ∧ (rplDomain = false ∨ (m (p + 1)).toNat < 4) then false
    else accepts p && handleOptions rplDomain accepts m stop (p + 2 + (m (p + 1)).toNat)
  else true
termination_by stop - p

theorem options_of_handled {rplDomain : Bool} {accepts : Nat → Bool} {m : Store} {stop p : Nat}
    (h : handleOptions rplDomain accepts m stop p = true) :
    ∀ q ∈ options m stop p,
      (m q = rplOption → q + 2 + (m (q + 1)).toNat ≤ stop ∧ q + 6 ≤ stop) ∧
      (m q ≠ pad1 → m q ≠ rplOption → q + 1 < stop) := by
  induction hn : stop - p using Nat.strongRecOn generalizing p with
  | ind n ih =>
      rw [options]
      rw [handleOptions] at h
      by_cases hp : p < stop
      · rw [if_pos hp] at h
        rw [if_pos hp, List.forall_mem_cons]
        by_cases hpad : m p = pad1
        · rw [if_pos hpad] at h
          rw [if_pos hpad]
          refine ⟨⟨fun hrpl => ?_, fun hnot => absurd hpad hnot⟩, ih _ (by omega) h rfl⟩
          rw [hpad] at hrpl
          cases hrpl
        · rw [if_neg hpad] at h
          rw [if_neg hpad]
          split at h
          case isTrue => cases h
          case isFalse hlen =>
          split at h
          case isTrue => cases h
          case isFalse hdata =>
          split at h
          case isTrue => cases h
          case isFalse hrpl =>
          obtain ⟨-, hrest⟩ := Bool.and_eq_true_iff.mp h
          refine ⟨⟨fun hkind => ?_, fun _ _ => by omega⟩, ?_⟩
          · have hfour : ¬(m (p + 1)).toNat < 4 := fun hlt => hrpl ⟨hkind, Or.inr hlt⟩
            omega
          · split
            · exact fun q hq => by cases hq
            · exact ih _ (by omega) hrest rfl
      · rw [if_neg hp]
        exact fun q hq => by cases hq

/-- The options of a packet whose hop-by-hop header was handled on reception are sound. -/
theorem sound_of_handled {rplDomain : Bool} {accepts : Nat → Bool} {m : Store} {len : Nat}
    (h : handleOptions rplDomain accepts m (hbhEnd m) 42 = true) : Sound m len := by
  intro hhbh q hq
  obtain ⟨hfits, -, hend⟩ := hhbh
  obtain ⟨hrpl, hskip⟩ := options_of_handled h q hq
  refine ⟨hrpl, fun hpad hnot => ?_⟩
  have hlt := hskip hpad hnot
  omega

/-- **Behind `ipv6_handle_options` the search for the RPL option is safe.**  Where the walk
over the hop-by-hop header of a packet has gone through, `rpl_data_locate_info` reads
nothing beyond the packet, and an option it finds is inside the header. -/
theorem handled_bounded (rplDomain : Bool) (accepts : Nat → Bool) (m : Store) (len : Nat)
    (h : handleOptions rplDomain accepts m (hbhEnd m) 42 = true) : Bounded m len :=
  locate_inside_iff.mpr (sound_of_handled h)

/-- A packet with an option of RPL instance 30. -/
theorem handled_bounded_rpl :
    Bounded (ofList (List.replicate 5 0 ++ [8, 0] ++ List.replicate 33 0 ++
      [59, 0, 0x63, 4, 0, 30, 1, 0])) 48 := by
  refine handled_bounded true (fun _ => true) _ 48 ?_
  rw [handleOptions, if_pos (by decide), if_neg (by decide), if_neg (by decide),
    if_neg (by decide), if_neg (by decide), handleOptions, if_neg (by decide)]
  rfl

/-! ## A received packet -/

/-- **A received packet is handled inside its bounds exactly when the count of its
routing header and the options of its hop-by-hop header are sound.** -/
theorem received_inside_iff {node : RoutingHeader.Node} {dstSa : List UInt8} {m : Store}
    {ptr len : Nat} (hchecked : RoutingHeader.Checked m ptr len) :
    RoutingHeader.Bounded node dstSa m ptr ∧ Bounded m len ↔
      RoutingHeader.Sound node m ptr ∧ Sound m len :=
  and_congr (RoutingHeader.process_inside_iff hchecked) locate_inside_iff

/-- A routing header of eight bytes with one segment left, all but one byte of the
intermediate addresses left out and a pad of 15. -/
def shortHeader : Store :=
  ofList (List.replicate 5 0 ++ [8, 43] ++ List.replicate 17 0 ++ List.replicate 16 0xfd ++
    [17, 0, 3, 1, 0xf0, 0xf0, 0, 0])

/-- A node of a RPL domain with no address of interest. -/
def router : RoutingHeader.Node where
  rplDomain := true
  isLocal := fun _ => false
  routeTo := fun _ => true

theorem shortHeader_checked : RoutingHeader.Checked shortHeader 40 48 where
  behind := le_rfl
  inside := by decide
  length := by decide

/-- Processing it reaches for the source address of the packet. -/
theorem shortHeader_escapes :
    (RoutingHeader.rpl_data_process_routing_header router
      (RoutingHeader.inHeader shortHeader 40) (List.replicate 16 0xfd) 40).run shortHeader =
      .error 17 := by
  rfl

/-- It counts 4294967266 addresses in a header that has room for none. -/
theorem shortHeader_unbounded :
    RoutingHeader.Checked shortHeader 40 48 ∧
      ¬(RoutingHeader.Bounded router (List.replicate 16 0xfd) shortHeader 40 ∧
        Bounded shortHeader 48) := by
  refine ⟨shortHeader_checked, fun hbounded => ?_⟩
  obtain ⟨⟨-, a, t, hrun, -⟩, -⟩ := hbounded
  rw [shortHeader_escapes] at hrun
  cases hrun

/-- A routing header with one whole address, behind no hop-by-hop header. -/
theorem received_inside_plain :
    RoutingHeader.Bounded router (List.replicate 16 0xfd)
        (ofList (List.replicate 5 0 ++ [24, 43] ++ List.replicate 17 0 ++
          List.replicate 16 0xfd ++ [17, 2, 3, 1, 0, 0, 0, 0])) 40 ∧
      Bounded (ofList (List.replicate 5 0 ++ [24, 43] ++ List.replicate 17 0 ++
          List.replicate 16 0xfd ++ [17, 2, 3, 1, 0, 0, 0, 0])) 64 :=
  (received_inside_iff ⟨le_rfl, by decide, by decide⟩).mpr
    ⟨Or.inr (Or.inr (Or.inl (by decide))), fun h => absurd h.2.1 (by decide)⟩

end HopByHop
