import WisunModem.RadiusAttributes

/-!
# The EAP message of a RADIUS packet

`radius_client_sec_prot_eap_avps_handle` goes from one EAP-Message attribute to the next, and
counts or copies their values.  A length octet below two is counted as 254 or 255 octets of
value, so that the walk goes on behind them.

* `eap_fits` — where the copy stays inside, every attribute it reaches does;
* `eap_runs` — there the count and the copy agree.
-/

namespace Radius

/-- Octets of an EAP-Message attribute, as its length octet is counted. -/
def eapOctets (d : Octets) (q : Nat) : Nat := (val d (q + 1) + 256 - AVP_FIXED_LEN) % 256

/-- How far the walk moves at an attribute. -/
def eapSpan (d : Octets) (q : Nat) : Nat :=
  if val d q = AVP_TYPE_EAP_MESSAGE then AVP_FIXED_LEN + eapOctets d q else val d (q + 1)

abbrev EapReaches (d : Octets) := Reaches d (fun _ => false) (eapSpan d)

/-- **The attributes on the walk** have their heads in the datagram, those with EAP octets
lie in the datagram as they are counted, and no other one has the length zero. -/
def EapFits (d : Octets) (p n : Nat) : Prop :=
  ∀ q m, EapReaches d p n q m → 2 ≤ m → q + 2 ≤ d.length ∧
    (val d (q + 1) ≤ m →
      (val d q = AVP_TYPE_EAP_MESSAGE → q + eapSpan d q ≤ d.length) ∧
      (val d q ≠ AVP_TYPE_EAP_MESSAGE → val d (q + 1) ≠ 0))

/-- An EAP-Message attribute with a value is on the walk. -/
def HasEap (d : Octets) (p n : Nat) : Prop :=
  ∃ q m, EapReaches d p n q m ∧ 2 ≤ m ∧ val d (q + 1) ≤ m ∧ val d q = AVP_TYPE_EAP_MESSAGE ∧
    eapOctets d q ≠ 0

variable {d : Octets} {p n q m fuel turns len room : Nat} {copied : Octets}
  {dest : Option Nat} {type : Nat} {r : Option (Nat × Nat)} {out : Nat × Octets}

/-! ## Searches for a type -/

theorem avp_search_head (hhead : p + 2 ≤ d.length) (hn : 2 ≤ n) :
    avp_search d type (fuel + 1) p n =
      if val d (p + 1) > n then .ok none
      else if val d p = type then .ok (some (p + 2, val d (p + 1)))
      else if n > val d (p + 1) then
        avp_search d type fuel (p + val d (p + 1)) (n - val d (p + 1))
      else .ok none := by
  have hcheck : typeCheck d type p (val d (p + 1)) = .ok (ofType d type p) := by
    rw [typeCheck, octet_ok (by omega)]
    rfl
  rw [avp_search, search_head hhead hn fun _ => hcheck, ofType]
  by_cases htype : val d p = type
  · simp [htype, AVP_FIXED_LEN]
  · simp [htype, avp_search]

/-- More fuel than octets is enough fuel. -/
theorem avp_search_enough (h : avp_search d type fuel p n = .ok r) {more : Nat}
    (hmore : d.length + 2 ≤ more + p) (hpos : 0 < more) :
    avp_search d type more p n = .ok r := by
  induction fuel generalizing p n more with
  | zero => cases h
  | succ fuel ih =>
      obtain ⟨more, rfl⟩ : ∃ k, more = k + 1 := ⟨more - 1, by omega⟩
      by_cases hn : n < 2
      · rw [avp_search, search_short hn] at h ⊢
        exact h
      by_cases hhead : p + 2 ≤ d.length
      · by_cases hpass : val d (p + 1) = 0 ∧ val d p ≠ type
        · -- the search stays where it is, with less fuel
          rw [avp_search_head hhead (by omega), hpass.1, if_neg (by omega), if_neg hpass.2,
            if_pos (by omega)] at h
          exact ih h hmore hpos
        · rw [avp_search_head hhead (by omega)] at h ⊢
          by_cases hl : val d (p + 1) > n
          · rw [if_pos hl] at h ⊢
            exact h
          rw [if_neg hl] at h ⊢
          by_cases htype : val d p = type
          · rw [if_pos htype] at h ⊢
            exact h
          rw [if_neg htype] at h ⊢
          by_cases hleft : n > val d (p + 1)
          · have hmoves : val d (p + 1) ≠ 0 := fun hzero => hpass ⟨hzero, htype⟩
            rw [if_pos hleft] at h ⊢
            exact ih h (by omega) (by omega)
          · rw [if_neg hleft] at h ⊢
            exact h
      · exact absurd h (search_outside (by omega) (by omega))

/-- What is found lies in what is searched. -/
theorem avp_search_bounds {place l : Nat}
    (h : avp_search d type fuel p n = .ok (some (place, l))) : p + 2 ≤ place ∧ place ≤ p + n := by
  induction fuel generalizing p n with
  | zero => cases h
  | succ fuel ih =>
      by_cases hn : n < 2
      · rw [avp_search, search_short hn] at h
        cases h
      by_cases hhead : p + 2 ≤ d.length
      · rw [avp_search_head hhead (by omega)] at h
        split at h
        · cases h
        split at h
        · cases h
          omega
        split at h
        · have hnext := ih h
          omega
        · cases h
      · exact absurd h (search_outside (by omega) (by omega))

/-! ## One attribute of the walk -/

theorem copyTo_ok (hin : p + n ≤ d.length)
    (hroom : ∀ room, dest = some room → copied.length + n ≤ room) :
    copyTo d dest copied p n = .ok (match dest with
      | none => copied
      | some _ => copied ++ (d.drop p).take n) := by
  cases dest with
  | none => rfl
  | some room =>
      rw [copyTo, copy, if_pos hin]
      simp only [bind, Except.bind]
      rw [if_pos (hroom room rfl)]

/-- A search that finds nothing ends the walk. -/
theorem eap_loop_end (h : avp_search d AVP_TYPE_EAP_MESSAGE fuel p n = .ok none) :
    eap_avps_loop d dest fuel (turns + 1) p n len copied = .ok (len, copied) := by
  rw [eap_avps_loop, avp_eap_message_read, h]
  rfl

theorem eap_loop_found {place l : Nat}
    (h : avp_search d AVP_TYPE_EAP_MESSAGE fuel p n = .ok (some (place, l))) :
    eap_avps_loop d dest fuel (turns + 1) p n len copied =
      (copyTo d dest copied place ((l + 256 - AVP_FIXED_LEN) % 256)).bind fun copied =>
        eap_avps_loop d dest fuel turns (place + (l + 256 - AVP_FIXED_LEN) % 256)
          ((n + 131072 - (place - p + (l + 256 - AVP_FIXED_LEN) % 256)) % 65536)
          ((len + (l + 256 - AVP_FIXED_LEN) % 256) % 65536) copied := by
  rw [eap_avps_loop, avp_eap_message_read, h]
  rfl

/-- An EAP-Message attribute is copied, and the walk goes on behind it. -/
theorem eap_loop_here (hhead : p + 2 ≤ d.length) (hn : 2 ≤ n) (hl : val d (p + 1) ≤ n)
    (htype : val d p = AVP_TYPE_EAP_MESSAGE) :
    eap_avps_loop d dest (fuel + 1) (turns + 1) p n len copied =
      (copyTo d dest copied (p + 2) (eapOctets d p)).bind fun copied =>
        eap_avps_loop d dest (fuel + 1) turns (p + eapSpan d p)
          ((n + 65536 - eapSpan d p) % 65536) ((len + eapOctets d p) % 65536) copied := by
  have hfound : avp_search d AVP_TYPE_EAP_MESSAGE (fuel + 1) p n =
      .ok (some (p + 2, val d (p + 1))) := by
    rw [avp_search_head hhead hn, if_neg (by omega), if_pos htype]
  have hspan : eapSpan d p = 2 + eapOctets d p := if_pos htype
  have hoctets : eapOctets d p < 256 := Nat.mod_lt _ (by omega)
  rw [eap_loop_found hfound, hspan]
  have hplace : p + 2 + eapOctets d p = p + (2 + eapOctets d p) := by omega
  have hleft : (n + 131072 - (p + 2 - p + eapOctets d p)) % 65536 =
      (n + 65536 - (2 + eapOctets d p)) % 65536 := by omega
  rw [← hplace, ← hleft]
  rfl

/-- Another attribute is passed over. -/
theorem eap_loop_past (hhead : p + 2 ≤ d.length) (hn : n < 65536) (hl : val d (p + 1) < n)
    (htwo : 2 ≤ n) (htype : val d p ≠ AVP_TYPE_EAP_MESSAGE) (hfuel : d.length + 2 ≤ fuel)
    (hr : avp_search d AVP_TYPE_EAP_MESSAGE fuel p n = .ok r) :
    eap_avps_loop d dest fuel (turns + 1) p n len copied =
      eap_avps_loop d dest fuel (turns + 1) (p + val d (p + 1)) (n - val d (p + 1)) len
        copied := by
  have hnext : avp_search d AVP_TYPE_EAP_MESSAGE fuel (p + val d (p + 1)) (n - val d (p + 1)) =
      .ok r := by
    obtain ⟨fuel, rfl⟩ : ∃ k, fuel = k + 1 := ⟨fuel - 1, by omega⟩
    rw [avp_search_head hhead htwo, if_neg (by omega), if_neg htype, if_pos hl] at hr
    exact avp_search_enough hr (by omega) (by omega)
  match r, hr, hnext with
  | none, hr, hnext => rw [eap_loop_end hr, eap_loop_end hnext]
  | some (place, l), hr, hnext =>
      have hbounds := avp_search_bounds hnext
      have hoctets : (l + 256 - AVP_FIXED_LEN) % 256 < 256 := Nat.mod_lt _ (by omega)
      rw [eap_loop_found hr, eap_loop_found hnext]
      have hleft : (n + 131072 - (place - p + (l + 256 - AVP_FIXED_LEN) % 256)) % 65536 =
          (n - val d (p + 1) + 131072 - (place - (p + val d (p + 1)) +
            (l + 256 - AVP_FIXED_LEN) % 256)) % 65536 := by omega
      rw [hleft]

/-! ## The copy stays inside -/

/-- More fuel for the searches changes nothing. -/
theorem eap_loop_enough (h : eap_avps_loop d dest fuel turns p n len copied = .ok out)
    {more : Nat} (hmore : d.length + 2 ≤ more) :
    eap_avps_loop d dest more turns p n len copied = .ok out := by
  induction turns generalizing p n len copied with
  | zero => cases h
  | succ turns ih =>
      cases hr : avp_search d AVP_TYPE_EAP_MESSAGE fuel p n with
      | error e =>
          rw [eap_avps_loop, avp_eap_message_read, hr] at h
          cases h
      | ok r =>
          have hr' : avp_search d AVP_TYPE_EAP_MESSAGE more p n = .ok r :=
            avp_search_enough hr (by omega) (by omega)
          match r, hr, hr' with
          | none, hr, hr' =>
              rw [eap_loop_end hr']
              rw [eap_loop_end hr] at h
              exact h
          | some (place, l), hr, hr' =>
              rw [eap_loop_found hr']
              rw [eap_loop_found hr] at h
              cases hcopy : copyTo d dest copied place ((l + 256 - AVP_FIXED_LEN) % 256) with
              | error e =>
                  rw [hcopy] at h
                  cases h
              | ok next =>
                  rw [hcopy] at h
                  exact ih h

/-- A walk that ends has searched. -/
theorem eap_loop_search (h : eap_avps_loop d dest fuel turns p n len copied = .ok out) :
    ∃ r, avp_search d AVP_TYPE_EAP_MESSAGE fuel p n = .ok r := by
  cases turns with
  | zero => cases h
  | succ turns =>
      cases hr : avp_search d AVP_TYPE_EAP_MESSAGE fuel p n with
      | error e =>
          rw [eap_avps_loop, avp_eap_message_read, hr] at h
          cases h
      | ok r => exact ⟨r, rfl⟩

theorem copyTo_inside {next : Octets} (h : copyTo d (some room) copied p n = .ok next) :
    p + n ≤ d.length := by
  by_contra hin
  rw [copyTo, copy, if_neg hin] at h
  cases h

/-- A search does not pass over an attribute of another type and of length zero. -/
theorem avp_search_moves (hhead : p + 2 ≤ d.length) (hn : 2 ≤ n) (htype : val d p ≠ type)
    (hr : avp_search d type fuel p n = .ok r) : val d (p + 1) ≠ 0 := by
  intro hzero
  induction fuel with
  | zero => cases hr
  | succ fuel ih =>
      rw [avp_search_head hhead hn, hzero, if_neg (by omega), if_neg htype,
        if_pos (by omega)] at hr
      exact ih hr

/-- **One attribute** of a walk that ends is inside, and the walk from the next one ends the
same. -/
theorem eap_move (hfuel : d.length + 2 ≤ fuel) (hn : 2 ≤ n) (hn16 : n < 65536)
    (h : eap_avps_loop d dest fuel turns p n len copied = .ok out) :
    p + 2 ≤ d.length ∧ (val d (p + 1) ≤ n →
      (∀ room, dest = some room → val d p = AVP_TYPE_EAP_MESSAGE →
        p + eapSpan d p ≤ d.length) ∧
      (val d p ≠ AVP_TYPE_EAP_MESSAGE → val d (p + 1) ≠ 0) ∧
      ∃ turns copied, eap_avps_loop d dest fuel turns (p + eapSpan d p)
        ((n + 65536 - eapSpan d p) % 65536)
        (if val d p = AVP_TYPE_EAP_MESSAGE then (len + eapOctets d p) % 65536 else len)
        copied = .ok out) := by
  obtain ⟨r, hr⟩ := eap_loop_search h
  have hhead : p + 2 ≤ d.length := by
    by_contra hhead
    exact search_outside (by omega) hn hr
  refine ⟨hhead, fun hl => ?_⟩
  obtain ⟨fuel, rfl⟩ : ∃ k, fuel = k + 1 := ⟨fuel - 1, by omega⟩
  cases turns with
  | zero => cases h
  | succ turns =>
  by_cases htype : val d p = AVP_TYPE_EAP_MESSAGE
  · rw [eap_loop_here hhead hn hl htype] at h
    cases hcopy : copyTo d dest copied (p + 2) (eapOctets d p) with
    | error e =>
        rw [hcopy] at h
        cases h
    | ok next =>
        rw [hcopy] at h
        have hspan : eapSpan d p = 2 + eapOctets d p := if_pos htype
        rw [if_pos htype]
        refine ⟨?_, fun hother => absurd htype hother, _, _, h⟩
        intro room hroom _
        rw [hroom] at hcopy
        have hin := copyTo_inside hcopy
        omega
  · have hspan : eapSpan d p = val d (p + 1) := if_neg htype
    refine ⟨fun _ _ h79 => absurd h79 htype,
      fun _ => avp_search_moves hhead hn htype hr, ?_⟩
    rw [hspan, if_neg htype]
    rcases Nat.lt_or_eq_of_le hl with hlt | heq
    · rw [eap_loop_past hhead hn16 hlt hn htype hfuel hr] at h
      have hleft : (n + 65536 - val d (p + 1)) % 65536 = n - val d (p + 1) := by omega
      rw [hleft]
      exact ⟨_, _, h⟩
    · have hleft : (n + 65536 - val d (p + 1)) % 65536 = 0 := by omega
      have hnone : avp_search d AVP_TYPE_EAP_MESSAGE (fuel + 1) (p + val d (p + 1)) 0 =
          .ok none := search_short (by omega)
      have hend : avp_search d AVP_TYPE_EAP_MESSAGE (fuel + 1) p n = .ok none := by
        rw [avp_search_head hhead hn, if_neg (by omega), if_neg htype, if_neg (by omega)]
      rw [eap_loop_end hend] at h
      rw [hleft]
      exact ⟨1, copied, by rw [eap_loop_end hnone]; exact h⟩

/-- **Where the copy stays inside**, every attribute on the walk does. -/
theorem eap_fits (hn : n < 65536)
    (h : eap_avps_loop d (some room) fuel turns p n len copied = .ok out) : EapFits d p n := by
  have hreach : ∀ q m, EapReaches d p n q m → m < 65536 ∧ ∃ turns len copied,
      eap_avps_loop d (some room) (d.length + 2) turns q m len copied = .ok out := by
    intro q m hreach
    induction hreach with
    | start => exact ⟨hn, turns, len, copied, eap_loop_enough h (by omega)⟩
    | past _ hm _ hl ih =>
        obtain ⟨hm16, turns, len, copied, hloop⟩ := ih
        obtain ⟨turns, copied, hnext⟩ := ((eap_move (by omega) hm hm16 hloop).2 hl).2.2
        exact ⟨Nat.mod_lt _ (by omega), turns, _, copied, hnext⟩
  intro q m hq hm
  obtain ⟨hm16, turns, len, copied, hloop⟩ := hreach q m hq
  have hmove := eap_move (by omega) hm hm16 hloop
  exact ⟨hmove.1, fun hl => ⟨(hmove.2 hl).1 room rfl, (hmove.2 hl).2.1⟩⟩

/-! ## The count and the copy -/

/-- What the walk counts and copies. -/
structure Gathers (d : Octets) (fuel p n : Nat) (value : Octets) : Prop where
  counted : ∀ turns len copied, 0 < turns → d.length + 2 ≤ turns + p → len < 65536 →
    eap_avps_loop d none fuel turns p n len copied =
      .ok ((len + value.length) % 65536, copied)
  copied : ∀ room turns len copied, 0 < turns → d.length + 2 ≤ turns + p → len < 65536 →
    copied.length + value.length ≤ room →
    eap_avps_loop d (some room) fuel turns p n len copied =
      .ok ((len + value.length) % 65536, copied ++ value)

/-- A walk that ends at once gathers nothing. -/
theorem Gathers.nothing (h : avp_search d AVP_TYPE_EAP_MESSAGE fuel p n = .ok none) :
    Gathers d fuel p n [] := by
  constructor
  · intro turns len copied hpos _ hlen
    obtain ⟨turns, rfl⟩ : ∃ k, turns = k + 1 := ⟨turns - 1, by omega⟩
    rw [eap_loop_end h, List.length_nil, Nat.add_zero, Nat.mod_eq_of_lt hlen]
  · intro room turns len copied hpos _ hlen _
    obtain ⟨turns, rfl⟩ : ∃ k, turns = k + 1 := ⟨turns - 1, by omega⟩
    rw [eap_loop_end h, List.length_nil, Nat.add_zero, Nat.mod_eq_of_lt hlen, List.append_nil]

/-- An EAP-Message attribute adds its value. -/
theorem Gathers.here {value : Octets} (hhead : p + 2 ≤ d.length) (hn : 2 ≤ n)
    (hl : val d (p + 1) ≤ n) (htype : val d p = AVP_TYPE_EAP_MESSAGE)
    (hin : p + eapSpan d p ≤ d.length) (hfuel : d.length + 2 ≤ fuel)
    (h : Gathers d fuel (p + eapSpan d p) ((n + 65536 - eapSpan d p) % 65536) value) :
    Gathers d fuel p n ((d.drop (p + 2)).take (eapOctets d p) ++ value) := by
  have hspan : eapSpan d p = 2 + eapOctets d p := if_pos htype
  have hlength : ((d.drop (p + 2)).take (eapOctets d p)).length = eapOctets d p := by
    rw [List.length_take, List.length_drop]
    omega
  obtain ⟨fuel, rfl⟩ : ∃ k, fuel = k + 1 := ⟨fuel - 1, by omega⟩
  constructor
  · intro turns len copied hpos hturns hlen
    obtain ⟨turns, rfl⟩ : ∃ k, turns = k + 1 := ⟨turns - 1, by omega⟩
    rw [eap_loop_here hhead hn hl htype, copyTo_ok (by omega) (by simp)]
    simp only [Except.bind]
    rw [h.counted turns _ copied (by omega) (by omega) (Nat.mod_lt _ (by omega)),
      List.length_append, hlength]
    congr 2
    omega
  · intro room turns len copied hpos hturns hlen hroom
    obtain ⟨turns, rfl⟩ : ∃ k, turns = k + 1 := ⟨turns - 1, by omega⟩
    rw [List.length_append, hlength] at hroom
    rw [eap_loop_here hhead hn hl htype, copyTo_ok (by omega) (by
      intro room' heq
      cases heq
      omega)]
    simp only [Except.bind]
    rw [h.copied room turns _ _ (by omega) (by omega) (Nat.mod_lt _ (by omega)) (by
        rw [List.length_append, hlength]
        omega),
      List.length_append, hlength, List.append_assoc]
    congr 2
    omega

/-- Another attribute adds nothing. -/
theorem Gathers.past {value : Octets} (hhead : p + 2 ≤ d.length) (hn : n < 65536)
    (hl : val d (p + 1) < n) (htwo : 2 ≤ n) (htype : val d p ≠ AVP_TYPE_EAP_MESSAGE)
    (hmoves : val d (p + 1) ≠ 0) (hfuel : d.length + 2 ≤ fuel)
    (h : Gathers d fuel (p + val d (p + 1)) (n - val d (p + 1)) value) :
    Gathers d fuel p n value := by
  obtain ⟨r, hnext⟩ := eap_loop_search
    (h.counted (d.length + 2) 0 [] (by omega) (by omega) (by omega))
  have hr : avp_search d AVP_TYPE_EAP_MESSAGE fuel p n = .ok r := by
    obtain ⟨fuel, rfl⟩ : ∃ k, fuel = k + 1 := ⟨fuel - 1, by omega⟩
    rw [avp_search_head hhead htwo, if_neg (by omega), if_neg htype, if_pos hl]
    exact avp_search_enough hnext (by omega) (by omega)
  constructor
  · intro turns len copied hpos hturns hlen
    obtain ⟨turns, rfl⟩ : ∃ k, turns = k + 1 := ⟨turns - 1, by omega⟩
    rw [eap_loop_past hhead hn hl htwo htype hfuel hr]
    exact h.counted _ len copied hpos (by omega) hlen
  · intro room turns len copied hpos hturns hlen hroom
    obtain ⟨turns, rfl⟩ : ∃ k, turns = k + 1 := ⟨turns - 1, by omega⟩
    rw [eap_loop_past hhead hn hl htwo htype hfuel hr]
    exact h.copied room _ len copied hpos (by omega) hlen hroom

/-- The walk from the next attribute. -/
theorem EapFits.next (h : EapFits d p n) (hn : 2 ≤ n) (hl : val d (p + 1) ≤ n) :
    EapFits d (p + eapSpan d p) ((n + 65536 - eapSpan d p) % 65536) :=
  fun q m hreach => h q m (hreach.head hn rfl hl)

/-- An EAP octet is on the walk from here where it is here, or on the walk from the next. -/
theorem hasEap_head (hn : 2 ≤ n) (hl : val d (p + 1) ≤ n) :
    HasEap d p n ↔ (val d p = AVP_TYPE_EAP_MESSAGE ∧ eapOctets d p ≠ 0) ∨
      HasEap d (p + eapSpan d p) ((n + 65536 - eapSpan d p) % 65536) := by
  constructor
  · rintro ⟨q, m, hreach, hm, hlm, htype, hoctets⟩
    rcases hreach.cases_head with ⟨rfl, rfl⟩ | ⟨_, _, _, hrest⟩
    · exact Or.inl ⟨htype, hoctets⟩
    · exact Or.inr ⟨q, m, hrest, hm, hlm, htype, hoctets⟩
  · intro h
    rcases h with ⟨htype, hoctets⟩ | ⟨q, m, hreach, hrest⟩
    · exact ⟨p, n, .start, hn, hl, htype, hoctets⟩
    · exact ⟨q, m, hreach.head hn rfl hl, hrest⟩

theorem not_hasEap (h : n < 2 ∨ n < val d (p + 1)) : ¬ HasEap d p n := by
  rintro ⟨q, m, hreach, hm, hl, _⟩
  rcases hreach.cases_head with ⟨rfl, rfl⟩ | ⟨hn, _, hln, _⟩ <;> omega

/-- **Where every attribute on the walk fits**, the count and the copy agree; the induction
is on the octets behind. -/
theorem eap_runs (hfits : EapFits d p n) (hn : n < 65536) (hfuel : d.length + 2 ≤ fuel) :
    ∃ value, Gathers d fuel p n value ∧ value.length ≤ d.length - p ∧
      (value.length ≠ 0 ↔ HasEap d p n) := by
  induction hbehind : d.length - p using Nat.strongRecOn generalizing p n with
  | ind behind ih =>
  subst hbehind
  obtain ⟨fuel, rfl⟩ : ∃ k, fuel = k + 1 := ⟨fuel - 1, by omega⟩
  by_cases htwo : n < 2
  · exact ⟨[], .nothing (search_short htwo), by simp, by simp [not_hasEap (Or.inl htwo)]⟩
  obtain ⟨hhead, hfit⟩ := hfits p n .start (by omega)
  by_cases hl : val d (p + 1) ≤ n
  · obtain ⟨hin, hmoves⟩ := hfit hl
    by_cases htype : val d p = AVP_TYPE_EAP_MESSAGE
    · have hspan : eapSpan d p = 2 + eapOctets d p := if_pos htype
      have hinside := hin htype
      obtain ⟨value, hvalue, hshort, hsome⟩ := ih (d.length - (p + eapSpan d p)) (by omega)
        (hfits.next (by omega) hl) (Nat.mod_lt _ (by omega)) rfl
      refine ⟨_, .here hhead (by omega) hl htype hinside hfuel hvalue, ?_, ?_⟩
      · rw [List.length_append, List.length_take, List.length_drop]
        omega
      · rw [hasEap_head (by omega) hl, ← hsome, List.length_append, List.length_take,
          List.length_drop]
        simp only [htype, true_and]
        omega
    · have hpos := hmoves htype
      have hspan : eapSpan d p = val d (p + 1) := if_neg htype
      rcases Nat.lt_or_eq_of_le hl with hlt | heq
      · have hnext := hfits.next (by omega) hl
        have hleft : (n + 65536 - val d (p + 1)) % 65536 = n - val d (p + 1) := by omega
        rw [hspan, hleft] at hnext
        obtain ⟨value, hvalue, hshort, hsome⟩ := ih (d.length - (p + val d (p + 1))) (by omega)
          hnext (by omega) rfl
        refine ⟨value, .past hhead hn hlt (by omega) htype hpos hfuel hvalue, by omega, ?_⟩
        rw [hasEap_head (by omega) hl, hspan, hleft, hsome]
        simp [htype]
      · have hnone : avp_search d AVP_TYPE_EAP_MESSAGE (fuel + 1) p n = .ok none := by
          rw [avp_search_head hhead (by omega), if_neg (by omega), if_neg htype,
            if_neg (by omega)]
        refine ⟨[], .nothing hnone, by simp, ?_⟩
        have hleft : (n + 65536 - val d (p + 1)) % 65536 = 0 := by omega
        rw [hasEap_head (by omega) hl, hspan, hleft]
        simp [htype, not_hasEap (d := d) (Or.inl (by omega : (0 : Nat) < 2))]
  · have hnone : avp_search d AVP_TYPE_EAP_MESSAGE (fuel + 1) p n = .ok none := by
      rw [avp_search_head hhead (by omega), if_pos (by omega)]
    have hlong : n < val d (p + 1) := by omega
    exact ⟨[], .nothing hnone, by simp, by simp [not_hasEap (Or.inr hlong)]⟩

/-! ## The count alone -/

/-- What fits here and from the next attribute fits. -/
theorem EapFits.head (hhead : p + 2 ≤ d.length)
    (hin : val d p = AVP_TYPE_EAP_MESSAGE → p + eapSpan d p ≤ d.length)
    (hmoves : val d p ≠ AVP_TYPE_EAP_MESSAGE → val d (p + 1) ≠ 0)
    (h : val d (p + 1) ≤ n → EapFits d (p + eapSpan d p) ((n + 65536 - eapSpan d p) % 65536)) :
    EapFits d p n := by
  intro q m hreach hm
  rcases hreach.cases_head with ⟨rfl, rfl⟩ | ⟨_, _, hl, hrest⟩
  · exact ⟨hhead, fun _ => ⟨hin, hmoves⟩⟩
  · exact h hl q m hrest hm

theorem eapFits_short (hn : n < 2) : EapFits d p n := by
  intro q m hreach hm
  rcases hreach.cases_head with ⟨rfl, rfl⟩ | ⟨htwo, _⟩ <;> omega

/-- What the count is the count of: `total` octets in `number` attributes. -/
theorem eap_count (hfuel : d.length + 2 ≤ fuel) (hn : n < 65536) (hlen : len < 65536)
    (h : eap_avps_loop d none fuel turns p n len copied = .ok out) :
    ∃ total number, out.1 = (len + total) % 65536 ∧ total ≤ 255 * number ∧
      (number ≠ 0 → p + total + 2 * number ≤ d.length + 255) ∧
      (total = 0 → EapFits d p n ∧ ¬ HasEap d p n) := by
  induction hbehind : d.length - p using Nat.strongRecOn generalizing p n turns len copied with
  | ind behind ih =>
  subst hbehind
  have hstop : avp_search d AVP_TYPE_EAP_MESSAGE fuel p n = .ok none → out.1 = len := by
    intro hnone
    cases turns with
    | zero => cases h
    | succ turns =>
        rw [eap_loop_end hnone] at h
        cases h
        rfl
  have hfuel' : ∃ k, fuel = k + 1 := ⟨fuel - 1, by omega⟩
  by_cases htwo : n < 2
  · obtain ⟨k, rfl⟩ := hfuel'
    refine ⟨0, 0, ?_, by omega, by simp, fun _ => ⟨eapFits_short htwo, not_hasEap (Or.inl htwo)⟩⟩
    rw [hstop (search_short htwo)]
    omega
  obtain ⟨hhead, hmove⟩ := eap_move hfuel (by omega) hn h
  by_cases hl : val d (p + 1) ≤ n
  · obtain ⟨_, hmoves, turns', copied', hnext⟩ := hmove hl
    have hoctets : eapOctets d p < 256 := Nat.mod_lt _ (by omega)
    by_cases htype : val d p = AVP_TYPE_EAP_MESSAGE
    · have hspan : eapSpan d p = 2 + eapOctets d p := if_pos htype
      rw [if_pos htype] at hnext
      obtain ⟨total, number, hout, hmost, hbound, hnothing⟩ :=
        ih _ (by omega) (Nat.mod_lt _ (by omega)) (Nat.mod_lt _ (by omega)) hnext rfl
      refine ⟨eapOctets d p + total, number + 1, by omega, by omega, ?_, ?_⟩
      · intro _
        by_cases hnumber : number = 0
        · omega
        · have := hbound hnumber
          omega
      · intro hzero
        obtain ⟨hfits, hnone⟩ := hnothing (by omega)
        refine ⟨.head hhead (fun _ => by omega) hmoves fun _ => hfits, ?_⟩
        rw [hasEap_head (by omega) hl]
        rintro (⟨_, hsome⟩ | hsome)
        · omega
        · exact hnone hsome
    · have hspan : eapSpan d p = val d (p + 1) := if_neg htype
      have hpos := hmoves htype
      rw [if_neg htype] at hnext
      obtain ⟨total, number, hout, hmost, hbound, hnothing⟩ :=
        ih _ (by omega) (Nat.mod_lt _ (by omega)) hlen hnext rfl
      refine ⟨total, number, hout, hmost, ?_, ?_⟩
      · intro hnumber
        have := hbound hnumber
        omega
      · intro hzero
        obtain ⟨hfits, hnone⟩ := hnothing hzero
        refine ⟨.head hhead (fun h79 => absurd h79 htype) hmoves fun _ => hfits, ?_⟩
        rw [hasEap_head (by omega) hl]
        rintro (⟨h79, _⟩ | hsome)
        · exact htype h79
        · exact hnone hsome
  · obtain ⟨k, rfl⟩ := hfuel'
    have hnone : avp_search d AVP_TYPE_EAP_MESSAGE (k + 1) p n = .ok none := by
      rw [avp_search_head hhead (by omega), if_pos (by omega)]
    have hlong : n < val d (p + 1) := by omega
    refine ⟨0, 0, ?_, by omega, by simp, fun _ => ⟨?_, not_hasEap (Or.inr hlong)⟩⟩
    · rw [hstop hnone]
      omega
    · intro q m hreach hm
      rcases hreach.cases_head with ⟨rfl, rfl⟩ | ⟨_, _, hln, _⟩
      · exact ⟨hhead, fun hln => absurd hln (by omega)⟩
      · omega

/-- **A count of zero** means that no EAP octet is on the walk: the count does not come round. -/
theorem eap_count_zero (h : eap_avps_handle d none fuel p n = .ok out) (hn : n < 65536)
    (hd : d.length < 65536) (hzero : out.1 = 0) : EapFits d p n ∧ ¬ HasEap d p n := by
  have hmore := eap_loop_enough h (Nat.le_refl (d.length + 2))
  obtain ⟨total, number, hout, hmost, hbound, hnothing⟩ :=
    eap_count (by omega) hn (by omega) hmore
  apply hnothing
  rcases Nat.eq_zero_or_pos number with hnone | hsome
  · omega
  · have := hbound (by omega)
    omega

/-- The copy counts what the count does. -/
theorem eap_loop_agrees {out' : Nat × Octets} {counted : Octets}
    (h : eap_avps_loop d none fuel turns p n len counted = .ok out)
    (h' : eap_avps_loop d dest fuel turns p n len copied = .ok out') : out.1 = out'.1 := by
  induction turns generalizing p n len copied with
  | zero => cases h
  | succ turns ih =>
      obtain ⟨r, hr⟩ := eap_loop_search h
      match r, hr with
      | none, hr =>
          rw [eap_loop_end hr] at h h'
          cases h
          cases h'
          rfl
      | some (place, l), hr =>
          rw [eap_loop_found hr] at h h'
          cases hcopy : copyTo d dest copied place ((l + 256 - AVP_FIXED_LEN) % 256) with
          | error e =>
              rw [hcopy] at h'
              cases h'
          | ok next =>
              rw [hcopy] at h'
              exact ih h h'

end Radius
