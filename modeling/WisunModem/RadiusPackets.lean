import WisunModem.RadiusEap

/-!
# Well-formed attributes

A sequence of attributes as octets, the first attribute of a type or of a vendor in it, and
the EAP message that its EAP-Message attributes carry.

* `search_first`, `search_absent` — what a search reports on a sequence of attributes;
* `gathers_flat` — the EAP message is the values of the EAP-Message attributes in order.
-/

namespace Radius

/-- An attribute: its type and its value. -/
structure Avp where
  type : Nat
  value : Octets

/-- The type and the length fit in an octet each. -/
def Avp.Valid (a : Avp) : Prop := a.type < 256 ∧ a.value.length ≤ AVP_VALUE_MAX_LEN

/-- `avp_header_write`, and the value behind it; the length is an octet. -/
def Avp.octets (a : Avp) : Octets :=
  UInt8.ofNat a.type :: UInt8.ofNat (a.value.length + AVP_FIXED_LEN) :: a.value

/-- Attributes one after another. -/
def flat (avps : List Avp) : Octets := avps.flatMap Avp.octets

/-- The values of the EAP-Message attributes in order. -/
def eapMessage (avps : List Avp) : Octets :=
  (avps.filter fun a => a.type = AVP_TYPE_EAP_MESSAGE).flatMap Avp.value

/-- The value of the first attribute of a type. -/
def firstValue (type : Nat) (avps : List Avp) : Option Octets :=
  (avps.find? fun a => a.type = type).map Avp.value

@[simp] theorem flat_nil : flat [] = [] := rfl

@[simp] theorem flat_cons (a : Avp) (avps : List Avp) : flat (a :: avps) = a.octets ++ flat avps :=
  rfl

@[simp] theorem flat_append (before after : List Avp) :
    flat (before ++ after) = flat before ++ flat after := List.flatMap_append

@[simp] theorem Avp.length_octets (a : Avp) : a.octets.length = a.value.length + 2 := rfl

variable {d before e : Octets} {p n fuel type : Nat} {a : Avp} {avps : List Avp}

/-- Octets of a part of a datagram. -/
theorem val_middle (before part e : Octets) {i : Nat} (hi : i < part.length) :
    val (before ++ (part ++ e)) (before.length + i) = (part[i]).toNat := by
  rw [val, List.getD_eq_getElem?_getD, List.getElem?_append_right (by omega),
    show before.length + i - before.length = i by omega, List.getElem?_append_left hi,
    List.getElem?_eq_getElem hi]
  rfl

theorem val_type (before e : Octets) (ha : a.Valid) :
    val (before ++ (a.octets ++ e)) before.length = a.type := by
  have h := val_middle before a.octets e (i := 0) (by simp)
  rw [Nat.add_zero] at h
  rw [h]
  exact Nat.mod_eq_of_lt ha.1

theorem val_length (before e : Octets) (ha : a.Valid) :
    val (before ++ (a.octets ++ e)) (before.length + 1) = a.value.length + 2 := by
  have h := val_middle before a.octets e (i := 1) (by simp)
  have hshort := ha.2
  rw [h]
  exact Nat.mod_eq_of_lt (by simp only [AVP_VALUE_MAX_LEN, AVP_FIXED_LEN] at *; omega)

/-- Octets of a value. -/
theorem val_value (before e : Octets) {i : Nat} (hi : i < a.value.length) :
    val (before ++ (a.octets ++ e)) (before.length + 2 + i) = (a.value[i]).toNat := by
  have h := val_middle before a.octets e (i := 2 + i) (by simp; omega)
  rw [← Nat.add_assoc] at h
  rw [h]
  simp only [show 2 + i = i + 1 + 1 by omega, Avp.octets, List.getElem_cons_succ]

/-- The value of an attribute is what stands behind its head. -/
theorem take_value (before e : Octets) (a : Avp) :
    ((before ++ (a.octets ++ e)).drop (before.length + 2)).take a.value.length = a.value := by
  rw [List.drop_append, List.drop_eq_nil_of_le (by omega), List.nil_append,
    show before.length + 2 - before.length = 2 by omega, Avp.octets]
  simp only [List.cons_append, List.drop_succ_cons, List.drop_zero, List.take_left']

variable {check : Nat → Nat → Except Trouble (Option (Nat × Nat))}
  {found : Nat → Option (Nat × Nat)}

/-- A search passes over the attributes it does not look for. -/
theorem search_first {pre post : List Avp} (hcheck : Checks d check found)
    (hd : d = before ++ (flat (pre ++ a :: post) ++ e)) (hvalid : ∀ b ∈ pre ++ a :: post, b.Valid)
    (hnot : ∀ pre' b post', pre = pre' ++ b :: post' →
      (found (before.length + (flat pre').length)).isSome = false)
    (hsome : (found (before.length + (flat pre).length)).isSome) (hfuel : pre.length < fuel) :
    search check d fuel before.length (flat (pre ++ a :: post)).length =
      .ok (found (before.length + (flat pre).length)) := by
  induction pre generalizing before fuel with
  | nil =>
      obtain ⟨fuel, rfl⟩ : ∃ k, fuel = k + 1 := ⟨fuel - 1, by simp at hfuel; omega⟩
      simp only [List.nil_append, flat_nil, List.length_nil, Nat.add_zero] at hsome ⊢
      have hl : val d (before.length + 1) = a.value.length + 2 := by
        rw [hd, List.nil_append, flat_cons, List.append_assoc, val_length _ _ (hvalid a (by simp))]
      rw [search_succ hcheck (by rw [hd]; simp) (by simp; omega), hl,
        if_neg (by simp), if_pos hsome]
  | cons b pre ih =>
      obtain ⟨fuel, rfl⟩ : ∃ k, fuel = k + 1 := ⟨fuel - 1, by simp at hfuel; omega⟩
      have hl : val d (before.length + 1) = b.value.length + 2 := by
        rw [hd, List.cons_append, flat_cons, List.append_assoc,
          val_length _ _ (hvalid b (by simp))]
      have hb : (found before.length).isSome = false := by
        simpa using hnot [] b pre rfl
      have hmore : (flat (b :: (pre ++ a :: post))).length > b.value.length + 2 := by
        simp only [flat_cons, flat_append, List.length_append, Avp.length_octets]
        omega
      rw [List.cons_append, search_succ hcheck (by rw [hd]; simp) (by simp; omega), hl,
        if_neg (by simp), hb, if_neg (by simp), if_pos hmore]
      have hbefore : (before ++ b.octets).length = before.length + (b.value.length + 2) := by simp
      have hnext := @ih (before ++ b.octets) fuel
        (by rw [hd]; simp) (fun c hc => hvalid c (by simp at hc ⊢; tauto))
        (by
          intro pre' c post' hpre
          have hc := hnot (b :: pre') c post' (by rw [hpre]; rfl)
          rw [hbefore]
          simpa [Nat.add_assoc] using hc)
        (by
          rw [hbefore]
          simpa [Nat.add_assoc] using hsome)
        (by simpa using hfuel)
      have hleft : (flat (b :: (pre ++ a :: post))).length - (b.value.length + 2) =
          (flat (pre ++ a :: post)).length := by simp
      have hplace : before.length + (flat (b :: pre)).length =
          before.length + (b.value.length + 2) + (flat pre).length := by simp; omega
      rw [hleft, hplace]
      rw [hbefore] at hnext
      exact hnext

/-- A search that finds nothing among attributes ends behind them. -/
theorem search_absent (hcheck : Checks d check found) (hd : d = before ++ (flat avps ++ e))
    (hvalid : ∀ b ∈ avps, b.Valid)
    (hnot : ∀ pre b post, avps = pre ++ b :: post →
      (found (before.length + (flat pre).length)).isSome = false)
    (hfuel : avps.length < fuel) :
    search check d fuel before.length (flat avps).length = .ok none := by
  induction avps generalizing before fuel with
  | nil =>
      obtain ⟨fuel, rfl⟩ : ∃ k, fuel = k + 1 := ⟨fuel - 1, by simp at hfuel; omega⟩
      exact search_short (by simp)
  | cons b avps ih =>
      obtain ⟨fuel, rfl⟩ : ∃ k, fuel = k + 1 := ⟨fuel - 1, by simp at hfuel; omega⟩
      have hl : val d (before.length + 1) = b.value.length + 2 := by
        rw [hd, flat_cons, List.append_assoc, val_length _ _ (hvalid b (by simp))]
      have hb : (found before.length).isSome = false := by
        simpa using hnot [] b avps rfl
      rw [search_succ hcheck (by rw [hd]; simp) (by simp; omega), hl, if_neg (by simp),
        hb, if_neg (by simp)]
      split
      · have hbefore : (before ++ b.octets).length = before.length + (b.value.length + 2) := by
          simp
        have hnext := @ih (before ++ b.octets) fuel
          (by rw [hd]; simp) (fun c hc => hvalid c (by simp [hc]))
          (by
            intro pre' c post' hpre
            have hc := hnot (b :: pre') c post' (by rw [hpre]; rfl)
            rw [hbefore]
            simpa [Nat.add_assoc] using hc)
          (by simpa using hfuel)
        rw [hbefore] at hnext
        simpa using hnext
      · rfl

/-- There are no more attributes than octets. -/
theorem length_le_flat (avps : List Avp) : avps.length ≤ (flat avps).length := by
  induction avps with
  | nil => simp
  | cons b avps ih =>
      simp only [List.length_cons, flat_cons, List.length_append, Avp.length_octets]
      omega

/-! ## Attributes of a type -/

theorem ofType_at {pre post : List Avp} (hd : d = before ++ (flat (pre ++ a :: post) ++ e))
    (ha : a.Valid) (type : Nat) :
    ofType d type (before.length + (flat pre).length) =
      if a.type = type then
        some (before.length + (flat pre).length + 2, a.value.length + 2) else none := by
  have hplace : before.length + (flat pre).length = (before ++ flat pre).length := by simp
  have hparts : d = (before ++ flat pre) ++ (a.octets ++ (flat post ++ e)) := by
    rw [hd]
    simp
  rw [ofType, hplace, hparts, val_type _ _ ha, val_length _ _ ha]

/-- **The first attribute of a type** is reported with its place and its length. -/
theorem avp_search_first {pre post : List Avp}
    (hd : d = before ++ (flat (pre ++ a :: post) ++ e)) (hvalid : ∀ b ∈ pre ++ a :: post, b.Valid)
    (hnot : ∀ b ∈ pre, b.type ≠ type) (htype : a.type = type) (hfuel : pre.length < fuel) :
    avp_search d type fuel before.length (flat (pre ++ a :: post)).length =
      .ok (some (before.length + (flat pre).length + 2, a.value.length + 2)) := by
  have hfound := ofType_at hd (hvalid a (by simp)) type
  rw [if_pos htype] at hfound
  rw [avp_search, search_first (checks_type d type) hd hvalid _ (by rw [hfound]; rfl) hfuel,
    hfound]
  intro pre' b post' hpre
  have hb : b ∈ pre := by simp [hpre]
  have hparts : d = before ++ (flat (pre' ++ b :: (post' ++ a :: post)) ++ e) := by
    rw [hd, hpre]
    simp
  rw [ofType_at hparts (hvalid b (by simp [hb])), if_neg (hnot b hb)]
  rfl

theorem avp_search_absent (hd : d = before ++ (flat avps ++ e)) (hvalid : ∀ b ∈ avps, b.Valid)
    (hnot : ∀ b ∈ avps, b.type ≠ type) (hfuel : avps.length < fuel) :
    avp_search d type fuel before.length (flat avps).length = .ok none := by
  apply search_absent (checks_type d type) hd hvalid _ hfuel
  intro pre b post havps
  have hb : b ∈ avps := by simp [havps]
  rw [ofType_at (by rw [hd, havps]) (hvalid b hb), if_neg (hnot b hb)]
  rfl

/-- The first attribute of a type is reported with the place and the length of its value. -/
theorem avp_search_flat (type : Nat) (hd : d = before ++ (flat avps ++ e))
    (hvalid : ∀ b ∈ avps, b.Valid) (hfuel : avps.length < fuel) :
    match firstValue type avps with
    | none => avp_search d type fuel before.length (flat avps).length = .ok none
    | some value => ∃ place, place + value.length ≤ before.length + (flat avps).length ∧
        value.length ≤ AVP_VALUE_MAX_LEN ∧ (d.drop place).take value.length = value ∧
        avp_search d type fuel before.length (flat avps).length =
          .ok (some (place, value.length + 2)) := by
  cases hfirst : avps.find? fun a => a.type = type with
  | none =>
      rw [firstValue, hfirst]
      refine avp_search_absent hd hvalid ?_ hfuel
      simpa using hfirst
  | some a =>
      obtain ⟨htype, pre, post, havps, hnot⟩ := List.find?_eq_some_iff_append.mp hfirst
      subst havps
      rw [firstValue, hfirst]
      refine ⟨before.length + (flat pre).length + 2, ?_, (hvalid a (by simp)).2, ?_, ?_⟩
      · simp
        omega
      · have hparts : d = (before ++ flat pre) ++ (a.octets ++ (flat post ++ e)) := by
          rw [hd]
          simp
        have hvalue := take_value (before ++ flat pre) (flat post ++ e) a
        rwa [← hparts, List.length_append] at hvalue
      · exact avp_search_first hd hvalid (by simpa using hnot) (by simpa using htype)
          (by simp at hfuel; omega)

/-! ## The EAP message -/

theorem eapOctets_at (before e : Octets) (ha : a.Valid) :
    eapOctets (before ++ (a.octets ++ e)) before.length = a.value.length := by
  have hshort := ha.2
  rw [eapOctets, val_length _ _ ha]
  simp only [AVP_VALUE_MAX_LEN, AVP_FIXED_LEN] at *
  omega

theorem eapSpan_at (before e : Octets) (ha : a.Valid) :
    eapSpan (before ++ (a.octets ++ e)) before.length = a.value.length + 2 := by
  rw [eapSpan, eapOctets_at before e ha, val_length _ _ ha]
  split
  · exact Nat.add_comm _ _
  · rfl

/-- **The EAP message** is the values of the EAP-Message attributes, in order. -/
theorem gathers_flat (hd : d = before ++ (flat avps ++ e)) (hvalid : ∀ b ∈ avps, b.Valid)
    (hn : (flat avps).length < 65536) (hfuel : d.length + 2 ≤ fuel) :
    Gathers d fuel before.length (flat avps).length (eapMessage avps) := by
  induction avps generalizing before with
  | nil =>
      obtain ⟨fuel, rfl⟩ : ∃ k, fuel = k + 1 := ⟨fuel - 1, by omega⟩
      exact .nothing (search_short (by simp))
  | cons a avps ih =>
      have ha := hvalid a (by simp)
      have hparts : d = before ++ (a.octets ++ (flat avps ++ e)) := by
        rw [hd, flat_cons, List.append_assoc]
      have hl : val d (before.length + 1) = a.value.length + 2 := by
        rw [hparts, val_length _ _ ha]
      have htype : val d before.length = a.type := by rw [hparts, val_type _ _ ha]
      have hspan : eapSpan d before.length = a.value.length + 2 := by
        rw [hparts, eapSpan_at _ _ ha]
      have hoctets : eapOctets d before.length = a.value.length := by
        rw [hparts, eapOctets_at _ _ ha]
      have hlength : (flat (a :: avps)).length = a.value.length + 2 + (flat avps).length := by
        simp
      have hsize : d.length =
          before.length + (a.value.length + 2 + ((flat avps).length + e.length)) := by
        rw [hparts]
        simp
      have hnext := @ih (before ++ a.octets) (by rw [hparts]; simp)
        (fun b hb => hvalid b (by simp [hb])) (by omega)
      have hplace : (before ++ a.octets).length = before.length + (a.value.length + 2) := by simp
      rw [hplace] at hnext
      by_cases h79 : a.type = AVP_TYPE_EAP_MESSAGE
      · have hvalue : (d.drop (before.length + 2)).take a.value.length = a.value := by
          rw [hparts, take_value]
        have hmessage : eapMessage (a :: avps) = a.value ++ eapMessage avps := by
          simp [eapMessage, h79]
        have hleft : ((flat (a :: avps)).length + 65536 - eapSpan d before.length) % 65536 =
            (flat avps).length := by omega
        rw [hmessage, ← hvalue, ← hoctets]
        refine .here (by omega) (by omega) (by omega) (by omega) (by omega) hfuel ?_
        rw [hleft, hspan]
        exact hnext
      · have hmessage : eapMessage (a :: avps) = eapMessage avps := by
          simp [eapMessage, h79]
        rw [hmessage]
        by_cases hempty : (flat avps).length = 0
        · have hnil : avps = [] := by
            cases avps with
            | nil => rfl
            | cons b avps => simp at hempty
          subst hnil
          apply Gathers.nothing
          obtain ⟨fuel, rfl⟩ : ∃ k, fuel = k + 1 := ⟨fuel - 1, by omega⟩
          rw [avp_search_head (by omega) (by omega), if_neg (by omega),
            if_neg (by rw [htype]; exact h79), if_neg (by omega)]
        · have hleft : (flat (a :: avps)).length - (a.value.length + 2) = (flat avps).length := by
            omega
          apply Gathers.past (by omega) (by omega) (by omega) (by omega)
            (by rw [htype]; exact h79) (by omega) hfuel
          rw [hl, hleft]
          exact hnext

/-! ## Attributes of a vendor -/

/-- The value of a vendor's attribute. -/
def vendorValue (vendor_id vendor_type : Nat) (a : Avp) : Option Octets :=
  match a.value with
  | _ :: id1 :: id2 :: id3 :: type :: _ :: value =>
      if a.type = AVP_TYPE_VENDOR_SPECIFIC ∧
          65536 * id1.toNat + 256 * id2.toNat + id3.toNat = vendor_id ∧
          type.toNat = vendor_type
        then some value else none
  | _ => none

/-- A vendor's attribute holds one value of the vendor's, which is not empty, and the vendor
length says so. -/
def Avp.VendorFormed (a : Avp) : Prop :=
  a.type = AVP_TYPE_VENDOR_SPECIFIC →
    ∃ id1 id2 id3 type : UInt8, ∃ value : Octets, value ≠ [] ∧
      a.value = 0 :: id1 :: id2 :: id3 :: type :: UInt8.ofNat (value.length + 2) :: value

theorem ofVendor_at (before e : Octets) (ha : a.Valid) (hformed : a.VendorFormed)
    (vendor_id vendor_type : Nat) :
    ofVendor (before ++ (a.octets ++ e)) vendor_id vendor_type before.length =
      (vendorValue vendor_id vendor_type a).map fun value =>
        (before.length + 8, value.length + 2) := by
  rw [ofVendor, val_type _ _ ha, val_length _ _ ha]
  by_cases htype : a.type = AVP_TYPE_VENDOR_SPECIFIC
  · obtain ⟨id1, id2, id3, type, value, hsome, hvalue⟩ := hformed htype
    have hpos := List.length_pos_iff.mpr hsome
    have hlength : a.value.length = value.length + 6 := by rw [hvalue]; rfl
    have hshort := ha.2
    have hat : ∀ i (hi : i < a.value.length),
        val (before ++ (a.octets ++ e)) (before.length + 2 + i) = (a.value[i]).toNat :=
      fun i hi => val_value before e hi
    have h1 := hat 1 (by omega)
    have h2 := hat 2 (by omega)
    have h3 := hat 3 (by omega)
    have h4 := hat 4 (by omega)
    have h5 := hat 5 (by omega)
    simp only [hvalue, List.getElem_cons_succ, List.getElem_cons_zero, Nat.add_assoc,
      Nat.reduceAdd, UInt8.toNat_ofNat'] at h1 h2 h3 h4 h5
    have hvlen : (value.length + 2) % 2 ^ 8 = value.length + 2 := by
      simp only [AVP_VALUE_MAX_LEN] at hshort
      omega
    rw [h1, h2, h3, h4, h5, hvlen, vendorValue, hvalue]
    simp only [htype, true_and, List.length_cons]
    split
    next h => rw [if_pos h.2]; rfl
    next h =>
      rw [if_neg]
      · rfl
      · intro hmatch
        exact h ⟨by omega, hmatch⟩
  · have hnone : vendorValue vendor_id vendor_type a = none := by
      rw [vendorValue]
      split
      · exact if_neg fun h => htype h.1
      · rfl
    rw [hnone, if_neg fun h => htype h.1.1]
    rfl

/-- A vendor's value stands behind six octets. -/
theorem vendorValue_some {vendor_id vendor_type : Nat} {value : Octets}
    (h : vendorValue vendor_id vendor_type a = some value) :
    a.value.length = value.length + 6 ∧ a.value.drop 6 = value := by
  rw [vendorValue] at h
  split at h
  next heq =>
    split at h
    · cases h
      simp [heq]
    · cases h
  next => cases h

/-- The value of the first attribute of a vendor. -/
def firstVendorValue (vendor_id vendor_type : Nat) (avps : List Avp) : Option Octets :=
  avps.findSome? (vendorValue vendor_id vendor_type)

/-- **The first attribute of a vendor** is reported with the place and the length of what the
vendor put in it. -/
theorem avp_vpa_search_first (vendor_id vendor_type : Nat)
    (hd : d = before ++ (flat avps ++ e)) (hvalid : ∀ b ∈ avps, b.Valid)
    (hformed : ∀ b ∈ avps, b.VendorFormed) (hfuel : avps.length < fuel) :
    match firstVendorValue vendor_id vendor_type avps with
    | none =>
        avp_vpa_search d vendor_id vendor_type fuel before.length (flat avps).length = .ok none
    | some value => ∃ place, place + value.length ≤ before.length + (flat avps).length ∧
        (d.drop place).take value.length = value ∧
        avp_vpa_search d vendor_id vendor_type fuel before.length (flat avps).length =
          .ok (some (place, value.length + 2)) := by
  have hat : ∀ pre b post, avps = pre ++ b :: post →
      ofVendor d vendor_id vendor_type (before.length + (flat pre).length) =
        (vendorValue vendor_id vendor_type b).map fun value =>
          (before.length + (flat pre).length + 8, value.length + 2) := by
    intro pre b post havps
    have hparts : d = (before ++ flat pre) ++ (b.octets ++ (flat post ++ e)) := by
      rw [hd, havps]
      simp
    have hb : b ∈ avps := by simp [havps]
    have h := ofVendor_at (before ++ flat pre) (flat post ++ e) (hvalid b hb) (hformed b hb)
      vendor_id vendor_type
    rw [← hparts] at h
    simpa using h
  cases hfirst : firstVendorValue vendor_id vendor_type avps with
  | none =>
      rw [firstVendorValue, List.findSome?_eq_none_iff] at hfirst
      apply search_absent (checks_vendor d _ _) hd hvalid _ hfuel
      intro pre b post havps
      rw [hat pre b post havps, hfirst b (by simp [havps])]
      rfl
  | some value =>
      obtain ⟨pre, a, post, havps, hvalue, hnot⟩ := List.findSome?_eq_some_iff.mp hfirst
      have hfound := hat pre a post havps
      rw [hvalue, Option.map_some] at hfound
      obtain ⟨hlength, hdrop⟩ := vendorValue_some hvalue
      refine ⟨before.length + (flat pre).length + 8, ?_, ?_, ?_⟩
      · simp [havps]
        omega
      · have hparts : d = (before ++ flat pre) ++ (a.octets ++ (flat post ++ e)) := by
          rw [hd, havps]
          simp
        have hwhole := take_value (before ++ flat pre) (flat post ++ e) a
        rw [← hparts, List.length_append] at hwhole
        rw [← hdrop, ← hwhole, List.drop_take, List.drop_drop, hlength]
        simp [Nat.add_assoc]
      · subst havps
        rw [avp_vpa_search, search_first (checks_vendor d _ _) hd hvalid _ (by rw [hfound]; rfl)
          (by simp at hfuel; omega), hfound]
        intro pre' b post' hpre
        rw [hat pre' b (post' ++ a :: post) (by rw [hpre]; simp), hnot b (by simp [hpre])]
        rfl

end Radius
