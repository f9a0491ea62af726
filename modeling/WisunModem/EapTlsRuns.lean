import WisunModem.EapTlsSession

/-!
# Runs of the EAP-TLS exchange

A flight goes over one fragment at a time, and each message has one of six turns: a side
computes, a fragment goes over, or its acknowledgement.  Repeated, late and lost messages
leave the turn as it is.  An identifier that starts again at 0 ends the exchange, as does a
packet of the start that is taken again before there is a flight.
-/

namespace EapTls

/-- Whose message is next, and what it carries. -/
inductive Turn
  | suppComputes
  | toAuth (g : Flight) (k : Nat)
  | authAck (g : Flight) (k : Nat)
  | authComputes
  | toSupp (f : Flight) (h : Nat)
  | suppAck (f : Flight) (h : Nat)

namespace Turn

/-- The request is still on its way, or not sent yet. -/
def ahead : Turn → Bool
  | authAck .. | authComputes | toSupp .. => true
  | _ => false

/-- The request on its way. -/
def next : Turn → Option (List UInt8)
  | authAck .. => some [0]
  | toSupp f h => some (fragmentOf f.octets h)
  | _ => none

/-- The response on its way. -/
def reply : Turn → Option (List UInt8)
  | toAuth g k => some (fragmentOf g.octets k)
  | suppAck .. => some [0]
  | _ => none

/-- The flight on its way to the supplicant. -/
def inSupp : Turn → List Buffer
  | toSupp f _ | suppAck f _ => [f.octets.map some]
  | _ => []

/-- The flight on its way to the authenticator. -/
def inAuth : Turn → List Buffer
  | toAuth g _ | authAck g _ => [g.octets.map some]
  | _ => []

def authRecv : Turn → TlsData
  | toAuth g k => receiving g.octets k
  | authAck g k => receiving g.octets (k + fragmentLen)
  | _ => .init

def suppRecv : Turn → TlsData
  | toSupp f h => receiving f.octets h
  | suppAck f h => receiving f.octets (h + fragmentLen)
  | _ => .init

/-- What the send buffer of the authenticator holds, where that matters. -/
def authNeeds : Turn → Option (List UInt8 × Nat)
  | authAck .. => some ([], 0)
  | toSupp f h | suppAck f h => some (f.octets, h)
  | _ => none

/-- What the send buffer of the supplicant holds, where that matters. -/
def suppNeeds : Turn → Option (List UInt8 × Nat)
  | toAuth g k | authAck g k => some (g.octets, k)
  | suppAck .. => some ([], 0)
  | _ => none

/-- How far the flight is. -/
def InRange : Turn → Prop
  | toAuth g k => k < g.octets.length
  | authAck g k => k + fragmentLen < g.octets.length
  | toSupp f h => h < f.octets.length
  | suppAck f h => h + fragmentLen < f.octets.length
  | _ => True

/-- The last request that the supplicant handled. -/
def Known (known : List UInt8) : Turn → Prop
  | toSupp f h => Calm known ∨ h ≠ 0 ∧ ∃ h', h' + fragmentLen < f.octets.length ∧
      known = fragmentOf f.octets h'
  | suppAck f h => known = fragmentOf f.octets h
  | _ => Calm known

/-- The messages that are left of the flight on its way, at least. -/
def left : Turn → Nat
  | toAuth g k => 2 * (g.octets.length - k) + 1
  | authAck g k => 2 * (g.octets.length - k)
  | toSupp f h => 2 * (f.octets.length - h) + 1
  | suppAck f h => 2 * (f.octets.length - h)
  | _ => 0

end Turn

/-- The session has this turn; the supplicant handled the request `known` last. -/
structure At (t : Session) (known : List UInt8) (turn : Turn) : Prop where
  finished : t.auth.finished = false
  order : if turn.ahead then t.supp.eapIdSeq < t.auth.eapIdSeq
    else t.supp.eapIdSeq = t.auth.eapIdSeq
  requests : ∀ p ∈ t.requests, p.id < t.supp.eapIdSeq ∨
    (p.id = t.supp.eapIdSeq ∧ p.body = known) ∨
      (p.id = t.auth.eapIdSeq ∧ turn.ahead = true ∧ turn.next = some p.body)
  responses : ∀ p ∈ t.responses, p.id ≤ t.supp.eapIdSeq ∧
    (p.id = t.auth.eapIdSeq → turn.reply = some p.body)
  authRecv : t.auth.tlsRecv = turn.authRecv
  suppRecv : t.supp.tlsRecv = turn.suppRecv
  authWait : t.auth.waitTls = true ↔ turn = .authComputes
  suppWait : t.supp.waitTls = true ∨ t.toAuth = [] ↔ turn = .suppComputes
  started : turn.ahead = true ∨ turn.authNeeds ≠ none → t.auth.started = true
  sends : turn ≠ .authComputes → t.auth.Sends (turn.next.getD known)
  authHolds : ∀ f h, turn.authNeeds = some (f, h) → Holds t.auth.tlsSend f h
  suppHolds : ∃ g k, Holds t.supp.tlsSend g k ∧ ∀ x, turn.suppNeeds = some x → x = (g, k)
  known : turn.Known known
  range : turn.InRange
  gotSupp : t.gotSupp ++ turn.inSupp = t.toSupp.map fun f => f.octets.map some
  gotAuth : t.gotAuth ++ turn.inAuth = t.toAuth.map fun g => g.octets.map some

namespace At

variable {t : Session} {known : List UInt8} {turn : Turn} {p : Message}

/-! ## Events that leave the turn -/

theorem tick (h : At t known turn) (ticks : Nat) :
    At { t with supp := t.supp.timeout ticks } known turn :=
  { h with }

theorem loseRequest (h : At t known turn) (p : Message) :
    At { t with requests := t.requests.erase p } known turn :=
  { h with requests := fun q hq => h.requests q (List.mem_of_mem_erase hq) }

theorem loseResponse (h : At t known turn) (p : Message) :
    At { t with responses := t.responses.erase p } known turn :=
  { h with responses := fun q hq => h.responses q (List.mem_of_mem_erase hq) }

/-- The authenticator sends its request again. -/
theorem retry (h : At t known turn) (hturn : turn ≠ .authComputes) :
    ∃ send, t.auth.messageSend =
        .ok ({ t.auth with tlsSend := send }, [⟨t.auth.eapIdSeq, turn.next.getD known⟩]) ∧
      At { t with
        auth := { t.auth with tlsSend := send }
        requests := t.requests ++ [⟨t.auth.eapIdSeq, turn.next.getD known⟩] } known turn := by
  obtain ⟨send, hsent, hsends, hholds⟩ := (h.sends hturn).again
  refine ⟨send, hsent, { h with requests := ?_, sends := fun _ => hsends, authHolds := ?_ }⟩
  · intro p hp
    rcases List.mem_append.mp hp with hp | hp
    · exact h.requests p hp
    · obtain rfl := List.mem_singleton.mp hp
      have horder := h.order
      cases turn with
      | authComputes => exact absurd rfl hturn
      | authAck | toSupp => exact .inr (.inr ⟨rfl, rfl, rfl⟩)
      | suppComputes | toAuth | suppAck => exact .inr (.inl ⟨horder.symm, rfl⟩)
  · intro f k hneeds
    exact hholds f k (h.started (.inr (by rw [hneeds]; exact Option.some_ne_none _)))
      (h.authHolds f k hneeds)

theorem waits (h : At t known turn) (hturn : turn ≠ .suppComputes) :
    t.supp.waitTls = false ∧ t.toAuth ≠ [] := by
  have hno := mt h.suppWait.mp hturn
  exact ⟨Bool.eq_false_iff.mpr fun hwait => hno (.inl hwait), fun hnil => hno (.inr hnil)⟩

theorem again_outcome (h : At t known turn) (hid : p.id = t.supp.eapIdSeq)
    (hbody : p.body = known) :
    ∃ outcome g k g' k', t.supp.receive p = .ok outcome ∧ t.supp.Again g k g' k' outcome ∧
      ∀ x, turn.suppNeeds = some x → x = (g, k) ∧ x = (g', k') := by
  obtain ⟨g, k, hsend, hneeds⟩ := h.suppHolds
  have hcalm (hc : Calm known) := Supp.receive_calm hid (hbody ▸ hc) hsend
  have hknown := h.known
  have hrecv := h.suppRecv
  cases turn with
  | toSupp f n =>
      rcases hknown with hknown | ⟨hn, n', hmore, hknown⟩
      · obtain ⟨outcome, heq, hagain⟩ := hcalm hknown
        exact ⟨outcome, g, k, g, k, heq, hagain, fun x hx => by cases hx⟩
      · have hopen : t.supp.tlsRecv.data ≠ none := by
          rw [hrecv, Turn.suppRecv, receiving, if_neg hn]
          exact Option.some_ne_none _
        obtain ⟨outcome, heq, hagain⟩ :=
          Supp.receive_loud hid (hbody.trans hknown) hmore hopen hsend
        exact ⟨outcome, g, k, [], 0, heq, hagain, fun x hx => by cases hx⟩
  | suppAck f n =>
      have hopen : t.supp.tlsRecv.data ≠ none := by
        rw [hrecv, Turn.suppRecv, receiving_next]
        exact Option.some_ne_none _
      obtain ⟨outcome, heq, hagain⟩ :=
        Supp.receive_loud hid (hbody.trans hknown) h.range hopen hsend
      exact ⟨outcome, g, k, [], 0, heq, hagain, fun x hx => ⟨hneeds x hx, by cases hx; rfl⟩⟩
  | suppComputes | toAuth | authAck | authComputes =>
      obtain ⟨outcome, heq, hagain⟩ := hcalm hknown
      exact ⟨outcome, g, k, g, k, heq, hagain, fun x hx => ⟨hneeds x hx, hneeds x hx⟩⟩

/-- A request that comes again at the supplicant. -/
theorem requestAgain (h : At t known turn) (hid : p.id = t.supp.eapIdSeq) (hbody : p.body = known)
    (hfirst : t.supp.burstFiltTimer = 0 → t.toAuth ≠ []) :
    ∃ supp sent, t.supp.receive p = .ok (supp, sent, []) ∧
      At { t with supp := supp, responses := t.responses ++ sent } known turn ∧
      supp.eapIdSeq = t.supp.eapIdSeq ∧ (turn ≠ .suppComputes → t.supp.burstFiltTimer = 0 →
        ∃ m ∈ sent, m.id = t.supp.eapIdSeq) := by
  obtain ⟨⟨supp, sent, got⟩, g, k, g', k', heq, hagain, hneeds⟩ := h.again_outcome hid hbody
  obtain ⟨hsuppId, hrecv, hwait, rfl, hsend, hsilent, hanswers⟩ := hagain
  dsimp only at hsuppId hrecv hwait hsend hsilent hanswers
  have hsent : ∀ m ∈ sent, m = ⟨t.supp.eapIdSeq, fragmentOf g' k'⟩ := by
    rcases hsend with ⟨-, rfl⟩ | ⟨-, hsent⟩
    · exact fun m hm => by cases hm
    · exact hsent
  refine ⟨supp, sent, heq, { h with
    order := ?_, requests := ?_, responses := ?_, suppRecv := hrecv.trans h.suppRecv
    suppWait := ?_, suppHolds := ?_ }, hsuppId, ?_⟩
  · exact hsuppId ▸ h.order
  · exact hsuppId ▸ h.requests
  · intro m hm
    rw [hsuppId]
    rcases List.mem_append.mp hm with hm | hm
    · exact h.responses m hm
    · obtain rfl := hsent m hm
      refine ⟨UInt8.le_refl _, fun hsame => ?_⟩
      have horder := h.order
      cases turn with
      | suppComputes =>
          have hno : sent = [] := by
            apply hsilent
            by_cases hwaits : t.supp.waitTls = true
            · exact .inl hwaits
            · have hnil := (h.suppWait.mpr rfl).resolve_left hwaits
              exact .inr (Nat.pos_of_ne_zero fun hzero => hfirst hzero hnil)
          rw [hno] at hm
          cases hm
      | toAuth g₀ k₀ =>
          obtain ⟨-, hx⟩ := hneeds _ rfl
          obtain ⟨rfl, rfl⟩ := Prod.mk.inj hx
          rfl
      | suppAck =>
          obtain ⟨-, hx⟩ := hneeds _ rfl
          obtain ⟨rfl, rfl⟩ := Prod.mk.inj hx
          rfl
      | authAck | authComputes | toSupp =>
          have hlt : t.supp.eapIdSeq < t.auth.eapIdSeq := horder
          exact absurd (hsame ▸ hlt) (UInt8.lt_irrefl _)
  · show supp.waitTls = true ∨ t.toAuth = [] ↔ _
    rw [hwait]
    exact h.suppWait
  · rcases hsend with ⟨hholds, -⟩ | ⟨hholds, -⟩
    · exact ⟨g, k, hholds, fun x hx => (hneeds x hx).1⟩
    · exact ⟨g', k', hholds, fun x hx => (hneeds x hx).2⟩
  · intro hturn hburst
    have := hanswers (h.waits hturn).1 hburst
    exact ⟨⟨t.supp.eapIdSeq, fragmentOf g' k'⟩, this ▸ List.mem_singleton_self _, rfl⟩

/-! ## Events that move the turn on -/

/-- Once the supplicant has the request on its way, all others are older. -/
theorem requests_taken {body : List UInt8} (h : At t known turn) (hahead : turn.ahead = true)
    (hnext : turn.next = some body) :
    ∀ p ∈ t.requests, p.id < t.auth.eapIdSeq ∨ (p.id = t.auth.eapIdSeq ∧ p.body = body) := by
  have hlt : t.supp.eapIdSeq < t.auth.eapIdSeq := by
    have := h.order
    rwa [if_pos hahead] at this
  intro p hp
  rcases h.requests p hp with hold | ⟨hsame, -⟩ | ⟨hnew, -, hbody⟩
  · exact .inl (UInt8.lt_trans hold hlt)
  · exact .inl (hsame ▸ hlt)
  · exact .inr ⟨hnew, Option.some.inj (hbody.symm.trans hnext)⟩

theorem responses_taken (h : At t known turn) (hahead : turn.ahead = true) :
    ∀ p ∈ t.responses, p.id < t.auth.eapIdSeq := by
  have hlt : t.supp.eapIdSeq < t.auth.eapIdSeq := by
    have := h.order
    rwa [if_pos hahead] at this
  exact fun p hp => UInt8.lt_of_le_of_lt (h.responses p hp).1 hlt

/-- A fragment before the last arrives at the supplicant. -/
theorem toSupp_more {f : Flight} {n : Nat} (h : At t known (.toSupp f n))
    (hid : p.id = t.auth.eapIdSeq) (hbody : p.body = fragmentOf f.octets n)
    (hmore : n + fragmentLen < f.octets.length) :
    ∃ supp sent, t.supp.receive p = .ok (supp, sent, []) ∧
      At { t with supp := supp, responses := t.responses ++ sent } (fragmentOf f.octets n)
        (.suppAck f n) := by
  have hlt : t.supp.eapIdSeq < t.auth.eapIdSeq := h.order
  have hwaits := h.waits (by simp)
  obtain ⟨supp, heq, hsuppId, hrecv, hwait, hholds⟩ :=
    Supp.receive_more (hid ▸ hlt) hbody f.size hmore h.suppRecv hwaits.1
  rw [hid] at hsuppId heq
  refine ⟨supp, _, heq, {
    finished := h.finished, order := hsuppId, requests := ?_, responses := ?_
    authRecv := h.authRecv, suppRecv := hrecv, authWait := ?_, suppWait := ?_
    started := fun _ => h.started (.inl rfl), sends := fun _ => h.sends (by simp)
    authHolds := h.authHolds, suppHolds := ⟨[], 0, hholds, ?_⟩, known := rfl, range := hmore
    gotSupp := h.gotSupp, gotAuth := h.gotAuth }⟩
  · intro q hq
    rw [hsuppId]
    exact (h.requests_taken rfl rfl q hq).imp_right .inl
  · intro q hq
    rw [hsuppId]
    rcases List.mem_append.mp hq with hq | hq
    · have hlt := h.responses_taken rfl q hq
      exact ⟨UInt8.le_of_lt hlt, fun hsame => absurd (hsame ▸ hlt) (UInt8.lt_irrefl _)⟩
    · obtain rfl := List.mem_singleton.mp hq
      exact ⟨UInt8.le_refl _, fun _ => rfl⟩
  · have := h.authWait
    simpa using this
  · simp [hwait, hwaits.2]
  · intro x hx
    exact (Option.some.inj hx).symm

/-- The last fragment arrives there. -/
theorem toSupp_last {f : Flight} {n : Nat} (h : At t known (.toSupp f n))
    (hid : p.id = t.auth.eapIdSeq) (hbody : p.body = fragmentOf f.octets n)
    (hlast : ¬ n + fragmentLen < f.octets.length) :
    ∃ supp, t.supp.receive p = .ok (supp, [], [f.octets.map some]) ∧
      At { t with supp := supp, gotSupp := t.gotSupp ++ [f.octets.map some] }
        (fragmentOf f.octets n) .suppComputes := by
  have hlt : t.supp.eapIdSeq < t.auth.eapIdSeq := h.order
  obtain ⟨g, k, hsend, -⟩ := h.suppHolds
  obtain ⟨supp, heq, hsuppId, hrecv, hwait, g', k', hholds⟩ :=
    Supp.receive_last (hid ▸ hlt) hbody f.size h.range hlast h.suppRecv hsend
  rw [hid] at hsuppId
  refine ⟨supp, heq, {
    finished := h.finished, order := hsuppId, requests := ?_, responses := ?_
    authRecv := h.authRecv, suppRecv := hrecv, authWait := ?_
    suppWait := ⟨fun _ => rfl, fun _ => .inl hwait⟩
    started := fun hor => by simp [Turn.ahead, Turn.authNeeds] at hor
    sends := fun _ => h.sends (by simp)
    authHolds := fun _ _ hneeds => by cases hneeds
    suppHolds := ⟨g', k', hholds, fun x hx => by cases hx⟩
    known := .inr ⟨f.octets, n, hlast, rfl⟩, range := trivial
    gotSupp := ?_, gotAuth := h.gotAuth }⟩
  · intro q hq
    rw [hsuppId]
    exact (h.requests_taken rfl rfl q hq).imp_right .inl
  · intro q hq
    rw [hsuppId]
    have hlt := h.responses_taken rfl q hq
    exact ⟨UInt8.le_of_lt hlt, fun hsame => absurd (hsame ▸ hlt) (UInt8.lt_irrefl _)⟩
  · have := h.authWait
    simpa using this
  · have := h.gotSupp
    rwa [Turn.inSupp, ← List.append_nil (t.gotSupp ++ _)] at this

/-- An acknowledgement arrives there. -/
theorem authAck_next {g : Flight} {k : Nat} (h : At t known (.authAck g k))
    (hid : p.id = t.auth.eapIdSeq) (hbody : p.body = [0]) :
    ∃ supp sent, t.supp.receive p = .ok (supp, sent, []) ∧
      At { t with supp := supp, responses := t.responses ++ sent } [0]
        (.toAuth g (k + fragmentLen)) := by
  have hlt : t.supp.eapIdSeq < t.auth.eapIdSeq := h.order
  have hwaits := h.waits (by simp)
  obtain ⟨g', k', hsend, hneeds⟩ := h.suppHolds
  obtain ⟨rfl, rfl⟩ := Prod.mk.inj (hneeds _ rfl)
  obtain ⟨supp, heq, hsuppId, hrecv, hwait, hholds⟩ :=
    Supp.receive_ack (hid ▸ hlt) hbody hsend h.range hwaits.1
  rw [hid] at hsuppId heq
  refine ⟨supp, _, heq, {
    finished := h.finished, order := hsuppId, requests := ?_, responses := ?_
    authRecv := h.authRecv, suppRecv := hrecv.trans h.suppRecv, authWait := ?_, suppWait := ?_
    started := fun hor => by simp [Turn.ahead, Turn.authNeeds] at hor
    sends := fun _ => h.sends (by simp)
    authHolds := fun _ _ hneeds => by cases hneeds
    suppHolds := ⟨_, _, hholds, fun x hx => (Option.some.inj hx).symm⟩
    known := .inr ⟨[], 0, by decide, rfl⟩, range := h.range
    gotSupp := h.gotSupp, gotAuth := h.gotAuth }⟩
  · intro q hq
    rw [hsuppId]
    exact (h.requests_taken rfl rfl q hq).imp_right .inl
  · intro q hq
    rw [hsuppId]
    rcases List.mem_append.mp hq with hq | hq
    · have hlt := h.responses_taken rfl q hq
      exact ⟨UInt8.le_of_lt hlt, fun hsame => absurd (hsame ▸ hlt) (UInt8.lt_irrefl _)⟩
    · obtain rfl := List.mem_singleton.mp hq
      exact ⟨UInt8.le_refl _, fun _ => rfl⟩
  · have := h.authWait
    simpa using this
  · simp [hwait, hwaits.2]

/-- The next identifier is greater, unless it is 0 again. -/
theorem lt_next {id : UInt8} (hid : id ≠ 255) : id < id + 1 := by
  have hne : id.toNat ≠ 255 := fun h => hid (UInt8.toNat_inj.mp h)
  have hlt := id.toNat_lt
  rw [UInt8.lt_iff_toNat_lt, UInt8.toNat_add]
  have : (1 : UInt8).toNat = 1 := rfl
  omega

/-- All requests there were are as old as the last one that was handled. -/
theorem requests_kept (h : At t known turn) (hahead : turn.ahead = false) :
    ∀ p ∈ t.requests, p.id < t.supp.eapIdSeq ∨ (p.id = t.supp.eapIdSeq ∧ p.body = known) := by
  intro p hp
  rcases h.requests p hp with hold | hsame | ⟨-, htrue, -⟩
  · exact .inl hold
  · exact .inr hsame
  · rw [hahead] at htrue
    cases htrue

/-- A fragment before the last arrives at the authenticator. -/
theorem toAuth_more {g : Flight} {k : Nat} (h : At t known (.toAuth g k))
    (hid : p.id = t.auth.eapIdSeq) (hbody : p.body = fragmentOf g.octets k)
    (hmore : k + fragmentLen < g.octets.length) (hlast : t.auth.eapIdSeq ≠ 255) :
    ∃ auth sent, t.auth.receive p = .ok (auth, sent, []) ∧
      At { t with auth := auth, requests := t.requests ++ sent } known (.authAck g k) ∧
      auth.eapIdSeq = t.auth.eapIdSeq + 1 := by
  have horder : t.supp.eapIdSeq = t.auth.eapIdSeq := h.order
  have hwait : t.auth.waitTls = false := Bool.eq_false_iff.mpr fun htrue => by
    simpa using h.authWait.mp htrue
  obtain ⟨auth, heq, hauthId, hrecv, hauthWait, hstarted, hfinished, hholds⟩ :=
    Auth.receive_more hid hbody g.size hmore h.authRecv hwait
  have hlt : t.supp.eapIdSeq < t.auth.eapIdSeq + 1 := by
    rw [horder]
    exact lt_next hlast
  refine ⟨auth, _, heq, {
    finished := hfinished.trans h.finished, order := ?_, requests := ?_, responses := ?_
    authRecv := hrecv, suppRecv := h.suppRecv, authWait := by simp [hauthWait]
    suppWait := ?_, started := fun _ => hstarted
    sends := fun _ => .inr ⟨hstarted, [], 0, hholds, rfl⟩
    authHolds := ?_, suppHolds := h.suppHolds, known := h.known, range := hmore
    gotSupp := h.gotSupp, gotAuth := h.gotAuth }, hauthId⟩
  · show t.supp.eapIdSeq < auth.eapIdSeq
    rw [hauthId]
    exact hlt
  · intro q hq
    rw [hauthId]
    rcases List.mem_append.mp hq with hq | hq
    · exact (h.requests_kept rfl q hq).imp_right .inl
    · obtain rfl := List.mem_singleton.mp hq
      exact .inr (.inr ⟨rfl, rfl, rfl⟩)
  · intro q hq
    rw [hauthId]
    have hle := (h.responses q hq).1
    exact ⟨hle, fun hsame => absurd (hsame ▸ hle) (UInt8.not_le.mpr hlt)⟩
  · have := h.suppWait
    simpa using this
  · intro f n hneeds
    obtain ⟨rfl, rfl⟩ := Prod.mk.inj (Option.some.inj hneeds)
    exact hholds

/-- The last fragment arrives there. -/
theorem toAuth_last {g : Flight} {k : Nat} (h : At t known (.toAuth g k))
    (hid : p.id = t.auth.eapIdSeq) (hbody : p.body = fragmentOf g.octets k)
    (hdone : ¬ k + fragmentLen < g.octets.length) (hlast : t.auth.eapIdSeq ≠ 255) :
    ∃ auth, t.auth.receive p = .ok (auth, [], [g.octets.map some]) ∧
      At { t with auth := auth, gotAuth := t.gotAuth ++ [g.octets.map some] } known .authComputes ∧
      auth.eapIdSeq = t.auth.eapIdSeq + 1 := by
  have horder : t.supp.eapIdSeq = t.auth.eapIdSeq := h.order
  obtain ⟨auth, heq, hauthId, hrecv, hauthWait, hstarted, hfinished⟩ :=
    Auth.receive_last hid hbody g.size h.range hdone h.authRecv
  have hlt : t.supp.eapIdSeq < t.auth.eapIdSeq + 1 := by
    rw [horder]
    exact lt_next hlast
  obtain ⟨g', k', hholds, -⟩ := h.suppHolds
  refine ⟨auth, heq, {
    finished := hfinished.trans h.finished, order := ?_, requests := ?_, responses := ?_
    authRecv := hrecv, suppRecv := h.suppRecv, authWait := ⟨fun _ => rfl, fun _ => hauthWait⟩
    suppWait := ?_, started := fun _ => hstarted
    sends := fun hno => absurd rfl hno
    authHolds := fun _ _ hneeds => by cases hneeds
    suppHolds := ⟨g', k', hholds, fun x hx => by cases hx⟩, known := h.known, range := trivial
    gotSupp := h.gotSupp, gotAuth := ?_ }, hauthId⟩
  · show t.supp.eapIdSeq < auth.eapIdSeq
    rw [hauthId]
    exact hlt
  · intro q hq
    rw [hauthId]
    exact (h.requests_kept rfl q hq).imp_right .inl
  · intro q hq
    rw [hauthId]
    have hle := (h.responses q hq).1
    exact ⟨hle, fun hsame => absurd (hsame ▸ hle) (UInt8.not_le.mpr hlt)⟩
  · have := h.suppWait
    simpa using this
  · have := h.gotAuth
    rwa [Turn.inAuth, ← List.append_nil (t.gotAuth ++ _)] at this

/-- An acknowledgement arrives there. -/
theorem suppAck_next {f : Flight} {n : Nat} (h : At t known (.suppAck f n))
    (hid : p.id = t.auth.eapIdSeq) (hbody : p.body = [0]) (hlast : t.auth.eapIdSeq ≠ 255) :
    ∃ auth sent, t.auth.receive p = .ok (auth, sent, []) ∧
      At { t with auth := auth, requests := t.requests ++ sent } known
        (.toSupp f (n + fragmentLen)) ∧
      auth.eapIdSeq = t.auth.eapIdSeq + 1 := by
  have horder : t.supp.eapIdSeq = t.auth.eapIdSeq := h.order
  have hwait : t.auth.waitTls = false := Bool.eq_false_iff.mpr fun htrue => by
    simpa using h.authWait.mp htrue
  obtain ⟨auth, heq, hauthId, hrecv, hauthWait, hstarted, hfinished, hholds⟩ :=
    Auth.receive_ack hid hbody (h.authHolds _ _ rfl) h.range hwait
  have hlt : t.supp.eapIdSeq < t.auth.eapIdSeq + 1 := by
    rw [horder]
    exact lt_next hlast
  obtain ⟨g', k', hsupp, -⟩ := h.suppHolds
  refine ⟨auth, _, heq, {
    finished := hfinished.trans h.finished, order := ?_, requests := ?_, responses := ?_
    authRecv := hrecv.trans h.authRecv, suppRecv := h.suppRecv, authWait := by simp [hauthWait]
    suppWait := ?_, started := fun _ => hstarted
    sends := fun _ => .inr ⟨hstarted, f.octets, n + fragmentLen, hholds, rfl⟩
    authHolds := ?_, suppHolds := ⟨g', k', hsupp, fun x hx => by cases hx⟩
    known := .inr ⟨Nat.add_one_ne_zero _, n, h.range, h.known⟩, range := h.range
    gotSupp := h.gotSupp, gotAuth := h.gotAuth }, hauthId⟩
  · show t.supp.eapIdSeq < auth.eapIdSeq
    rw [hauthId]
    exact hlt
  · intro q hq
    rw [hauthId]
    rcases List.mem_append.mp hq with hq | hq
    · exact (h.requests_kept rfl q hq).imp_right .inl
    · obtain rfl := List.mem_singleton.mp hq
      exact .inr (.inr ⟨rfl, rfl, rfl⟩)
  · intro q hq
    rw [hauthId]
    have hle := (h.responses q hq).1
    exact ⟨hle, fun hsame => absurd (hsame ▸ hle) (UInt8.not_le.mpr hlt)⟩
  · have := h.suppWait
    simpa using this
  · intro f' n' hneeds
    obtain ⟨rfl, rfl⟩ := Prod.mk.inj (Option.some.inj hneeds)
    exact hholds

/-- TLS of the authenticator hands over a flight. -/
theorem authFlight (h : At t known .authComputes) (flight : Flight) (hne : flight.octets ≠ []) :
    ∃ auth sent, t.auth.flight flight = .ok (auth, sent) ∧
      At { t with auth := auth, requests := t.requests ++ sent, toSupp := t.toSupp ++ [flight] }
        known (.toSupp flight 0) := by
  have hlt : t.supp.eapIdSeq < t.auth.eapIdSeq := h.order
  obtain ⟨auth, heq, hauthId, hrecv, hauthWait, hstarted, hfinished, hholds⟩ :=
    Auth.flight_ok flight hne (h.started (.inl rfl))
  obtain ⟨g', k', hsupp, -⟩ := h.suppHolds
  refine ⟨auth, _, heq, {
    finished := hfinished.trans h.finished, order := ?_, requests := ?_, responses := ?_
    authRecv := hrecv.trans h.authRecv, suppRecv := h.suppRecv, authWait := by simp [hauthWait]
    suppWait := ?_, started := fun _ => hstarted
    sends := fun _ => .inr ⟨hstarted, flight.octets, 0, hholds, rfl⟩
    authHolds := ?_, suppHolds := ⟨g', k', hsupp, fun x hx => by cases hx⟩
    known := .inl h.known, range := List.length_pos_of_ne_nil hne
    gotSupp := ?_, gotAuth := h.gotAuth }⟩
  · exact hauthId ▸ hlt
  · intro q hq
    rw [hauthId]
    rcases List.mem_append.mp hq with hq | hq
    · rcases h.requests q hq with hold | hsame | ⟨-, -, hnone⟩
      · exact .inl hold
      · exact .inr (.inl hsame)
      · cases hnone
    · obtain rfl := List.mem_singleton.mp hq
      exact .inr (.inr ⟨rfl, rfl, rfl⟩)
  · intro q hq
    have hlt := h.responses_taken rfl q hq
    rw [hauthId]
    exact ⟨(h.responses q hq).1, fun hsame => absurd (hsame ▸ hlt) (UInt8.lt_irrefl _)⟩
  · have := h.suppWait
    simpa using this
  · intro f n hneeds
    obtain ⟨rfl, rfl⟩ := Prod.mk.inj (Option.some.inj hneeds)
    exact hholds
  · have hgot : t.gotSupp ++ [] = _ := h.gotSupp
    rw [List.append_nil] at hgot
    show t.gotSupp ++ [flight.octets.map some] = _
    rw [hgot, List.map_append]
    rfl

/-- TLS of the supplicant hands over a flight. -/
theorem suppFlight (h : At t known .suppComputes) (flight : Flight) (hne : flight.octets ≠ []) :
    ∃ supp sent, t.supp.flight flight = .ok (supp, sent) ∧
      At { t with supp := supp, responses := t.responses ++ sent, toAuth := t.toAuth ++ [flight] }
        known (.toAuth flight 0) := by
  have horder : t.supp.eapIdSeq = t.auth.eapIdSeq := h.order
  obtain ⟨supp, heq, hsuppId, hrecv, hwait, hholds⟩ := @Supp.flight_ok t.supp flight
  refine ⟨supp, _, heq, {
    finished := h.finished, order := hsuppId.trans horder, requests := ?_, responses := ?_
    authRecv := h.authRecv, suppRecv := hrecv.trans h.suppRecv, authWait := ?_
    suppWait := by simp [hwait]
    started := fun hor => by simp [Turn.ahead, Turn.authNeeds] at hor
    sends := fun _ => h.sends (by simp)
    authHolds := fun _ _ hneeds => by cases hneeds
    suppHolds := ⟨flight.octets, 0, hholds, fun x hx => (Option.some.inj hx).symm⟩
    known := h.known, range := List.length_pos_of_ne_nil hne
    gotSupp := h.gotSupp, gotAuth := ?_ }⟩
  · intro q hq
    rw [hsuppId]
    exact (h.requests_kept rfl q hq).imp_right .inl
  · intro q hq
    rw [hsuppId]
    rcases List.mem_append.mp hq with hq | hq
    · refine ⟨(h.responses q hq).1, fun hsame => ?_⟩
      cases (h.responses q hq).2 hsame
    · obtain rfl := List.mem_singleton.mp hq
      exact ⟨UInt8.le_refl _, fun _ => rfl⟩
  · have := h.authWait
    simpa using this
  · have hgot : t.gotAuth ++ [] = _ := h.gotAuth
    rw [List.append_nil] at hgot
    show t.gotAuth ++ [flight.octets.map some] = _
    rw [hgot, List.map_append]
    rfl

/-! ## Steps -/

/-- The flights handed over are the same. -/
def SameFlights (t u : Session) : Prop := u.toSupp = t.toSupp ∧ u.toAuth = t.toAuth

theorem step_retry (h : At t known turn) (hturn : turn ≠ .authComputes) :
    ∃ u, t.step .retry = some u ∧ At u known turn ∧ SameFlights t u ∧ u.supp = t.supp ∧
      u.auth.eapIdSeq = t.auth.eapIdSeq ∧ ⟨t.auth.eapIdSeq, turn.next.getD known⟩ ∈ u.requests := by
  obtain ⟨send, hsent, hat⟩ := h.retry hturn
  have hwait : t.auth.waitTls = false := Bool.eq_false_iff.mpr fun htrue => hturn (h.authWait.mp htrue)
  refine ⟨_, ?_, hat, ⟨rfl, rfl⟩, rfl, rfl, List.mem_append_right _ (List.mem_singleton_self _)⟩
  unfold Session.step
  dsimp only
  rw [if_pos ⟨hwait, h.finished⟩, hsent]

/-- A request that the supplicant has not handled brings the flight forward. -/
theorem step_request (h : At t known turn) (hp : p ∈ t.requests) (hid : p.id = t.auth.eapIdSeq)
    (hahead : turn.ahead = true) (hnext : turn.next = some p.body) :
    ∃ u known' turn', t.step (.request p) = some u ∧ At u known' turn' ∧ SameFlights t u ∧
      u.auth = t.auth ∧ turn'.left < turn.left := by
  unfold Session.step
  dsimp only
  rw [if_pos hp]
  cases turn with
  | toSupp f n =>
      have hbody : p.body = fragmentOf f.octets n := (Option.some.inj hnext).symm
      by_cases hmore : n + fragmentLen < f.octets.length
      · obtain ⟨supp, sent, heq, hat⟩ := h.toSupp_more hid hbody hmore
        rw [heq]
        refine ⟨_, fragmentOf f.octets n, .suppAck f n, rfl, ?_, ⟨rfl, rfl⟩, rfl, Nat.lt_succ_self _⟩
        simpa only [List.append_nil] using hat
      · obtain ⟨supp, heq, hat⟩ := h.toSupp_last hid hbody hmore
        rw [heq]
        refine ⟨_, fragmentOf f.octets n, .suppComputes, rfl, ?_, ⟨rfl, rfl⟩, rfl, Nat.succ_pos _⟩
        simpa only [List.append_nil] using hat
  | authAck g k =>
      obtain ⟨supp, sent, heq, hat⟩ := h.authAck_next hid (Option.some.inj hnext).symm
      rw [heq]
      have hrange : k + fragmentLen < g.octets.length := h.range
      refine ⟨_, [0], .toAuth g (k + fragmentLen), rfl, by simpa only [List.append_nil] using hat,
        ⟨rfl, rfl⟩, rfl, ?_⟩
      unfold fragmentLen at hrange
      simp only [Turn.left, fragmentLen]
      omega
  | authComputes => cases hnext
  | suppComputes | toAuth | suppAck => cases hahead

/-- So does a response that the authenticator has not handled. -/
theorem step_response (h : At t known turn) (hp : p ∈ t.responses) (hid : p.id = t.auth.eapIdSeq)
    (hlast : t.auth.eapIdSeq ≠ 255) :
    ∃ u turn', t.step (.response p) = some u ∧ At u known turn' ∧ SameFlights t u ∧
      turn'.left < turn.left := by
  have hreply := (h.responses p hp).2 hid
  unfold Session.step
  dsimp only
  rw [if_pos ⟨hp, h.finished⟩]
  cases turn with
  | toAuth g k =>
      have hbody : p.body = fragmentOf g.octets k := (Option.some.inj hreply).symm
      by_cases hmore : k + fragmentLen < g.octets.length
      · obtain ⟨auth, sent, heq, hat, -⟩ := h.toAuth_more hid hbody hmore hlast
        rw [heq]
        refine ⟨_, .authAck g k, rfl, ?_, ⟨rfl, rfl⟩, Nat.lt_succ_self _⟩
        simpa only [List.append_nil] using hat
      · obtain ⟨auth, heq, hat, -⟩ := h.toAuth_last hid hbody hmore hlast
        rw [heq]
        refine ⟨_, .authComputes, rfl, ?_, ⟨rfl, rfl⟩, Nat.succ_pos _⟩
        simpa only [List.append_nil] using hat
  | suppAck f n =>
      obtain ⟨auth, sent, heq, hat, -⟩ := h.suppAck_next hid (Option.some.inj hreply).symm hlast
      rw [heq]
      have hrange : n + fragmentLen < f.octets.length := h.range
      refine ⟨_, .toSupp f (n + fragmentLen), rfl, by simpa only [List.append_nil] using hat,
        ⟨rfl, rfl⟩, ?_⟩
      unfold fragmentLen at hrange
      simp only [Turn.left, fragmentLen]
      omega
  | authAck | authComputes | toSupp | suppComputes => cases hreply

/-- A request that the supplicant handled last is answered again once bursts are not filtered. -/
theorem step_again (h : At t known turn) (hp : p ∈ t.requests) (hid : p.id = t.supp.eapIdSeq)
    (hbody : p.body = known) (hfirst : t.supp.burstFiltTimer = 0 → t.toAuth ≠ []) :
    ∃ u, t.step (.request p) = some u ∧ At u known turn ∧ SameFlights t u ∧ u.auth = t.auth ∧
      (turn ≠ .suppComputes → t.supp.burstFiltTimer = 0 →
        ∃ m ∈ u.responses, m.id = t.supp.eapIdSeq) := by
  obtain ⟨supp, sent, heq, hat, -, hanswers⟩ := h.requestAgain hid hbody hfirst
  unfold Session.step
  dsimp only
  rw [if_pos hp, heq]
  refine ⟨_, rfl, by simpa only [List.append_nil] using hat, ⟨rfl, rfl⟩, rfl, ?_⟩
  intro hturn hburst
  obtain ⟨m, hm, hmid⟩ := hanswers hturn hburst
  exact ⟨m, List.mem_append_right _ hm, hmid⟩

/-- **One event.**  It is no fault, and there is a turn behind it. -/
theorem step_ok (h : At t known turn) (event : Event) (hc : t.Orderly event) :
    ∃ u known' turn', t.step event = some u ∧ At u known' turn' := by
  cases event with
  | authFlight flight =>
      by_cases hwait : t.auth.waitTls = true
      · obtain rfl := h.authWait.mp hwait
        obtain ⟨auth, sent, heq, hat⟩ := h.authFlight flight hc
        refine ⟨_, _, _, ?_, hat⟩
        unfold Session.step
        dsimp only
        rw [if_pos ⟨hwait, h.finished⟩, heq]
      · exact ⟨t, known, turn, if_neg fun hb => hwait hb.1, h⟩
  | suppFlight flight =>
      by_cases hwait : t.supp.waitTls = true ∨ t.toAuth = []
      · obtain rfl := h.suppWait.mp hwait
        obtain ⟨supp, sent, heq, hat⟩ := h.suppFlight flight hc
        refine ⟨_, _, _, ?_, hat⟩
        unfold Session.step
        dsimp only
        rw [if_pos hwait, heq]
      · exact ⟨t, known, turn, if_neg hwait, h⟩
  | retry =>
      by_cases hturn : turn = .authComputes
      · refine ⟨t, known, turn, if_neg fun hb => ?_, h⟩
        rw [h.authWait.mpr hturn] at hb
        cases hb.1
      · obtain ⟨u, hu, hat, -⟩ := h.step_retry hturn
        exact ⟨u, known, turn, hu, hat⟩
  | request p =>
      by_cases hp : p ∈ t.requests
      · rcases h.requests p hp with hold | ⟨hsame, hbody⟩ | ⟨hnew, hahead, hnext⟩
        · refine ⟨t, known, turn, ?_, h⟩
          unfold Session.step
          dsimp only
          rw [if_pos hp, Supp.receive_old hold]
          simp
        · obtain ⟨u, hu, hat, -⟩ := h.step_again hp hsame hbody (hc hp hsame)
          exact ⟨u, known, turn, hu, hat⟩
        · obtain ⟨u, known', turn', hu, hat, -⟩ := h.step_request hp hnew hahead hnext
          exact ⟨u, known', turn', hu, hat⟩
      · exact ⟨t, known, turn, if_neg hp, h⟩
  | response p =>
      by_cases hp : p ∈ t.responses
      · by_cases hid : p.id = t.auth.eapIdSeq
        · obtain ⟨u, turn', hu, hat, -⟩ := h.step_response hp hid (hc hp hid)
          exact ⟨u, known, turn', hu, hat⟩
        · refine ⟨t, known, turn, ?_, h⟩
          have hle : p.id ≤ t.auth.eapIdSeq := by
            have horder := h.order
            have hsupp := (h.responses p hp).1
            split at horder
            · exact UInt8.le_trans hsupp (UInt8.le_of_lt horder)
            · exact horder ▸ hsupp
          unfold Session.step
          dsimp only
          rw [if_pos ⟨hp, h.finished⟩, Auth.receive_old (UInt8.lt_of_le_of_ne hle hid)]
          simp
      · exact ⟨t, known, turn, if_neg fun hb => hp hb.1, h⟩
  | tick ticks => exact ⟨_, known, turn, rfl, h.tick ticks⟩
  | loseRequest p => exact ⟨_, known, turn, rfl, h.loseRequest p⟩
  | loseResponse p => exact ⟨_, known, turn, rfl, h.loseResponse p⟩

theorem start_at (id : UInt8) (requests responses : List Message) :
    At (Session.start id requests responses) [startFlag] .suppComputes where
  finished := rfl
  order := rfl
  requests := by
    intro p hp
    rcases List.mem_cons.mp hp with rfl | hp
    · exact .inr (.inl ⟨rfl, rfl⟩)
    · have hlt : p.id < id := by simpa using (List.mem_filter.mp hp).2
      exact .inl hlt
  responses := by
    intro p hp
    have hlt : p.id < id := by simpa using (List.mem_filter.mp hp).2
    exact ⟨UInt8.le_of_lt hlt, fun hsame => absurd (hsame ▸ hlt) (UInt8.lt_irrefl _)⟩
  authRecv := rfl
  suppRecv := rfl
  authWait := by simp [Session.start]
  suppWait := ⟨fun _ => rfl, fun _ => .inr rfl⟩
  started := fun hor => by simp [Turn.ahead, Turn.authNeeds] at hor
  sends := fun _ => .inl ⟨rfl, rfl⟩
  authHolds := fun _ _ hneeds => by cases hneeds
  suppHolds := ⟨[0x41, 0x6e, 0x6f, 0x6e, 0x79, 0x6d, 0x6f, 0x75, 0x73], 0,
    ⟨⟨List.replicate tlsHeadLen none, rfl, rfl⟩, rfl, rfl, Nat.zero_le _⟩, fun x hx => by cases hx⟩
  known := .inl rfl
  range := trivial
  gotSupp := rfl
  gotAuth := rfl

/-! ## Whole runs -/

theorem run_ok (events : List Event) (h : At t known turn)
    (hmeets : Runs.Meets Session.step Session.Orderly t events) :
    ∃ u known' turn', Runs.run Session.step t events = some u ∧ At u known' turn' := by
  induction events generalizing t known turn with
  | nil => exact ⟨t, known, turn, rfl, h⟩
  | cons event events ih =>
      obtain ⟨hc, hrest⟩ := hmeets
      obtain ⟨m, known', turn', hm, hat⟩ := h.step_ok event hc
      obtain ⟨u, known'', turn'', hu, hat'⟩ := ih hat (hrest m hm)
      exact ⟨u, known'', turn'', Runs.run_cons_iff.mpr ⟨m, hm, hu⟩, hat'⟩

/-- While a flight is on its way, retries bring it forward. -/
theorem forward (h : At t known turn) (hleft : 0 < turn.left) (hlast : t.auth.eapIdSeq ≠ 255) :
    ∃ events u known' turn', Runs.Meets Session.step Session.Orderly t events ∧
      Runs.run Session.step t events = some u ∧ At u known' turn' ∧ SameFlights t u ∧
        turn'.left < turn.left := by
  have hturn : turn ≠ .authComputes := by
    rintro rfl
    exact Nat.lt_irrefl 0 hleft
  have hcomputes : turn ≠ .suppComputes := by
    rintro rfl
    exact Nat.lt_irrefl 0 hleft
  obtain ⟨m, hm, hat, ⟨hf, hf'⟩, hsupp, hauth, hsent⟩ := h.step_retry hturn
  by_cases hahead : turn.ahead = true
  · have hnext : turn.next = some (turn.next.getD known) := by
      cases turn with
      | authComputes => exact absurd rfl hturn
      | authAck | toSupp => rfl
      | suppComputes | toAuth | suppAck => cases hahead
    obtain ⟨u, known', turn', hu, hat', ⟨hg, hg'⟩, -, hless⟩ :=
      hat.step_request hsent hauth.symm hahead hnext
    have hlt : m.supp.eapIdSeq < m.auth.eapIdSeq := by
      have := hat.order
      rwa [if_pos hahead] at this
    refine ⟨[.retry, .request ⟨t.auth.eapIdSeq, turn.next.getD known⟩], u, known', turn', ?_, ?_,
      hat', ⟨hg.trans hf, hg'.trans hf'⟩, hless⟩
    · refine Runs.meets_cons trivial hm (Runs.meets_cons ?_ hu trivial)
      intro _ hsame
      rw [← hauth] at hsame
      exact absurd (hsame ▸ hlt) (UInt8.lt_irrefl _)
    · exact Runs.run_cons_iff.mpr ⟨m, hm, Runs.run_cons_iff.mpr ⟨u, hu, rfl⟩⟩
  · have horder : t.supp.eapIdSeq = t.auth.eapIdSeq := by
      have := h.order
      rwa [if_neg hahead] at this
    have hnext : turn.next.getD known = known := by
      cases turn with
      | authAck | authComputes | toSupp => exact absurd rfl hahead
      | suppComputes | toAuth | suppAck => rfl
    rw [hnext] at hsent
    -- the burst filter runs out, the request is answered again, and the response arrives
    have hquiet := hat.tick m.supp.burstFiltTimer
    have hzero : (m.supp.timeout m.supp.burstFiltTimer).burstFiltTimer = 0 := Nat.sub_self _
    obtain ⟨n, hn, hat₂, ⟨hg, hg'⟩, hauth₂, hanswers⟩ := hquiet.step_again hsent
      (show t.auth.eapIdSeq = m.supp.eapIdSeq by rw [hsupp, horder]) rfl
      (fun _ => (hquiet.waits hcomputes).2)
    obtain ⟨answer, hanswer, hid⟩ := hanswers hcomputes hzero
    have hid : answer.id = n.auth.eapIdSeq := by
      rw [hid, hauth₂]
      show m.supp.eapIdSeq = m.auth.eapIdSeq
      rw [hsupp, horder, hauth]
    have hlast₂ : n.auth.eapIdSeq ≠ 255 := by
      rw [hauth₂]
      exact hauth ▸ hlast
    obtain ⟨u, turn', hu, hat₃, ⟨hk, hk'⟩, hless⟩ := hat₂.step_response hanswer hid hlast₂
    refine ⟨[.retry, .tick m.supp.burstFiltTimer, .request ⟨t.auth.eapIdSeq, known⟩,
      .response answer], u, known, turn', ?_, ?_, hat₃, ?_, hless⟩
    · refine Runs.meets_cons trivial hm (Runs.meets_cons trivial rfl (Runs.meets_cons ?_ hn
        (Runs.meets_cons ?_ hu trivial)))
      · exact fun _ _ _ => (hquiet.waits hcomputes).2
      · exact fun _ _ => hlast₂
    · exact Runs.run_cons_iff.mpr ⟨m, hm, Runs.run_cons_iff.mpr ⟨_, rfl,
        Runs.run_cons_iff.mpr ⟨n, hn, Runs.run_cons_iff.mpr ⟨u, hu, rfl⟩⟩⟩⟩
    · exact ⟨hk.trans (hg.trans hf), hk'.trans (hg'.trans hf')⟩

/-- Nothing is left of a flight only when none is on its way. -/
theorem delivered (h : At t known turn) (hleft : turn.left = 0) :
    t.gotSupp = t.toSupp.map (fun f => f.octets.map some) ∧
      t.gotAuth = t.toAuth.map fun g => g.octets.map some := by
  have hsupp := h.gotSupp
  have hauth := h.gotAuth
  have hrange := h.range
  cases turn with
  | suppComputes | authComputes =>
      exact ⟨(List.append_nil _).symm.trans hsupp, (List.append_nil _).symm.trans hauth⟩
  | toAuth | toSupp => cases hleft
  | authAck g k =>
      have hleft : 2 * (g.octets.length - k) = 0 := hleft
      have hrange : k + fragmentLen < g.octets.length := hrange
      omega
  | suppAck f n =>
      have hleft : 2 * (f.octets.length - n) = 0 := hleft
      have hrange : n + fragmentLen < f.octets.length := hrange
      omega

theorem delivers (h : At t known turn) :
    ∃ events u, Runs.Meets Session.step Session.Orderly t events ∧
      Runs.run Session.step t events = some u ∧ SameFlights t u ∧
        (u.gotSupp = u.toSupp.map (fun f => f.octets.map some) ∧
            u.gotAuth = u.toAuth.map (fun g => g.octets.map some) ∨ u.auth.eapIdSeq = 255) := by
  generalize hn : turn.left = n
  induction n using Nat.strongRecOn generalizing t known turn with
  | ind n ih =>
      by_cases hleft : turn.left = 0
      · exact ⟨[], t, trivial, rfl, ⟨rfl, rfl⟩, .inl (h.delivered hleft)⟩
      by_cases hlast : t.auth.eapIdSeq = 255
      · exact ⟨[], t, trivial, rfl, ⟨rfl, rfl⟩, .inr hlast⟩
      obtain ⟨events, m, known', turn', hmeets, hm, hat, ⟨hf, hf'⟩, hless⟩ :=
        h.forward (Nat.pos_of_ne_zero hleft) hlast
      obtain ⟨more, u, hmore, hu, ⟨hg, hg'⟩, hdone⟩ := ih _ (hn ▸ hless) hat rfl
      refine ⟨events ++ more, u, Runs.meets_append.mpr ⟨hmeets, fun m' hm' => ?_⟩,
        Runs.run_trans hm hu, ⟨hg.trans hf, hg'.trans hf'⟩, hdone⟩
      obtain rfl := Option.some.inj (hm.symm.trans hm')
      exact hmore

end At

namespace Session

/-- All flights handed over were received, each once, whole and in order. -/
def Delivered (t : Session) : Prop :=
  t.gotSupp = t.toSupp.map (fun f => f.octets.map some) ∧
    t.gotAuth = t.toAuth.map fun g => g.octets.map some

/-- All but one flight at most, which is on its way. -/
def Exact (t : Session) : Prop :=
  ∃ inSupp inAuth, t.gotSupp ++ inSupp = t.toSupp.map (fun f => f.octets.map some) ∧
    t.gotAuth ++ inAuth = t.toAuth.map (fun g => g.octets.map some) ∧
      inSupp.length + inAuth.length ≤ 1

end Session

theorem At.exact {t : Session} {known : List UInt8} {turn : Turn} (h : At t known turn) :
    t.Exact := by
  refine ⟨turn.inSupp, turn.inAuth, h.gotSupp, h.gotAuth, ?_⟩
  cases turn <;> simp [Turn.inSupp, Turn.inAuth]

/-- **Fragments and flights.**  No packet makes the receiver touch what is outside it and its
buffers, and each message it reports is complete if and only if each packet with data found
a buffer and room in it.  Between the two sides, in every orderly run over a network that
repeats, delays and loses messages, each flight is received once, whole and in order, before
the next is handed over; and it arrives by retries, unless the identifiers run out. -/
theorem flights_exact (arrivals : List Arrival) (id : UInt8) (requests responses : List Message)
    (events : List Event) :
    (∃ r, Runs.run Receiver.receive .start arrivals = some r ∧
      ((∀ report ∈ r.reports, report = true) ↔
        Runs.Meets Receiver.receive Receiver.Takes .start arrivals)) ∧
    (Runs.Meets Session.step Session.Orderly (.start id requests responses) events →
      ∃ t, Runs.run Session.step (.start id requests responses) events = some t ∧ t.Exact ∧
        ∃ more u, Runs.Meets Session.step Session.Orderly t more ∧
          Runs.run Session.step t more = some u ∧ u.toSupp = t.toSupp ∧ u.toAuth = t.toAuth ∧
            (u.Delivered ∨ u.auth.eapIdSeq = 255)) := by
  constructor
  · obtain ⟨r, hr, hiff⟩ := Receiver.run_receive arrivals (r := .start) .empty
    refine ⟨r, hr, hiff.trans ?_⟩
    exact and_iff_right fun report hreport => by cases hreport
  · intro hmeets
    obtain ⟨t, known, turn, ht, hat⟩ :=
      (At.start_at id requests responses).run_ok events hmeets
    obtain ⟨more, u, hmore, hu, ⟨hf, hf'⟩, hdone⟩ := hat.delivers
    exact ⟨t, ht, hat.exact, more, u, hmore, hu, hf, hf', hdone⟩

/-- A flight of one octet. -/
def octet : Flight := ⟨[22], by decide⟩

/-- Both sides hand over a flight, and all messages arrive. -/
def hellos : List Event :=
  [.suppFlight octet, .response ⟨1, [0, 22]⟩, .authFlight octet, .request ⟨2, [0, 22]⟩]

theorem flights_exact_hellos :
    (∃ r, Runs.run Receiver.receive .start [⟨[0, 22], true, .init, .full, true⟩] = some r ∧
      ((∀ report ∈ r.reports, report = true) ↔ Runs.Meets Receiver.receive Receiver.Takes .start
        [⟨[0, 22], true, .init, .full, true⟩])) ∧
    ∃ t, Runs.run Session.step (.start 1 [] []) hellos = some t ∧ t.Exact ∧
      ∃ more u, Runs.Meets Session.step Session.Orderly t more ∧
        Runs.run Session.step t more = some u ∧ u.toSupp = t.toSupp ∧ u.toAuth = t.toAuth ∧
          (u.Delivered ∨ u.auth.eapIdSeq = 255) := by
  have hexact := flights_exact [⟨[0, 22], true, .init, .full, true⟩] 1 [] [] hellos
  refine ⟨hexact.1, hexact.2 ?_⟩
  refine Runs.meets_cons (List.cons_ne_nil _ _) rfl (Runs.meets_cons ?_ rfl
    (Runs.meets_cons (List.cons_ne_nil _ _) rfl (Runs.meets_cons ?_ rfl trivial)))
  · exact fun _ _ => by decide
  · exact fun _ _ _ => List.cons_ne_nil _ _

/-- More data than announced. -/
def overlong : Arrival := ⟨[0xc0, 0, 0, 0, 1, 22, 22], true, .init, .full, true⟩

/-- The start comes again before there is a flight. -/
def early : List Event :=
  [.tick 50, .request ⟨1, [startFlag]⟩,
    .response ⟨1, [0, 0x41, 0x6e, 0x6f, 0x6e, 0x79, 0x6d, 0x6f, 0x75, 0x73]⟩]

/-- The identifier behind 255 is 0, which the supplicant takes for an old one. -/
def wraps : List Event :=
  [.suppFlight octet, .response ⟨255, [0, 22]⟩, .authFlight octet, .request ⟨0, [0, 22]⟩]

/-- A message with an octet that was never received is reported; the identity is received for
a flight that nobody handed over; and a fragment that arrives is not received. -/
theorem flights_lost :
    (Runs.run Receiver.receive .start [overlong]).map Receiver.reports = some [false] ∧
    ((Runs.run Session.step (.start 1 [] []) early).map fun t => (t.toAuth, t.gotAuth)) =
      some ([], [[0x41, 0x6e, 0x6f, 0x6e, 0x79, 0x6d, 0x6f, 0x75, 0x73].map some]) ∧
    ((Runs.run Session.step (.start 255 [] []) wraps).map fun t => (t.toSupp, t.gotSupp)) =
      some ([octet], []) := by
  refine ⟨rfl, rfl, rfl⟩

end EapTls
