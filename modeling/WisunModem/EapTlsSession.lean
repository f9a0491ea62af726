import WisunModem.EapTlsFlights

/-!
# EAP-TLS flights

The authenticator sends EAP requests and the supplicant responses, with the identifier of the
request.  Each side hands the flights of its TLS to the other, one fragment a message.  The
network holds what was sent: it may deliver a message again and late, or lose it.

The handshake is in progress, there is memory, and the authenticator's timer runs while it
waits for a response.
-/

namespace EapTls

/-- An EAP message of type EAP-TLS: its identifier, and what follows the type. -/
structure Message where
  id : UInt8
  body : List UInt8
  deriving DecidableEq

/-- `BURST_FILTER_TIMER_TIMEOUT` -/
def burstFilterTimerTimeout : Nat := 5 * 10

/-- The supplicant in `EAP_TLS_STATE_REQUEST`. -/
structure Supp where
  eapIdSeq : UInt8
  burstFiltTimer : Nat
  tlsSend : TlsData
  tlsRecv : TlsData
  waitTls : Bool

/-- The authenticator in `EAP_TLS_STATE_RESPONSE_START` or (`started`) in
`EAP_TLS_STATE_RESPONSE`. -/
structure Auth where
  eapIdSeq : UInt8
  tlsSend : TlsData
  tlsRecv : TlsData
  waitTls : Bool
  started : Bool
  finished : Bool

/-! ## The supplicant -/

/-- `supp_eap_tls_sec_prot_message_send`, of a response with the flags octet. -/
def Supp.messageSend (s : Supp) : Exec (Supp × List Message) := do
  let (body, send) ← eap_tls_sec_prot_lib_message_build 0 s.tlsSend
  pure ({ s with tlsSend := send }, [⟨s.eapIdSeq, body⟩])

/-- `supp_eap_tls_sec_prot_state_machine` from the EAP-TLS part of a request on: the responses
sent, and the messages TLS receives. -/
def Supp.handle (s : Supp) (p : Message) (newSeqId : Bool) :
    Exec (Supp × List Message × List Buffer) := do
  let (result, send, recv) ← eap_tls_sec_prot_lib_message_handle p.body p.body.length newSeqId
    s.tlsSend s.tlsRecv .full
  let s := { s with burstFiltTimer := burstFilterTimerTimeout, tlsSend := send, tlsRecv := recv }
  if result = .decodeError then pure (s, [], [])
  else if result = .receiveDone then
    pure ({ s with eapIdSeq := p.id, tlsRecv := .init, waitTls := true }, [], recv.data.toList)
  else if s.waitTls then pure ({ s with eapIdSeq := p.id }, [], [])
  else do
    let (s, sent) ← Supp.messageSend { s with eapIdSeq := p.id }
    pure (s, sent, [])

/-- `supp_eap_tls_sec_prot_receive` for an EAP request: `supp_eap_tls_sec_prot_message_handle`
compares the identifiers, and filters bursts. -/
def Supp.receive (s : Supp) (p : Message) : Exec (Supp × List Message × List Buffer) :=
  if p.id < s.eapIdSeq then pure (s, [], [])
  else if p.id = s.eapIdSeq ∧ 0 < s.burstFiltTimer then
    pure ({ s with burstFiltTimer := burstFilterTimerTimeout }, [], [])
  else if p.body.length < 1 then
    pure ({ s with burstFiltTimer := burstFilterTimerTimeout }, [], [])
  else s.handle p (s.eapIdSeq < p.id)

/-- `supp_eap_tls_sec_prot_tls_send` and the call of the state machine that follows. -/
def Supp.flight (s : Supp) (flight : Flight) : Exec (Supp × List Message) :=
  Supp.messageSend { s with tlsSend := flight.pdu, waitTls := false }

/-- `supp_eap_tls_sec_prot_timer_timeout` -/
def Supp.timeout (s : Supp) (ticks : Nat) : Supp :=
  { s with burstFiltTimer := s.burstFiltTimer - ticks }

/-! ## The authenticator -/

/-- `auth_eap_tls_sec_prot_message_send`, of a request: TLS start, or TLS exchange. -/
def Auth.messageSend (a : Auth) : Exec (Auth × List Message) :=
  if a.started then do
    let (body, send) ← eap_tls_sec_prot_lib_message_build 0 a.tlsSend
    pure ({ a with tlsSend := send }, [⟨a.eapIdSeq, body⟩])
  else do
    let (body, send) ← eap_tls_sec_prot_lib_message_build startFlag
      (a.tlsSend.allocate tlsHeadLen 0 true)
    pure ({ a with tlsSend := send }, [⟨a.eapIdSeq, body⟩])

/-- What the state machine does last: a request where there is one, or the end. -/
def Auth.proceed (a : Auth) (result : Result) : Exec (Auth × List Message) :=
  if 0 < a.tlsSend.totalLen ∨ result = .moreFrag then a.messageSend
  else pure ({ a with finished := true }, [])

/-- `auth_eap_tls_sec_prot_state_machine` from the EAP-TLS part of a response on: the requests
sent, and the messages TLS receives. -/
def Auth.handle (a : Auth) (p : Message) (newSeqId : Bool) :
    Exec (Auth × List Message × List Buffer) := do
  let (result, send, recv) ← eap_tls_sec_prot_lib_message_handle p.body p.body.length newSeqId
    a.tlsSend a.tlsRecv .full
  let a := { a with tlsSend := send, tlsRecv := recv }
  if result = .decodeError then pure (a, [], [])
  else if result = .receiveDone then
    pure ({ a with started := true, tlsRecv := .init, waitTls := true }, [], recv.data.toList)
  else
    let a := { a with started := true, tlsSend := if result = .sendDone then .init else send }
    if a.waitTls then pure (a, [], [])
    else do
      let (a, sent) ← a.proceed result
      pure (a, sent, [])

/-- `auth_eap_tls_sec_prot_receive` for an EAP response:
`auth_eap_tls_sec_prot_message_handle` compares the identifiers, and moves on to the next. -/
def Auth.receive (a : Auth) (p : Message) : Exec (Auth × List Message × List Buffer) :=
  if p.id < a.eapIdSeq then pure (a, [], [])
  else
    let newSeqId := decide (p.id = a.eapIdSeq)
    let a := if newSeqId then { a with eapIdSeq := a.eapIdSeq + 1 } else a
    if p.body.length < 1 then pure (a, [], []) else a.handle p newSeqId

/-- `auth_eap_tls_sec_prot_tls_send` and the call of the state machine that follows. -/
def Auth.flight (a : Auth) (flight : Flight) : Exec (Auth × List Message) :=
  Auth.proceed { a with tlsSend := flight.pdu, waitTls := false } .continue

/-! ## Both, and the network between them -/

/-- The flights handed over on each side are kept beside the messages received on the other. -/
structure Session where
  auth : Auth
  supp : Supp
  requests : List Message
  responses : List Message
  toSupp : List Flight
  toAuth : List Flight
  gotSupp : List Buffer
  gotAuth : List Buffer

inductive Event
  | authFlight (flight : Flight)
  | suppFlight (flight : Flight)
  /-- The timer of the authenticator: it sends its request again. -/
  | retry
  | request (p : Message)
  | response (p : Message)
  | tick (ticks : Nat)
  | loseRequest (p : Message)
  | loseResponse (p : Message)

namespace Session

/-- What the identity response leaves in the send buffer. -/
def identity : TlsData :=
  ⟨some (List.replicate tlsHeadLen none ++
    [0x41, 0x6e, 0x6f, 0x6e, 0x79, 0x6d, 0x6f, 0x75, 0x73].map some), 9, 0⟩

/-- The authenticator sent its start, which the supplicant has received; its TLS computes the
first flight.  Earlier messages may still be on their way. -/
def start (id : UInt8) (requests responses : List Message) : Session where
  auth := ⟨id, .init, .init, false, false, false⟩
  supp := ⟨id, burstFilterTimerTimeout, identity, .init, false⟩
  requests := ⟨id, [startFlag]⟩ :: requests.filter fun p => p.id < id
  responses := responses.filter fun p => p.id < id
  toSupp := []
  toAuth := []
  gotSupp := []
  gotAuth := []

/-- What cannot happen changes nothing; no state is a fault. -/
def step (t : Session) : Event → Option Session
  | .authFlight flight =>
      if t.auth.waitTls ∧ t.auth.finished = false then
        match t.auth.flight flight with
        | .error _ => none
        | .ok (auth, sent) =>
            some { t with auth, requests := t.requests ++ sent, toSupp := t.toSupp ++ [flight] }
      else some t
  | .suppFlight flight =>
      if t.supp.waitTls ∨ t.toAuth = [] then
        match t.supp.flight flight with
        | .error _ => none
        | .ok (supp, sent) =>
            some { t with supp, responses := t.responses ++ sent, toAuth := t.toAuth ++ [flight] }
      else some t
  | .retry =>
      if t.auth.waitTls = false ∧ t.auth.finished = false then
        match t.auth.messageSend with
        | .error _ => none
        | .ok (auth, sent) => some { t with auth, requests := t.requests ++ sent }
      else some t
  | .request p =>
      if p ∈ t.requests then
        match t.supp.receive p with
        | .error _ => none
        | .ok (supp, sent, got) =>
            some { t with supp, responses := t.responses ++ sent, gotSupp := t.gotSupp ++ got }
      else some t
  | .response p =>
      if p ∈ t.responses ∧ t.auth.finished = false then
        match t.auth.receive p with
        | .error _ => none
        | .ok (auth, sent, got) =>
            some { t with auth, requests := t.requests ++ sent, gotAuth := t.gotAuth ++ got }
      else some t
  | .tick ticks => some { t with supp := t.supp.timeout ticks }
  | .loseRequest p => some { t with requests := t.requests.erase p }
  | .loseResponse p => some { t with responses := t.responses.erase p }

/-- No flight is empty, the start is not taken again before the first flight, and the
identifiers do not start again at 0. -/
def Orderly (t : Session) : Event → Prop
  | .authFlight flight => flight.octets ≠ []
  | .suppFlight flight => flight.octets ≠ []
  | .request p =>
      p ∈ t.requests → p.id = t.supp.eapIdSeq → t.supp.burstFiltTimer = 0 → t.toAuth ≠ []
  | .response p => p ∈ t.responses → p.id = t.auth.eapIdSeq → t.auth.eapIdSeq ≠ 255
  | _ => True

end Session

/-! ## One message at the supplicant -/

/-- A packet whose repetition leaves the send buffer alone. -/
def Calm (body : List UInt8) : Prop :=
  body = [startFlag] ∨ ∃ flight handled, ¬ handled + fragmentLen < flight.length ∧
    body = fragmentOf flight handled

section

variable {s s' : Supp} {a a' : Auth} {p : Message} {f g : List UInt8} {h k : Nat}

theorem Supp.messageSend_ok (hsend : Holds s.tlsSend g k) :
    ∃ send, s.messageSend = .ok ({ s with tlsSend := send }, [⟨s.eapIdSeq, fragmentOf g k⟩]) ∧
      Holds send g k := by
  obtain ⟨send, hbuild, hholds⟩ := hsend.build
  refine ⟨send, ?_, hholds⟩
  unfold Supp.messageSend
  rw [hbuild]
  rfl

theorem Supp.receive_old (hid : p.id < s.eapIdSeq) : s.receive p = .ok (s, [], []) :=
  if_pos hid

/-- What a request that comes again does: it is filtered, or handled without its data. -/
structure Supp.Again (s : Supp) (g : List UInt8) (k : Nat) (g' : List UInt8) (k' : Nat)
    (outcome : Supp × List Message × List Buffer) : Prop where
  id : outcome.1.eapIdSeq = s.eapIdSeq
  recv : outcome.1.tlsRecv = s.tlsRecv
  wait : outcome.1.waitTls = s.waitTls
  got : outcome.2.2 = []
  send : Holds outcome.1.tlsSend g k ∧ outcome.2.1 = [] ∨ Holds outcome.1.tlsSend g' k' ∧
    ∀ m ∈ outcome.2.1, m = ⟨s.eapIdSeq, fragmentOf g' k'⟩
  silent : s.waitTls = true ∨ 0 < s.burstFiltTimer → outcome.2.1 = []
  answers : s.waitTls = false → s.burstFiltTimer = 0 →
    outcome.2.1 = [⟨s.eapIdSeq, fragmentOf g' k'⟩]

theorem Supp.receive_again {result : Result} {send : TlsData} {g' : List UInt8} {k' : Nat}
    (hid : p.id = s.eapIdSeq) (hbody : p.body ≠ [])
    (hhandle : eap_tls_sec_prot_lib_message_handle p.body p.body.length false s.tlsSend s.tlsRecv
      .full = .ok (result, send, s.tlsRecv))
    (herror : result ≠ .decodeError) (hdone : result ≠ .receiveDone)
    (hsend : Holds s.tlsSend g k) (hsend' : Holds send g' k') :
    ∃ outcome, s.receive p = .ok outcome ∧ s.Again g k g' k' outcome := by
  unfold Supp.receive
  rw [if_neg (by rw [hid]; exact UInt8.lt_irrefl _)]
  by_cases hburst : 0 < s.burstFiltTimer
  · rw [if_pos ⟨hid, hburst⟩]
    exact ⟨_, rfl, rfl, rfl, rfl, rfl, .inl ⟨hsend, rfl⟩, fun _ => rfl,
      fun _ hzero => absurd hzero (Nat.ne_of_gt hburst)⟩
  · have hlength : ¬ p.body.length < 1 := fun hlt =>
      hbody (List.length_eq_zero_iff.mp (Nat.lt_one_iff.mp hlt))
    have hnew : decide (s.eapIdSeq < p.id) = false := decide_eq_false (by rw [hid]; exact UInt8.lt_irrefl _)
    rw [if_neg (fun hb => hburst hb.2), if_neg hlength, hnew]
    unfold Supp.handle
    rw [hhandle]
    dsimp only [bind, Except.bind]
    rw [if_neg herror, if_neg hdone]
    by_cases hwait : s.waitTls = true
    · rw [if_pos hwait]
      exact ⟨_, rfl, hid, rfl, rfl, rfl, .inr ⟨hsend', fun m hm => by cases hm⟩, fun _ => rfl,
        fun hfalse => by rw [hwait] at hfalse; cases hfalse⟩
    · rw [if_neg hwait, hid]
      obtain ⟨sent, hsent, hholds⟩ := Supp.messageSend_ok
        (s := { s with
          burstFiltTimer := burstFilterTimerTimeout, tlsSend := send, eapIdSeq := s.eapIdSeq }) hsend'
      rw [hsent]
      refine ⟨_, rfl, rfl, rfl, rfl, rfl, .inr ⟨hholds, fun m hm => List.mem_singleton.mp hm⟩, ?_,
        fun _ _ => rfl⟩
      exact fun hor => hor.elim (fun h => absurd h hwait) (fun h => absurd h hburst)

/-- A request of a calm packet that comes again is answered as before, if at all. -/
theorem Supp.receive_calm (hid : p.id = s.eapIdSeq) (hcalm : Calm p.body)
    (hsend : Holds s.tlsSend g k) : ∃ outcome, s.receive p = .ok outcome ∧ s.Again g k g k outcome := by
  rcases hcalm with hbody | ⟨f, h, hlast, hbody⟩
  · have hhandle := handle_start false s.tlsSend s.tlsRecv
    rw [← hbody] at hhandle
    have hne : p.body ≠ [] := by
      rw [hbody]
      exact List.cons_ne_nil _ _
    exact Supp.receive_again hid hne (by rw [hbody] at hhandle ⊢; exact hhandle) (by decide) (by decide)
      hsend hsend
  · have hopen : h + fragmentLen < f.length → s.tlsRecv.data ≠ none := fun hmore =>
      absurd hmore hlast
    have hhandle := handle_repeat s.tlsSend hopen
    rw [if_neg hlast, ← hbody] at hhandle
    exact Supp.receive_again hid (hbody ▸ fragmentOf_ne_nil) hhandle (by decide) (by decide) hsend hsend

/-- A fragment before the last that comes again is acknowledged again. -/
theorem Supp.receive_loud (hid : p.id = s.eapIdSeq) (hbody : p.body = fragmentOf f h)
    (hmore : h + fragmentLen < f.length) (hrecv : s.tlsRecv.data ≠ none)
    (hsend : Holds s.tlsSend g k) :
    ∃ outcome, s.receive p = .ok outcome ∧ s.Again g k [] 0 outcome := by
  have hopen : h + fragmentLen < f.length → s.tlsRecv.data ≠ none := fun _ => hrecv
  have hhandle := handle_repeat s.tlsSend hopen
  rw [if_pos hmore, ← hbody] at hhandle
  exact Supp.receive_again hid (hbody ▸ fragmentOf_ne_nil) hhandle (by decide) (by decide) hsend
    (holds_nothing s.tlsSend)

/-- Something is held in the buffer behind the last acknowledgement. -/
theorem Holds.settled {send : TlsData} (hsend : Holds send g k) : ∃ g' k', Holds
    (if send.ackUpdate.1 then send.ackUpdate.2.allocate tlsHeadLen 0 true else send.ackUpdate.2)
      g' k' := by
  by_cases hmore : k + fragmentLen < g.length
  · obtain ⟨hack, hnext⟩ := hsend.next hmore
    rw [hack]
    exact ⟨g, k + fragmentLen, hnext⟩
  · obtain ⟨hack, hsame⟩ := hsend.ackUpdate_last hmore
    by_cases hnil : g = []
    · rw [hack, hsame hnil, if_neg (by simp [hnil])]
      exact ⟨g, k, hsend⟩
    · rw [hack, if_pos (by simp [hnil])]
      exact ⟨[], 0, holds_nothing _⟩

theorem Supp.receive_new (hid : s.eapIdSeq < p.id) (hbody : p.body ≠ []) :
    s.receive p = s.handle p true := by
  have hlength : ¬ p.body.length < 1 := fun hlt =>
    hbody (List.length_eq_zero_iff.mp (Nat.lt_one_iff.mp hlt))
  unfold Supp.receive
  rw [if_neg (UInt8.not_lt.mpr (UInt8.le_of_lt hid)),
    if_neg (fun hb => UInt8.lt_irrefl _ (hb.1 ▸ hid)), if_neg hlength, decide_eq_true hid]

/-- A fragment before the last is received and acknowledged. -/
theorem Supp.receive_more (hid : s.eapIdSeq < p.id) (hbody : p.body = fragmentOf f h)
    (hsize : f.length < 2 ^ 16) (hmore : h + fragmentLen < f.length)
    (hrecv : s.tlsRecv = receiving f h) (hwait : s.waitTls = false) :
    ∃ t, s.receive p = .ok (t, [⟨p.id, [0]⟩], []) ∧ t.eapIdSeq = p.id ∧
      t.tlsRecv = receiving f (h + fragmentLen) ∧ t.waitTls = false ∧ Holds t.tlsSend [] 0 := by
  have hhandle := handle_fragment hsize (Nat.lt_of_le_of_lt (Nat.le_add_right ..) hmore) s.tlsSend
  rw [if_pos hmore, ← hbody, ← hrecv] at hhandle
  rw [Supp.receive_new hid (hbody ▸ fragmentOf_ne_nil), Supp.handle, hhandle]
  dsimp only [bind, Except.bind]
  rw [if_neg (by decide), if_neg (by decide), if_neg (by rw [hwait]; decide)]
  obtain ⟨send, hsent, hholds⟩ := Supp.messageSend_ok (s := { s with
    burstFiltTimer := burstFilterTimerTimeout, tlsSend := s.tlsSend.allocate tlsHeadLen 0 true,
    tlsRecv := gathered f (h + fragmentLen), eapIdSeq := p.id }) (holds_nothing s.tlsSend)
  rw [hsent]
  exact ⟨_, rfl, rfl, receiving_next.symm, hwait, hholds⟩

/-- With the last fragment TLS receives the flight. -/
theorem Supp.receive_last (hid : s.eapIdSeq < p.id) (hbody : p.body = fragmentOf f h)
    (hsize : f.length < 2 ^ 16) (hlt : h < f.length) (hlast : ¬ h + fragmentLen < f.length)
    (hrecv : s.tlsRecv = receiving f h) (hsend : Holds s.tlsSend g k) :
    ∃ t, s.receive p = .ok (t, [], [f.map some]) ∧ t.eapIdSeq = p.id ∧ t.tlsRecv = .init ∧
      t.waitTls = true ∧ ∃ g' k', Holds t.tlsSend g' k' := by
  have hhandle := handle_fragment hsize hlt s.tlsSend
  rw [if_neg hlast, ← hbody, ← hrecv] at hhandle
  rw [Supp.receive_new hid (hbody ▸ fragmentOf_ne_nil), Supp.handle, hhandle]
  refine ⟨{ s with
    eapIdSeq := p.id, burstFiltTimer := burstFilterTimerTimeout, tlsRecv := .init, waitTls := true
    tlsSend := if s.tlsSend.ackUpdate.1 then s.tlsSend.ackUpdate.2.allocate tlsHeadLen 0 true
      else s.tlsSend.ackUpdate.2 }, ?_, rfl, rfl, rfl, hsend.settled⟩
  dsimp only [bind, Except.bind]
  rw [if_neg (by decide), if_pos rfl, gathered_all]
  rfl

/-- An acknowledgement is answered with the next fragment. -/
theorem Supp.receive_ack (hid : s.eapIdSeq < p.id) (hbody : p.body = [0])
    (hsend : Holds s.tlsSend g k) (hmore : k + fragmentLen < g.length) (hwait : s.waitTls = false) :
    ∃ t, s.receive p = .ok (t, [⟨p.id, fragmentOf g (k + fragmentLen)⟩], []) ∧ t.eapIdSeq = p.id ∧
      t.tlsRecv = s.tlsRecv ∧ t.waitTls = false ∧ Holds t.tlsSend g (k + fragmentLen) := by
  obtain ⟨hack, hnext⟩ := hsend.next hmore
  have hhandle := handle_ack s.tlsSend s.tlsRecv
  rw [hack, if_neg Bool.false_ne_true] at hhandle
  rw [Supp.receive_new hid (hbody ▸ List.cons_ne_nil _ _), Supp.handle, hbody,
    List.length_singleton, hhandle]
  dsimp only [bind, Except.bind]
  rw [if_neg (by decide), if_neg (by decide), if_neg (by rw [hwait]; decide)]
  obtain ⟨send, hsent, hholds⟩ := Supp.messageSend_ok (s := { s with
    burstFiltTimer := burstFilterTimerTimeout
    tlsSend := { s.tlsSend with handledLen := k + fragmentLen }, eapIdSeq := p.id }) hnext
  rw [hsent]
  exact ⟨_, rfl, rfl, rfl, hwait, hholds⟩

/-! ## One message at the authenticator -/

/-- The authenticator sends this. -/
def Auth.Sends (a : Auth) (body : List UInt8) : Prop :=
  (a.started = false ∧ body = [startFlag]) ∨
    (a.started = true ∧ ∃ f h, Holds a.tlsSend f h ∧ body = fragmentOf f h)

theorem Auth.messageSend_ok (hstarted : a.started = true) (hsend : Holds a.tlsSend f h) :
    ∃ send, a.messageSend = .ok ({ a with tlsSend := send }, [⟨a.eapIdSeq, fragmentOf f h⟩]) ∧
      Holds send f h := by
  obtain ⟨send, hbuild, hholds⟩ := hsend.build
  refine ⟨send, ?_, hholds⟩
  unfold Auth.messageSend
  rw [if_pos hstarted, hbuild]
  rfl

/-- What is sent again is the same. -/
theorem Auth.Sends.again {body : List UInt8} (hsends : a.Sends body) :
    ∃ send, a.messageSend = .ok ({ a with tlsSend := send }, [⟨a.eapIdSeq, body⟩]) ∧
      Auth.Sends { a with tlsSend := send } body ∧
        ∀ f h, a.started = true → Holds a.tlsSend f h → Holds send f h := by
  rcases hsends with ⟨hstarted, rfl⟩ | ⟨hstarted, f, h, hsend, rfl⟩
  · obtain ⟨send, hbuild, hholds⟩ := build_start a.tlsSend
    refine ⟨send, ?_, .inl ⟨hstarted, rfl⟩, fun _ _ htrue => by rw [hstarted] at htrue; cases htrue⟩
    unfold Auth.messageSend
    rw [if_neg (by rw [hstarted]; decide), hbuild]
    rfl
  · obtain ⟨send, hsent, hholds⟩ := Auth.messageSend_ok hstarted hsend
    refine ⟨send, hsent, .inr ⟨hstarted, f, h, hholds, rfl⟩, fun f' h' _ hsend' => ?_⟩
    obtain ⟨send', hsent', hholds'⟩ := Auth.messageSend_ok hstarted hsend'
    have : send = send' := by
      have := hsent.symm.trans hsent'
      exact congrArg (fun x => x.1.tlsSend) (Except.ok.inj this)
    exact this ▸ hholds'

theorem Auth.receive_old (hid : p.id < a.eapIdSeq) : a.receive p = .ok (a, [], []) :=
  if_pos hid

theorem Auth.receive_new (hid : p.id = a.eapIdSeq) (hbody : p.body ≠ []) :
    a.receive p = Auth.handle { a with eapIdSeq := a.eapIdSeq + 1 } p true := by
  have hlength : ¬ p.body.length < 1 := fun hlt =>
    hbody (List.length_eq_zero_iff.mp (Nat.lt_one_iff.mp hlt))
  unfold Auth.receive
  rw [if_neg (by rw [hid]; exact UInt8.lt_irrefl _)]
  dsimp only
  rw [decide_eq_true hid, if_neg hlength, if_pos rfl]

/-- A fragment before the last is received and acknowledged. -/
theorem Auth.receive_more (hid : p.id = a.eapIdSeq) (hbody : p.body = fragmentOf g k)
    (hsize : g.length < 2 ^ 16) (hmore : k + fragmentLen < g.length)
    (hrecv : a.tlsRecv = receiving g k) (hwait : a.waitTls = false) :
    ∃ t, a.receive p = .ok (t, [⟨a.eapIdSeq + 1, [0]⟩], []) ∧ t.eapIdSeq = a.eapIdSeq + 1 ∧
      t.tlsRecv = receiving g (k + fragmentLen) ∧ t.waitTls = false ∧ t.started = true ∧
      t.finished = a.finished ∧ Holds t.tlsSend [] 0 := by
  have hhandle := handle_fragment hsize (Nat.lt_of_le_of_lt (Nat.le_add_right ..) hmore) a.tlsSend
  rw [if_pos hmore, ← hbody, ← hrecv] at hhandle
  rw [Auth.receive_new hid (hbody ▸ fragmentOf_ne_nil), Auth.handle, hhandle]
  dsimp only [bind, Except.bind]
  rw [if_neg (by decide), if_neg (by decide), if_neg (by rw [hwait]; decide), if_neg (by decide),
    Auth.proceed, if_pos (.inr rfl)]
  obtain ⟨send, hsent, hholds⟩ := Auth.messageSend_ok (a := { a with
    eapIdSeq := a.eapIdSeq + 1, tlsSend := a.tlsSend.allocate tlsHeadLen 0 true
    tlsRecv := gathered g (k + fragmentLen), started := true }) rfl (holds_nothing a.tlsSend)
  rw [hsent]
  exact ⟨_, rfl, rfl, receiving_next.symm, hwait, rfl, rfl, hholds⟩

/-- With the last fragment TLS receives the flight. -/
theorem Auth.receive_last (hid : p.id = a.eapIdSeq) (hbody : p.body = fragmentOf g k)
    (hsize : g.length < 2 ^ 16) (hlt : k < g.length) (hlast : ¬ k + fragmentLen < g.length)
    (hrecv : a.tlsRecv = receiving g k) :
    ∃ t, a.receive p = .ok (t, [], [g.map some]) ∧ t.eapIdSeq = a.eapIdSeq + 1 ∧
      t.tlsRecv = .init ∧ t.waitTls = true ∧ t.started = true ∧ t.finished = a.finished := by
  have hhandle := handle_fragment hsize hlt a.tlsSend
  rw [if_neg hlast, ← hbody, ← hrecv] at hhandle
  rw [Auth.receive_new hid (hbody ▸ fragmentOf_ne_nil), Auth.handle, hhandle]
  refine ⟨{ a with
    eapIdSeq := a.eapIdSeq + 1, tlsRecv := .init, waitTls := true, started := true
    tlsSend := if a.tlsSend.ackUpdate.1 then a.tlsSend.ackUpdate.2.allocate tlsHeadLen 0 true
      else a.tlsSend.ackUpdate.2 }, ?_, rfl, rfl, rfl, rfl, rfl⟩
  dsimp only [bind, Except.bind]
  rw [if_neg (by decide), if_pos rfl, gathered_all]
  rfl

/-- An acknowledgement is followed by the next fragment. -/
theorem Auth.receive_ack (hid : p.id = a.eapIdSeq) (hbody : p.body = [0])
    (hsend : Holds a.tlsSend f h) (hmore : h + fragmentLen < f.length) (hwait : a.waitTls = false) :
    ∃ t, a.receive p = .ok (t, [⟨a.eapIdSeq + 1, fragmentOf f (h + fragmentLen)⟩], []) ∧
      t.eapIdSeq = a.eapIdSeq + 1 ∧ t.tlsRecv = a.tlsRecv ∧ t.waitTls = false ∧
      t.started = true ∧ t.finished = a.finished ∧ Holds t.tlsSend f (h + fragmentLen) := by
  obtain ⟨hack, hnext⟩ := hsend.next hmore
  have hhandle := handle_ack a.tlsSend a.tlsRecv
  rw [hack, if_neg Bool.false_ne_true] at hhandle
  have hpos : 0 < a.tlsSend.totalLen := by
    rw [hsend.totalLen]
    omega
  rw [Auth.receive_new hid (hbody ▸ List.cons_ne_nil _ _), Auth.handle, hbody,
    List.length_singleton, hhandle]
  dsimp only [bind, Except.bind]
  rw [if_neg (by decide), if_neg (by decide), if_neg (by rw [hwait]; decide), if_neg (by decide),
    Auth.proceed, if_pos (.inl hpos)]
  obtain ⟨send, hsent, hholds⟩ := Auth.messageSend_ok (a := { a with
    eapIdSeq := a.eapIdSeq + 1, tlsSend := { a.tlsSend with handledLen := h + fragmentLen }
    started := true }) rfl hnext
  rw [hsent]
  exact ⟨_, rfl, rfl, rfl, hwait, rfl, rfl, hholds⟩

/-- TLS hands over a flight: its first fragment is sent. -/
theorem Auth.flight_ok (flight : Flight) (hne : flight.octets ≠ []) (hstarted : a.started = true) :
    ∃ t, a.flight flight = .ok (t, [⟨a.eapIdSeq, fragmentOf flight.octets 0⟩]) ∧
      t.eapIdSeq = a.eapIdSeq ∧ t.tlsRecv = a.tlsRecv ∧ t.waitTls = false ∧ t.started = true ∧
      t.finished = a.finished ∧ Holds t.tlsSend flight.octets 0 := by
  obtain ⟨send, hsent, hholds⟩ := Auth.messageSend_ok
    (a := { a with tlsSend := flight.pdu, waitTls := false }) hstarted flight.holds
  have hpos : 0 < flight.pdu.totalLen := List.length_pos_of_ne_nil hne
  unfold Auth.flight Auth.proceed
  rw [if_pos (.inl hpos), hsent]
  exact ⟨_, rfl, rfl, rfl, rfl, hstarted, rfl, hholds⟩

theorem Supp.flight_ok (flight : Flight) :
    ∃ t, s.flight flight = .ok (t, [⟨s.eapIdSeq, fragmentOf flight.octets 0⟩]) ∧
      t.eapIdSeq = s.eapIdSeq ∧ t.tlsRecv = s.tlsRecv ∧ t.waitTls = false ∧
      Holds t.tlsSend flight.octets 0 := by
  obtain ⟨send, hsent, hholds⟩ := Supp.messageSend_ok
    (s := { s with tlsSend := flight.pdu, waitTls := false }) flight.holds
  unfold Supp.flight
  rw [hsent]
  exact ⟨_, rfl, rfl, rfl, rfl, hholds⟩

end

end EapTls
