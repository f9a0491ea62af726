import WisunModem.Runs
import WisunModem.Handlers

/-!
# The frame of a `+CIPSEND`

The handler of `+CIPSEND` is called once for each chunk and keeps its progress in
`bytesRead` and `bytesToSend`.  It writes the prompt when `bytesRead` is 0 and
resets it only behind the last chunk: a command which fails between two chunks
leaves its count to the next one.
-/

namespace Modem

open Runs NsSocket Unsolicited

/-! ## Prompt and payload -/

/-- The frame of the command in progress behind one more note: an answer ends it,
and only the prompt and the payload belong to it. -/
def frameStep (frame : List Note) : Note → List Note
  | .answered .. => []
  | .prompt => frame ++ [.prompt]
  | .payload bytes => frame ++ [.payload bytes]
  | _ => frame

/-- What the command in progress has prompted for and taken. -/
def frame (trace : List Note) : List Note := trace.foldl frameStep []

theorem frame_append (trace notes : List Note) :
    frame (trace ++ notes) = notes.foldl frameStep (frame trace) := by
  simp [frame, List.foldl_append]

/-- A prompt, and the payload in chunks. -/
def promptThen (chunks : List (List UInt8)) : List Note := .prompt :: chunks.map .payload

/-- Nothing yet, or one prompt and the payload behind it. -/
def Framed (f : List Note) : Prop := f = [] ∨ ∃ chunks, f = promptThen chunks

/-- Every command answered so far had its frame in order. -/
def AllFramed (trace : List Note) : Prop :=
  ∀ pre post c ok flag, trace = pre ++ .answered c ok flag :: post → Framed (frame pre)

/-- Notes which neither belong to a frame nor end one. -/
def Note.unframed : Note → Bool
  | .answered .. | .prompt | .payload _ => false
  | _ => true

theorem frame_unframed {trace notes : List Note} (h : ∀ n ∈ notes, n.unframed = true) :
    frame (trace ++ notes) = frame trace := by
  rw [frame_append]
  generalize frame trace = f
  induction notes with
  | nil => rfl
  | cons n notes ih =>
      have hn : frameStep f n = f := by
        have := h n List.mem_cons_self
        cases n <;> first | rfl | cases this
      rw [List.foldl_cons, hn]
      exact ih fun m hm => h m (List.mem_cons_of_mem n hm)

def Note.isAnswer : Note → Bool
  | .answered .. => true
  | _ => false

theorem Note.isAnswer_of_unframed {n : Note} (h : n.unframed = true) : n.isAnswer = false := by
  cases n <;> first | rfl | cases h

/-- Notes without an answer leave the answers there were. -/
theorem AllFramed.add {trace notes : List Note} (h : AllFramed trace)
    (hnotes : ∀ n ∈ notes, n.isAnswer = false) : AllFramed (trace ++ notes) := by
  intro pre post c ok flag heq
  rcases List.append_eq_append_iff.mp heq with ⟨front, hpre, hnew⟩ | ⟨back, htrace, hback⟩
  · have hmem : .answered c ok flag ∈ notes := by simp [hnew]
    cases hnotes _ hmem
  · cases back with
    | nil =>
        have hmem : .answered c ok flag ∈ notes := by
          rw [List.nil_append] at hback
          rw [← hback]
          exact List.mem_cons_self
        cases hnotes _ hmem
    | cons m back =>
        rw [List.cons_append, List.cons.injEq] at hback
        rw [← hback.1] at htrace
        exact h pre back c ok flag htrace

/-- An answer ends a frame which was in order. -/
theorem AllFramed.answer {trace : List Note} (h : AllFramed trace) (hframe : Framed (frame trace))
    (c : AtCmd) (ok flag : Bool) : AllFramed (trace ++ [.answered c ok flag]) := by
  intro pre post c' ok' flag' heq
  rcases List.append_eq_append_iff.mp heq with ⟨front, hpre, hnew⟩ | ⟨back, htrace, hback⟩
  · cases front with
    | nil =>
        rw [hpre, List.append_nil]
        exact hframe
    | cons m front =>
        have hlen := congrArg List.length hnew
        simp at hlen
  · cases back with
    | nil =>
        rw [List.append_nil] at htrace
        rw [← htrace]
        exact hframe
    | cons m back =>
        rw [List.cons_append, List.cons.injEq] at hback
        rw [← hback.1] at htrace
        exact h pre back c' ok' flag' htrace

/-! ## Which handler the main thread is in -/

inductive Handler
  | cipstart
  | cipclose
  | cipsend
  | ciprecvdata
  deriving DecidableEq

def AtCmd.handler : AtCmd → Handler
  | .cipstart _ => .cipstart
  | .cipclose => .cipclose
  | .cipsend _ => .cipsend
  | .ciprecvdata _ => .ciprecvdata

/-- The handler a place belongs to; none in the main loop. -/
def Pc.handler : Pc → Option Handler
  | .top | .testDisconnect | .clearDisconnect | .testSendFail | .clearSendFail
  | .unsolicited | .command => none
  | .startMesh _ | .startConn _ | .startClear | .startClose | .startOpen | .startConnect
  | .startUdp _ | .startWait | .startFail => some .cipstart
  | .closeShutdown | .closeWait | .closeReset | .closeFlag | .closeSocket => some .cipclose
  | .sendMesh | .sendConn | .sendRead | .sendWait _ | .sendCheck _ | .sendFlag _
  | .sendCall _ | .sendDatagram _ => some .cipsend
  | .recvCall => some .ciprecvdata

theorem handler_handler (app : App) (c : AtCmd) : (handler app c).handler = some c.handler := by
  cases c with
  | cipclose =>
      dsimp only [handler]
      split <;> rfl
  | _ => rfl

/-- A handler runs for its own command only. -/
def InHandler (s : State) : Prop :=
  ∀ k, s.pc.handler = some k → ∃ c, s.cmd = .loop c ∧ c.handler = k

/-- How a step outside `cipsend_write` ends: the main thread goes on in the same
handler or in the main loop, or it answers. -/
inductive Ends (s : State) : State → Prop
  | goesOn {s' : State} (hcmd : s'.cmd = s.cmd)
      (hpc : s'.pc.handler = none ∨ s'.pc.handler = s.pc.handler)
      (htrace : ∃ notes, s'.trace = s.trace ++ notes ∧ ∀ n ∈ notes, n.unframed = true) :
      Ends s s'
  | answers {s' : State} (ok flag : Bool) (hfrom : s.pc.handler ≠ none)
      (hcmd : s'.cmd = .parsing) (hpc : s'.pc = .top)
      (htrace : ∃ notes, s'.trace = s.trace ++ notes ++ s.cmd.answered ok flag ∧
        ∀ n ∈ notes, n.unframed = true) :
      Ends s s'

/-- A step which leaves the progress of a `+CIPSEND` as it is. -/
structure Apart (s s' : State) : Prop where
  bytesRead : s'.app.bytesRead = s.app.bytesRead
  bytesToSend : s'.app.bytesToSend = s.app.bytesToSend
  ends : Ends s s'

/-- Work within a step, before it is known how the step ends. -/
structure Aside (s s' : State) : Prop where
  bytesRead : s'.app.bytesRead = s.app.bytesRead
  bytesToSend : s'.app.bytesToSend = s.app.bytesToSend
  cmd : s'.cmd = s.cmd
  trace : ∃ notes, s'.trace = s.trace ++ notes ∧ ∀ n ∈ notes, n.unframed = true

theorem aside_refl (s : State) : Aside s s := ⟨rfl, rfl, rfl, [], by simp, by simp⟩

theorem Aside.goesOn {s s' s'' : State} (h : Aside s s')
    (hread : s''.app.bytesRead = s'.app.bytesRead)
    (hsend : s''.app.bytesToSend = s'.app.bytesToSend) (hcmd : s''.cmd = s'.cmd)
    (htrace : s''.trace = s'.trace)
    (hpc : s''.pc.handler = none ∨ s''.pc.handler = s.pc.handler) : Apart s s'' := by
  obtain ⟨notes, hnotes, hunframed⟩ := h.trace
  exact ⟨hread.trans h.bytesRead, hsend.trans h.bytesToSend,
    .goesOn (hcmd.trans h.cmd) hpc ⟨notes, htrace.trans hnotes, hunframed⟩⟩

theorem Aside.answer {s s' : State} (h : Aside s s') (hfrom : s.pc.handler ≠ none) (ok : Bool) :
    Apart s (s'.answer ok) := by
  obtain ⟨notes, hnotes, hunframed⟩ := h.trace
  refine ⟨h.bytesRead, h.bytesToSend,
    .answers ok s'.app.ipConnectedFlg hfrom rfl rfl ⟨notes, ?_, hunframed⟩⟩
  rw [State.answer_trace, hnotes, h.cmd]

theorem Aside.add {s s' s'' : State} {notes : List Note} (h : Aside s s')
    (hread : s''.app.bytesRead = s'.app.bytesRead)
    (hsend : s''.app.bytesToSend = s'.app.bytesToSend) (hcmd : s''.cmd = s'.cmd)
    (htrace : s''.trace = s'.trace ++ notes) (hnotes : ∀ n ∈ notes, n.unframed = true) :
    Aside s s'' := by
  obtain ⟨notes', hnotes', hunframed⟩ := h.trace
  refine ⟨hread.trans h.bytesRead, hsend.trans h.bytesToSend, hcmd.trans h.cmd,
    notes' ++ notes, ?_, fun n hn => ?_⟩
  · rw [htrace, hnotes', List.append_assoc]
  · exact (List.mem_append.mp hn).elim (hunframed n) (hnotes n)

theorem aside_takeIpd (s : State) : Aside s (takeIpd s) := by
  unfold takeIpd
  split
  · exact aside_refl s
  · dsimp only
    split
    · exact (aside_refl s).add rfl rfl rfl rfl (by simp [Note.unframed])
    · exact (aside_refl s).add rfl rfl rfl (List.append_nil _).symm (by simp)

theorem aside_serve (s : State) (free cr : Bool) : Aside s (serve s free cr) := by
  unfold serve noteLine
  dsimp only
  split
  · exact (aside_refl s).add rfl rfl rfl (List.append_nil _).symm (by simp)
  · exact (aside_refl s).add rfl rfl rfl rfl (by simp [Note.unframed])

theorem aside_close (s : State) (id : Int) : Aside s (s.socketClose id) :=
  (aside_refl s).add rfl rfl rfl rfl (by simp [Note.unframed])

theorem apart_startConn {s : State} {tcp : Option Bool} (hpc : s.pc = .startConn tcp) :
    Apart s (startConn s tcp) := by
  have hfrom : s.pc.handler ≠ none := by simp [hpc, Pc.handler]
  unfold startConn
  split
  · exact (aside_refl s).answer hfrom false
  · cases tcp with
    | none => exact (aside_refl s).answer hfrom false
    | some tcp => exact (aside_refl s).goesOn rfl rfl rfl rfl (.inr (by rw [hpc]; rfl))

theorem apart_startOpen {s : State} (hpc : s.pc = .startOpen) (ready : Bool) :
    Apart s (startOpen s ready) := by
  unfold startOpen
  split
  · rename_i id _ _
    have hopened : Aside s (s.note .opened) :=
      (aside_refl s).add rfl rfl rfl rfl (by simp [Note.unframed])
    exact hopened.goesOn rfl rfl rfl rfl (.inr (by rw [hpc]; rfl))
  · refine Aside.answer ?_ (by simp [hpc, Pc.handler]) false
    exact (aside_refl s).add rfl rfl rfl rfl (by simp [Note.unframed])

theorem apart_startConnect {s : State} (hpc : s.pc = .startConnect) (ready : Bool) (mem : Mem) :
    Apart s (startConnect s ready mem) := by
  unfold startConnect
  split
  · split
    · exact (aside_refl s).goesOn rfl rfl rfl rfl (.inr (by rw [hpc]; rfl))
    · refine (aside_refl s).goesOn rfl rfl rfl rfl (.inr ?_)
      rw [hpc]
      dsimp only
      split <;> rfl
  · exact (aside_refl s).goesOn rfl rfl rfl rfl (.inr (by rw [hpc]; rfl))

theorem apart_startWait {s s' : State} {timeout : Bool} (hpc : s.pc = .startWait)
    (h : startWait s timeout = some s') : Apart s s' := by
  unfold startWait at h
  split at h
  · cases h
    split
    · exact (aside_refl s).answer (by simp [hpc, Pc.handler]) true
    · exact (aside_refl s).goesOn rfl rfl rfl rfl (.inr (by rw [hpc]; rfl))
  · split at h
    · cases h
      exact (aside_refl s).goesOn rfl rfl rfl rfl (.inr (by rw [hpc]; rfl))
    · cases h

theorem apart_closeShutdown {s : State} (hpc : s.pc = .closeShutdown) (mem : Mem)
    (ready : Bool) : Apart s (closeShutdown s mem ready) := by
  have hplace (c : Prop) [Decidable c] :
      (if c then Pc.closeWait else .closeReset).handler = s.pc.handler := by
    rw [hpc]
    split <;> rfl
  unfold closeShutdown
  split
  · exact (aside_refl s).goesOn rfl rfl rfl rfl (.inr (hplace _))
  · exact (aside_refl s).goesOn rfl rfl rfl rfl (.inr (hplace _))

theorem apart_recvCall {s : State} (hpc : s.pc = .recvCall) (i : Input) :
    Apart s (recvCall s i) := by
  have hfrom : s.pc.handler ≠ none := by simp [hpc, Pc.handler]
  unfold recvCall
  split
  · exact (aside_refl s).goesOn rfl rfl rfl rfl (.inl rfl)
  · split
    · exact (aside_refl s).answer hfrom false
    · split
      · split
        · rename_i so _ _ _ so' _
          have hread : Aside s { s with sock := some so' } :=
            (aside_refl s).add rfl rfl rfl (List.append_nil _).symm (by simp)
          dsimp only
          split
          · refine Aside.answer ?_ hfrom true
            exact hread.add rfl rfl rfl rfl (by simp [Note.unframed])
          · exact hread.answer hfrom false
        · exact (aside_refl s).answer hfrom false
      · exact (aside_refl s).answer hfrom _

/-- **The steps outside `cipsend_write`.** -/
theorem apart_main {s s' : State} {i : Input} (hsend : s.pc.handler ≠ some .cipsend)
    (hcommand : s.pc ≠ .command) (h : mainStep s i = some s') : Apart s s' := by
  have hrefl := aside_refl s
  unfold mainStep at h
  cases hpc : s.pc with
  | top =>
      rw [hpc] at h
      cases h
      exact (aside_takeIpd s).goesOn rfl rfl rfl rfl (.inl rfl)
  | testDisconnect | testSendFail =>
      rw [hpc] at h
      cases h
      exact hrefl.goesOn rfl rfl rfl rfl (.inl (by split <;> rfl))
  | clearDisconnect | clearSendFail =>
      rw [hpc] at h
      cases h
      have htriggered (c : Cmd) : Aside s (s.trigger c) :=
        hrefl.add rfl rfl rfl rfl (by simp [Note.unframed])
      exact (htriggered _).goesOn rfl rfl rfl rfl (.inl rfl)
  | unsolicited =>
      rw [hpc] at h
      cases h
      exact (aside_serve s i.free i.cr).goesOn rfl rfl rfl rfl (.inl rfl)
  | command => exact absurd hpc hcommand
  | startMesh tcp =>
      rw [hpc] at h
      cases h
      split
      · exact hrefl.goesOn rfl rfl rfl rfl (.inr (by rw [hpc]; rfl))
      · exact hrefl.answer (by simp [hpc, Pc.handler]) false
  | startConn tcp =>
      rw [hpc] at h
      cases h
      exact apart_startConn hpc
  | startClear | closeReset | closeFlag =>
      rw [hpc] at h
      cases h
      exact hrefl.goesOn rfl rfl rfl rfl (.inr (by rw [hpc]; rfl))
  | startClose =>
      rw [hpc] at h
      cases h
      split
      · exact (aside_close s _).goesOn rfl rfl rfl rfl (.inr (by rw [hpc]; rfl))
      · exact hrefl.goesOn rfl rfl rfl rfl (.inr (by rw [hpc]; rfl))
  | startOpen =>
      rw [hpc] at h
      cases h
      exact apart_startOpen hpc i.ready
  | startConnect =>
      rw [hpc] at h
      cases h
      exact apart_startConnect hpc i.ready i.mem
  | startUdp bound =>
      rw [hpc] at h
      cases h
      refine hrefl.goesOn rfl rfl rfl rfl (.inr ?_)
      rw [hpc]
      dsimp only
      split <;> rfl
  | startWait =>
      rw [hpc] at h
      exact apart_startWait hpc h
  | startFail =>
      rw [hpc] at h
      cases h
      refine Aside.answer ?_ (by simp [hpc, Pc.handler]) false
      exact (aside_close s _).add rfl rfl rfl rfl (by simp [Note.unframed])
  | closeShutdown =>
      rw [hpc] at h
      cases h
      exact apart_closeShutdown hpc i.mem i.ready
  | closeWait =>
      rw [hpc] at h
      dsimp only at h
      split at h
      · cases h
        exact hrefl.goesOn rfl rfl rfl rfl (.inr (by rw [hpc]; rfl))
      · cases h
  | closeSocket =>
      rw [hpc] at h
      cases h
      refine Aside.answer ?_ (by simp [hpc, Pc.handler]) true
      exact (aside_close s _).add rfl rfl rfl rfl (by simp [Note.unframed])
  | sendMesh | sendConn | sendRead | sendWait | sendCheck | sendFlag | sendCall
  | sendDatagram => exact absurd (by rw [hpc]; rfl) hsend
  | recvCall =>
      rw [hpc] at h
      cases h
      exact apart_recvCall hpc i

/-! ## The handler of `+CIPSEND` -/

/-- Behind the prompt, within the call for one chunk. -/
def Pc.prompted : Pc → Bool
  | .sendRead | .sendWait _ | .sendCheck _ | .sendFlag _ | .sendCall _ | .sendDatagram _ => true
  | _ => false

theorem Pc.prompted_handler {pc : Pc} (h : pc.prompted = true) : pc.handler = some .cipsend := by
  cases pc <;> first | rfl | cases h

/-- `cipsend_write` returns an error in this step. -/
def cipsendFails (s : State) (i : Input) : Bool :=
  match s.pc with
  | .sendMesh => !s.app.connectedFlg
  | .sendConn | .sendCheck _ => !s.app.ipConnectedFlg
  | .sendCall data =>
      match s.own s.app.socketId with
      | some so =>
          match socketSend i.mem so i.header data with
          | .ok _ => false
          | .error _ => true
      | none => !(decide (s.target s.app.socketId = .other) && i.ready)
  | .sendDatagram _ =>
      match s.own s.app.socketId with
      | some _ => !i.ready
      | none => !(decide (s.target s.app.socketId = .other) && i.ready)
  | _ => false

/-- No `+CIPSEND` fails behind its first chunk. -/
def Unbroken (s : State) : Act → Prop
  | .main i => s.app.bytesRead ≠ 0 → cipsendFails s i = false
  | _ => True

/-- The outcomes of a step of `cipsend_write`. -/
inductive Sends (s : State) (i : Input) : State → Prop
  | error (tx : Bool) (hfails : cipsendFails s i = true)
      (htx : tx = true → s.pc.prompted = false) :
      Sends s i (({ s with app := { s.app with txPendingFlg := tx } } : State).answer false)
  | goesOn (tx : Bool) (pc : Pc) (hpc : pc.handler = none ∨ pc.handler = some .cipsend)
      (hprompted : pc.prompted = s.pc.prompted)
      (hwait : ∀ data, pc = .sendCheck data → tx = false) :
      Sends s i { s with app := { s.app with txPendingFlg := tx }, pc := pc }
  | prompts (hpc : s.pc = .sendConn) :
      Sends s i ((if s.app.bytesRead = 0 then s.note .prompt else s).goto .sendRead)
  | takes (hpc : s.pc = .sendRead) :
      Sends s i ((s.note (.payload i.chars)).goto
        (if s.app.isTcp then .sendWait i.chars else .sendDatagram i.chars))
  | sent (s₁ : State) (notes : List Note) (hprompted : s.pc.prompted = true)
      (happ : s₁.app = s.app) (hcmd : s₁.cmd = s.cmd) (htrace : s₁.trace = s.trace ++ notes)
      (hnotes : ∀ n ∈ notes, n.unframed = true) : Sends s i (sendDone s₁)

theorem sends_sendCall {s : State} {data : List UInt8} {i : Input}
    (hpc : s.pc = .sendCall data) : Sends s i (sendCall s data i) := by
  have hprompted : s.pc.prompted = true := by rw [hpc]; rfl
  unfold sendCall
  split
  · rename_i so hown
    split
    · exact .sent _ [.queued data] hprompted rfl rfl rfl (by simp [Note.unframed])
    · rename_i hsend
      refine .error false ?_ (fun hf => nomatch hf)
      simp only [cipsendFails, hpc, hown, hsend]
  · rename_i hown
    split
    · exact .sent _ [] hprompted rfl rfl (List.append_nil _).symm (by simp)
    · rename_i hother
      refine .error false ?_ (fun hf => nomatch hf)
      simp only [cipsendFails, hpc, hown]
      grind

theorem sends_sendDatagram {s : State} {data : List UInt8} {i : Input}
    (hpc : s.pc = .sendDatagram data) : Sends s i (sendDatagram s i.ready) := by
  have hprompted : s.pc.prompted = true := by rw [hpc]; rfl
  unfold sendDatagram
  split
  · rename_i so hown
    split
    · exact .sent _ [] hprompted rfl rfl (List.append_nil _).symm (by simp)
    · rename_i hready
      refine .error false ?_ (fun hf => nomatch hf)
      simp only [cipsendFails, hpc, hown]
      simpa using hready
  · rename_i hown
    split
    · exact .sent _ [] hprompted rfl rfl (List.append_nil _).symm (by simp)
    · rename_i hother
      refine .error false ?_ (fun hf => nomatch hf)
      simp only [cipsendFails, hpc, hown]
      grind

/-- **The steps of `cipsend_write`.** -/
theorem sends_main {s s' : State} {i : Input}
    (hwaited : ∀ data, s.pc = .sendCheck data → s.app.txPendingFlg = false)
    (hfrom : s.pc.handler = some .cipsend) (h : mainStep s i = some s') : Sends s i s' := by
  unfold mainStep at h
  cases hpc : s.pc with
  | sendMesh =>
      have hprompted : s.pc.prompted = false := by rw [hpc]; rfl
      rw [hpc] at h
      cases h
      split
      · rename_i hmesh
        exact .error s.app.txPendingFlg (by simp only [cipsendFails, hpc, hmesh])
          fun _ => hprompted
      · split
        · exact .goesOn s.app.txPendingFlg .top (.inl rfl) hprompted.symm
            (fun data hc => nomatch hc)
        · exact .goesOn s.app.txPendingFlg .sendConn (.inr rfl) hprompted.symm
            (fun data hc => nomatch hc)
  | sendConn =>
      rw [hpc] at h
      cases h
      split
      · rename_i hconn
        exact .error s.app.txPendingFlg (by simp only [cipsendFails, hpc, hconn])
          fun _ => by rw [hpc]; rfl
      · exact .prompts hpc
  | sendRead =>
      rw [hpc] at h
      dsimp only at h
      split at h
      · cases h
      · cases h
        exact .takes hpc
  | sendWait data =>
      rw [hpc] at h
      dsimp only at h
      split at h
      · cases h
      · rename_i hpending
        cases h
        exact .goesOn s.app.txPendingFlg (.sendCheck data) (.inr rfl) (by rw [hpc]; rfl)
          fun _ _ => by simpa using hpending
  | sendCheck data =>
      rw [hpc] at h
      cases h
      split
      · exact .goesOn s.app.txPendingFlg (.sendFlag data) (.inr rfl) (by rw [hpc]; rfl)
          (fun data hc => nomatch hc)
      · rename_i hconn
        refine .error s.app.txPendingFlg ?_ fun htx => ?_
        · simp only [cipsendFails, hpc]
          simpa using hconn
        · rw [hwaited data hpc] at htx
          cases htx
  | sendFlag data =>
      rw [hpc] at h
      cases h
      exact .goesOn true (.sendCall data) (.inr rfl) (by rw [hpc]; rfl) (fun data hc => nomatch hc)
  | sendCall data =>
      rw [hpc] at h
      cases h
      exact sends_sendCall hpc
  | sendDatagram data =>
      rw [hpc] at h
      cases h
      exact sends_sendDatagram hpc
  | _ => simp [hpc, Pc.handler] at hfrom

/-- What is kept of the frames. -/
structure Framing (s : State) : Prop where
  inHandler : InHandler s
  idle : (∀ n, s.cmd ≠ .loop (.cipsend n)) → s.app.bytesRead = 0
  total : ∀ n, s.cmd = .loop (.cipsend n) → s.app.bytesRead + s.app.bytesToSend = n % 2 ^ 16
  fresh : s.app.bytesRead = 0 → s.pc.prompted = false → frame s.trace = []
  started : s.app.bytesRead ≠ 0 ∨ s.pc.prompted = true → ∃ chunks, frame s.trace = promptThen chunks
  waited : ∀ data, s.pc = .sendCheck data → s.app.txPendingFlg = false
  past : AllFramed s.trace

theorem Framing.framed {s : State} (hs : Framing s) : Framed (frame s.trace) := by
  by_cases h : s.app.bytesRead ≠ 0 ∨ s.pc.prompted = true
  · exact .inr (hs.started h)
  · refine .inl (hs.fresh ?_ ?_)
    · by_contra hread
      exact h (.inl hread)
    · cases hp : s.pc.prompted with
      | false => rfl
      | true => exact absurd (.inr hp) h

theorem Framing.cipsend {s : State} (hs : Framing s) (hfrom : s.pc.handler = some .cipsend) :
    ∃ n, s.cmd = .loop (.cipsend n) := by
  obtain ⟨c, hcmd, hc⟩ := hs.inHandler _ hfrom
  cases c with
  | cipsend n => exact ⟨n, hcmd⟩
  | _ => cases hc

/-- The answer to a command leaves nothing behind if no byte is counted. -/
theorem framing_answer {s s' : State} (c : AtCmd) (ok flag : Bool) (notes : List Note)
    (hs : Framing s) (hcmd : s'.cmd = .parsing) (hpc : s'.pc = .top)
    (hread : s'.app.bytesRead = 0) (hnotes : ∀ n ∈ notes, n.unframed = true)
    (htrace : s'.trace = s.trace ++ notes ++ [.answered c ok flag]) : Framing s' := by
  have hframe : frame (s.trace ++ notes) = frame s.trace := frame_unframed hnotes
  refine ⟨fun k hk => ?_, fun _ => hread, fun n hn => ?_, fun _ _ => ?_, fun h => ?_,
    fun data hcheck => ?_, ?_⟩
  · rw [hpc] at hk
    cases hk
  · rw [hcmd] at hn
    cases hn
  · rw [htrace, frame_append]
    rfl
  · rcases h with h | h
    · exact absurd hread h
    · rw [hpc] at h
      cases h
  · rw [hpc] at hcheck
    cases hcheck
  · rw [htrace]
    refine (hs.past.add fun n hn => Note.isAnswer_of_unframed (hnotes n hn)).answer ?_ c ok flag
    rw [hframe]
    exact hs.framed

theorem framing_apart {s s' : State} (hs : Framing s) (hsend : s.pc.handler ≠ some .cipsend)
    (h : Apart s s') : Framing s' := by
  have hunprompted {pc : Pc} (hne : pc.handler ≠ some .cipsend) : pc.prompted = false := by
    cases hp : pc.prompted with
    | false => rfl
    | true => exact absurd (Pc.prompted_handler hp) hne
  obtain ⟨hread, htosend, hends⟩ := h
  cases hends with
  | goesOn hcmd hpc htrace =>
      obtain ⟨notes, htrace, hnotes⟩ := htrace
      have hframe : frame s'.trace = frame s.trace := by rw [htrace, frame_unframed hnotes]
      have hne' : s'.pc.handler ≠ some .cipsend := by
        rcases hpc with hpc | hpc
        · simp [hpc]
        · rwa [hpc]
      refine ⟨fun k hk => ?_, ?_, ?_, ?_, ?_, fun data hcheck => ?_, ?_⟩
      · rcases hpc with hpc | hpc
        · rw [hpc] at hk
          cases hk
        · rw [hcmd]
          exact hs.inHandler k (hpc ▸ hk)
      · rw [hcmd, hread]
        exact hs.idle
      · rw [hcmd, hread, htosend]
        exact hs.total
      · rw [hframe, hread]
        exact fun hzero _ => hs.fresh hzero (hunprompted hsend)
      · rw [hframe, hread]
        refine fun hstarted => hs.started (hstarted.imp_right fun hp => ?_)
        rw [hunprompted hne'] at hp
        cases hp
      · rw [hcheck] at hne'
        exact absurd rfl hne'
      · rw [htrace]
        exact hs.past.add fun n hn => Note.isAnswer_of_unframed (hnotes n hn)
  | answers ok flag hfrom hcmd hpc htrace =>
      obtain ⟨notes, htrace, hnotes⟩ := htrace
      obtain ⟨k, hk⟩ := Option.ne_none_iff_exists'.mp hfrom
      obtain ⟨c, hc, hck⟩ := hs.inHandler k hk
      have hother : ∀ n, s.cmd ≠ .loop (.cipsend n) := by
        intro n hn
        rw [hc] at hn
        cases hn
        exact hsend (hk.trans (congrArg some hck.symm))
      rw [hc] at htrace
      exact framing_answer c ok flag notes hs hcmd hpc (hread.trans (hs.idle hother)) hnotes htrace

theorem framing_command {s : State} (hs : Framing s) (hpc : s.pc = .command)
    (parsed : Option AtCmd) : Framing (command s parsed) := by
  have hprompted : s.pc.prompted = false := by rw [hpc]; rfl
  unfold command
  cases hcmd : s.cmd with
  | parsing =>
      have hread : s.app.bytesRead = 0 := hs.idle (by simp [hcmd])
      have hempty := hs.fresh hread hprompted
      cases parsed with
      | none =>
          exact ⟨(fun k hk => nomatch hk), fun _ => hread, hs.total, fun _ _ => hempty,
            fun h => (h.elim (absurd hread) (fun hp => nomatch hp)), (fun data hc => nomatch hc),
            hs.past⟩
      | some c =>
          have hread' : (parseWriteArgs s.app c).bytesRead = 0 := by
            cases c <;> exact hread
          refine ⟨(fun k hk => nomatch hk), fun _ => hread', fun n hn => ?_, fun _ _ => hempty,
            fun h => (h.elim (absurd hread') (fun hp => nomatch hp)), (fun data hc => nomatch hc),
            hs.past⟩
          cases hn
          dsimp only
          rw [hread', Nat.zero_add]
          rfl
  | loop c =>
      have hprompted' : (handler s.app c).prompted = false := by
        cases c with
        | cipclose =>
            dsimp only [handler]
            split <;> rfl
        | _ => rfl
      refine ⟨fun k hk => ⟨c, hcmd, ?_⟩, hs.idle, hs.total, fun hzero _ => hs.fresh hzero hprompted,
        fun h => hs.started (h.imp_right fun hp => ?_), fun data hc => ?_, hs.past⟩
      · rw [State.goto_pc, handler_handler] at hk
        exact Option.some.inj hk
      · rw [State.goto_pc, hprompted'] at hp
        cases hp
      · have hp : (handler s.app c).prompted = true := by
          rw [State.goto_pc] at hc
          rw [hc]
          rfl
        rw [hprompted'] at hp
        cases hp

/-- A step within the handler which neither prompts nor counts. -/
theorem framing_within {s s' : State} (notes : List Note) (hs : Framing s)
    (hfrom : s.pc.handler = some .cipsend)
    (hpc : s'.pc.handler = none ∨ s'.pc.handler = some .cipsend)
    (hprompted : s'.pc.prompted = s.pc.prompted) (hcmd : s'.cmd = s.cmd)
    (hread : s'.app.bytesRead = s.app.bytesRead)
    (htosend : s'.app.bytesToSend = s.app.bytesToSend)
    (htrace : s'.trace = s.trace ++ notes) (hnotes : ∀ n ∈ notes, n.unframed = true)
    (hwait : ∀ data, s'.pc = .sendCheck data → s'.app.txPendingFlg = false) : Framing s' := by
  have hframe : frame s'.trace = frame s.trace := by rw [htrace, frame_unframed hnotes]
  refine ⟨fun k hk => ?_, ?_, ?_, ?_, ?_, hwait, ?_⟩
  · rw [hcmd]
    refine hs.inHandler k ?_
    rcases hpc with hpc | hpc
    · rw [hpc] at hk
      cases hk
    · rw [hfrom, ← hpc, hk]
  · rw [hcmd, hread]
    exact hs.idle
  · rw [hcmd, hread, htosend]
    exact hs.total
  · rw [hframe, hread, hprompted]
    exact hs.fresh
  · rw [hframe, hread, hprompted]
    exact hs.started
  · rw [htrace]
    exact hs.past.add fun n hn => Note.isAnswer_of_unframed (hnotes n hn)

/-- An error of the handler leaves nothing behind where no byte is counted. -/
theorem framing_error {s : State} {n : Nat} {app : App} (hs : Framing s)
    (hcmd : s.cmd = .loop (.cipsend n)) (hread : app.bytesRead = 0) :
    Framing (({ s with app := app } : State).answer false) := by
  refine framing_answer (.cipsend n) false app.ipConnectedFlg [] hs rfl rfl hread (by simp) ?_
  rw [State.answer_trace, hcmd, List.append_nil]
  rfl

theorem framing_sendConn {s : State} {n : Nat} (hs : Framing s) (hpc : s.pc = .sendConn)
    (hcmd : s.cmd = .loop (.cipsend n)) :
    Framing ((if s.app.bytesRead = 0 then s.note .prompt else s).goto .sendRead) := by
  have hin : InHandler ((if s.app.bytesRead = 0 then s.note .prompt else s).goto .sendRead) := by
    intro k hk
    refine ⟨.cipsend n, ?_, Option.some.inj hk⟩
    split <;> exact hcmd
  have hprompted : s.pc.prompted = false := by rw [hpc]; rfl
  split
  · rename_i hzero
    rw [if_pos hzero] at hin
    have hframe : frame (s.trace ++ [.prompt]) = promptThen [] := by
      rw [frame_append, hs.fresh hzero hprompted]
      rfl
    exact ⟨hin, hs.idle, hs.total, (fun _ hp => nomatch hp), fun _ => ⟨[], hframe⟩,
      (fun data hc => nomatch hc), hs.past.add (by simp [Note.isAnswer])⟩
  · rename_i hsome
    rw [if_neg hsome] at hin
    exact ⟨hin, hs.idle, hs.total, (fun _ hp => nomatch hp), fun _ => hs.started (.inl hsome),
      (fun data hc => nomatch hc), hs.past⟩

theorem framing_sendRead {s : State} {n : Nat} {chars : List UInt8} (hs : Framing s)
    (hpc : s.pc = .sendRead) (hcmd : s.cmd = .loop (.cipsend n)) :
    Framing ((s.note (.payload chars)).goto
      (if s.app.isTcp then .sendWait chars else .sendDatagram chars)) := by
  have hplace : (if s.app.isTcp then Pc.sendWait chars else .sendDatagram chars).handler =
      some .cipsend := by
    split <;> rfl
  have hprompted : (if s.app.isTcp then Pc.sendWait chars else .sendDatagram chars).prompted =
      true := by
    split <;> rfl
  obtain ⟨chunks, hchunks⟩ := hs.started (.inr (by rw [hpc]; rfl))
  refine ⟨fun k hk => ⟨.cipsend n, hcmd, ?_⟩, hs.idle, hs.total, fun _ hp => ?_,
    fun _ => ⟨chunks ++ [chars], ?_⟩, fun data hc => ?_, hs.past.add (by simp [Note.isAnswer])⟩
  · rw [State.goto_pc, hplace] at hk
    exact Option.some.inj hk
  · rw [State.goto_pc, hprompted] at hp
    cases hp
  · rw [State.goto_trace, State.note_trace, frame_append, hchunks]
    simp [frameStep, promptThen]
  · rw [State.goto_pc] at hc
    split at hc <;> cases hc

theorem framing_sendDone {s s' : State} {n : Nat} (notes : List Note) (hs : Framing s)
    (hprompted : s.pc.prompted = true) (hcmd : s.cmd = .loop (.cipsend n))
    (happ : s'.app = s.app) (hcmd' : s'.cmd = s.cmd) (htrace : s'.trace = s.trace ++ notes)
    (hnotes : ∀ n ∈ notes, n.unframed = true) : Framing (sendDone s') := by
  have htotal := hs.total n hcmd
  have hlt : n % 2 ^ 16 < 2 ^ 16 := Nat.mod_lt _ (by decide)
  have hframe : frame s'.trace = frame s.trace := by rw [htrace, frame_unframed hnotes]
  unfold sendDone minSize
  dsimp only
  rw [happ]
  split
  · rename_i hleft
    -- the chunk was a full one, and the count of the whole command fits 16 bits
    have hfull : netBufSize ≤ s.app.bytesToSend := by omega
    have hpos : netBufSize = 1220 := rfl
    have hread : (s.app.bytesRead + min s.app.bytesToSend netBufSize) % 2 ^ 16 =
        s.app.bytesRead + netBufSize := by
      rw [Nat.min_eq_right hfull]
      exact Nat.mod_eq_of_lt (by omega)
    refine ⟨(fun k hk => nomatch hk), fun hidle => ?_, fun m hm => ?_, fun hzero _ => ?_,
      fun _ => ?_, (fun data hc => nomatch hc), ?_⟩
    · exact absurd (hcmd'.trans hcmd) (hidle n)
    · have hm : m = n := by
        have heq : s'.cmd = .loop (.cipsend m) := hm
        rw [hcmd', hcmd] at heq
        cases heq
        rfl
      dsimp only
      rw [hread, hm, Nat.min_eq_right hfull]
      omega
    · dsimp only at hzero
      omega
    · exact hframe ▸ hs.started (.inr hprompted)
    · rw [htrace]
      exact hs.past.add fun n hn => Note.isAnswer_of_unframed (hnotes n hn)
  · refine framing_answer (.cipsend n) true s.app.ipConnectedFlg notes hs rfl rfl rfl hnotes ?_
    rw [State.answer_trace]
    dsimp only
    rw [htrace, hcmd', hcmd]
    rfl

theorem framing_send {s s' : State} {i : Input} (hs : Framing s)
    (hok : Unbroken s (.main i)) (hfrom : s.pc.handler = some .cipsend)
    (h : mainStep s i = some s') : Framing s' := by
  obtain ⟨n, hcmd⟩ := hs.cipsend hfrom
  cases sends_main hs.waited hfrom h with
  | error tx hfails =>
      refine framing_error hs hcmd ?_
      by_contra hsome
      rw [hok hsome] at hfails
      cases hfails
  | goesOn tx pc hpc hprompted hwait =>
      exact framing_within [] hs hfrom hpc hprompted rfl rfl rfl (List.append_nil _).symm (by simp)
        hwait
  | prompts hpc => exact framing_sendConn hs hpc hcmd
  | takes hpc => exact framing_sendRead hs hpc hcmd
  | sent s₁ notes hprompted happ hcmd' htrace hnotes =>
      exact framing_sendDone notes hs hprompted hcmd happ hcmd' htrace hnotes

theorem framing_main {s s' : State} {i : Input} (hs : Framing s) (hok : Unbroken s (.main i))
    (h : mainStep s i = some s') : Framing s' := by
  by_cases hfrom : s.pc.handler = some .cipsend
  · exact framing_send hs hok hfrom h
  · by_cases hcommand : s.pc = .command
    · unfold mainStep at h
      rw [hcommand] at h
      cases h
      exact framing_command hs hcommand i.parsed
    · exact framing_apart hs hfrom (apart_main hfrom hcommand h)

/-- What goes on outside the main thread leaves the progress of a command alone. -/
theorem framing_outside {s s' : State} {notes : List Note} (hs : Framing s)
    (hcmd : s'.cmd = s.cmd) (hpc : s'.pc = s.pc) (hread : s'.app.bytesRead = s.app.bytesRead)
    (htosend : s'.app.bytesToSend = s.app.bytesToSend)
    (hpending : s.app.txPendingFlg = false → s'.app.txPendingFlg = false)
    (htrace : s'.trace = s.trace ++ notes) (hnotes : ∀ n ∈ notes, n.unframed = true) :
    Framing s' := by
  have hframe : frame s'.trace = frame s.trace := by rw [htrace, frame_unframed hnotes]
  refine ⟨?_, ?_, ?_, ?_, ?_, fun data hcheck => ?_, ?_⟩
  · unfold InHandler
    rw [hpc, hcmd]
    exact hs.inHandler
  · rw [hcmd, hread]
    exact hs.idle
  · rw [hcmd, hread, htosend]
    exact hs.total
  · rw [hframe, hread, hpc]
    exact hs.fresh
  · rw [hframe, hread, hpc]
    exact hs.started
  · exact hpending (hs.waited data (hpc ▸ hcheck))
  · rw [htrace]
    exact hs.past.add fun n hn => Note.isAnswer_of_unframed (hnotes n hn)

theorem socketCallback_bytes (app : App) (event : SocketEvent) (dLen : Nat) :
    (socketCallback app event dLen).bytesRead = app.bytesRead ∧
      (socketCallback app event dLen).bytesToSend = app.bytesToSend ∧
      (app.txPendingFlg = false → (socketCallback app event dLen).txPendingFlg = false) := by
  unfold socketCallback
  cases event with
  | data =>
      dsimp only
      split
      · exact ⟨rfl, rfl, id⟩
      · exact ⟨rfl, rfl, fun _ => rfl⟩
  | connectDone | txFail | connectClosed | connectionReset | txDone =>
      exact ⟨rfl, rfl, fun _ => rfl⟩
  | _ => exact ⟨rfl, rfl, id⟩

theorem framing_deliver {s s' : State} (hs : Framing s) (h : deliver s = some s') :
    Framing s' := by
  obtain ⟨so, msg, rest, -, -, rfl⟩ := deliver_cases h
  obtain ⟨hread, htosend, hpending⟩ :=
    socketCallback_bytes s.app (delivered so msg).1 (delivered so msg).2
  refine framing_outside hs rfl rfl hread htosend hpending rfl fun n hn => ?_
  unfold callbackNotes at hn
  rcases List.mem_append.mp hn with hl | hr
  · split at hl
    · rw [List.mem_singleton.mp hl]
      rfl
    · cases hl
  · split at hr
    · rw [List.mem_singleton.mp hr]
      rfl
    · cases hr

theorem framing_step {s s' : State} {a : Act} (hs : Framing s) (hok : Unbroken s a)
    (h : step s a = some s') : Framing s' := by
  have hsame {s' : State} (hcmd : s'.cmd = s.cmd) (hpc : s'.pc = s.pc)
      (hread : s'.app.bytesRead = s.app.bytesRead)
      (htosend : s'.app.bytesToSend = s.app.bytesToSend)
      (hpending : s'.app.txPendingFlg = s.app.txPendingFlg) (htrace : s'.trace = s.trace) :
      Framing s' := by
    refine framing_outside hs hcmd hpc hread htosend (fun hf => hpending.trans hf)
      (htrace.trans (List.append_nil _).symm) (by simp)
  cases a with
  | main i => exact framing_main hs hok h
  | mesh up =>
      cases h
      exact hsame rfl rfl rfl rfl rfl rfl
  | deliver => exact framing_deliver hs h
  | segment | timer =>
      obtain ⟨so, t, -, -, rfl⟩ := onSession_cases h
      exact hsame rfl rfl rfl rfl rfl rfl
  | datagram =>
      obtain ⟨so, -, -, rfl⟩ := datagram_cases h
      exact hsame rfl rfl rfl rfl rfl rfl
  | txBuffer =>
      obtain ⟨so, -, -, rfl⟩ := txBuffer_cases h
      exact hsame rfl rfl rfl rfl rfl rfl
  | otherOpen =>
      unfold step at h
      dsimp only at h
      split at h
      · cases h
      · cases h
        exact hsame rfl rfl rfl rfl rfl rfl
  | otherClose id =>
      unfold step at h
      dsimp only at h
      split at h
      · cases h
        exact hsame rfl rfl rfl rfl rfl rfl
      · cases h

theorem framing_init : Framing .init where
  inHandler k hk := nomatch hk
  idle _ := rfl
  total n hn := nomatch hn
  fresh _ _ := rfl
  started h := h.elim (fun hread => absurd rfl hread) fun hp => nomatch hp
  waited data hc := nomatch hc
  past pre post c ok flag heq := by
    have hlen := congrArg List.length heq
    simp [State.init] at hlen

/-- What an error of `cipsend_write` leaves behind: the answer, and `txPendingFlg` set
only where the command has taken nothing. -/
theorem error_main {s s' : State} {i : Input} {n : Nat} {flag : Bool} (hs : Framing s)
    (hcmd : s.cmd = .loop (.cipsend n)) (h : mainStep s i = some s')
    (htrace : s'.trace = s.trace ++ [.answered (.cipsend n) false flag]) :
    cipsendFails s i = true ∧
      ∃ tx, s' = ({ s with app := { s.app with txPendingFlg := tx } } : State).answer false ∧
        (tx = true → s.pc.prompted = false) := by
  have hnone {notes : List Note} (heq : s'.trace = s.trace ++ notes)
      (hnotes : ∀ m ∈ notes, m.isAnswer = false) : False := by
    rw [heq, List.append_cancel_left_eq] at htrace
    cases hnotes (.answered (.cipsend n) false flag) (by rw [htrace]; exact List.mem_cons_self)
  have hsame (heq : s'.trace = s.trace) : False :=
    hnone (heq.trans (List.append_nil _).symm) (by simp)
  by_cases hfrom : s.pc.handler = some .cipsend
  · cases sends_main hs.waited hfrom h with
    | error tx hfails htx => exact ⟨hfails, tx, rfl, htx⟩
    | goesOn => exact (hsame rfl).elim
    | prompts =>
        split at hnone
        · exact (hnone rfl (by simp [Note.isAnswer])).elim
        · exact (hnone (List.append_nil _).symm (by simp)).elim
    | takes => exact (hnone rfl (by simp [Note.isAnswer])).elim
    | sent s₁ notes _ happ hcmd' htrace₁ hnotes =>
        unfold sendDone at htrace hnone
        dsimp only at htrace hnone
        split at htrace
        · rename_i hleft
          rw [if_pos hleft] at hnone
          exact (hnone htrace₁ fun m hm => Note.isAnswer_of_unframed (hnotes m hm)).elim
        · rw [State.answer_trace] at htrace
          dsimp only at htrace
          rw [htrace₁, hcmd', hcmd, List.append_assoc, List.append_cancel_left_eq] at htrace
          have hlast := congrArg List.getLast? htrace
          simp [CmdState.answered] at hlast
  · by_cases hcommand : s.pc = .command
    · unfold mainStep at h
      rw [hcommand] at h
      cases h
      unfold command at hsame
      rw [hcmd] at hsame
      exact (hsame rfl).elim
    · cases (apart_main hfrom hcommand h).ends with
      | goesOn _ _ hnotes =>
          obtain ⟨notes, heq, hunframed⟩ := hnotes
          exact (hnone heq fun m hm => Note.isAnswer_of_unframed (hunframed m hm)).elim
      | answers _ _ hsome =>
          obtain ⟨k, hk⟩ := Option.ne_none_iff_exists'.mp hsome
          obtain ⟨c, hc, hck⟩ := hs.inHandler k hk
          rw [hcmd] at hc
          cases hc
          exact absurd (hk.trans (congrArg some hck.symm)) hfrom

instance decidableUnbroken (s : State) : ∀ a, Decidable (Unbroken s a)
  | .main i => inferInstanceAs (Decidable (s.app.bytesRead ≠ 0 → cipsendFails s i = false))
  | .mesh _ | .deliver | .segment .. | .timer _ | .datagram .. | .txBuffer .. | .otherOpen
  | .otherClose _ => inferInstanceAs (Decidable True)

/-- `+CIPSEND` on a UDP socket, up to the end of a chunk. -/
def datagramRound (chars : List UInt8) : List Act :=
  goOn 2 ++ [.main { Input.idle with chars := chars }] ++ goOn 1

/-- A command fails before its payload, and the next one sends two bytes. -/
def orderlyFrames : List Act :=
  udpSession ++ [.mesh false] ++ commandLine (.cipsend 3) ++ goOn 1 ++ [.mesh true] ++
    commandLine (.cipsend 2) ++ datagramRound [1, 2]

/-- The mesh goes down between two chunks of a command and comes up again, and the next
command begins. -/
def brokenFrame : List Act :=
  udpSession ++ commandLine (.cipsend 1221) ++ datagramRound (List.replicate 1220 0) ++
    [.mesh false] ++ turn none ++ goOn 1 ++ [.mesh true] ++ commandLine (.cipsend 1)

end Modem
