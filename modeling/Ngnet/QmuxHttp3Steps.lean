import Ngnet.QmuxConnectionSteps
import Ngnet.QmuxHttp3Join

/-!
# What the HTTP/3 transport does behind its flush

Every entry point of the transport but `extend_credit` flushes the credit that was reported and
then takes the steps listed in `JoinStep`. None of them extends a window of the layer below.
`D` says whether events are handed to the caller, which `poll_event` alone does.
-/

namespace Ngnet.QmuxHttp3Steps
open QmuxVarints QmuxCloseCodec QmuxErrors QmuxStreams StatefulPrograms QmuxRecordWriter
open QmuxConnection QmuxConnectionSteps QmuxHttp3Join Relation
export QmuxHttp3Join (Inner)

variable {β ν : Type}

/-! ## The flush -/

/-- The native calls that extended a window, with the window and the bytes. -/
def creditLog (calls : List NativeCall) : List (Window × ℕ) :=
  calls.filterMap fun
    | .extendMaxStreamData stream bytes _ => some (some stream, bytes)
    | .extendMaxData bytes => some (none, bytes)
    | _ => none

theorem creditLog_append (a b : List NativeCall) :
    creditLog (a ++ b) = creditLog a ++ creditLog b := List.filterMap_append

theorem native_ensures {α : Type} {call : Conn ν → Except CoreErrorKind α × Conn ν}
    {c : Connection β ν} {R : Connection β ν → Prop} (h : R { c with conn := (call c.conn).2 }) :
    Ensures (native call) c (fun _ d => R d) fun e d => (∃ error, e = .failed error) ∧ R d := by
  rw [native, ensures_get, ensures_bind, ensures_of_ok set_apply]
  cases (call c.conn).1 with
  | ok a => exact ensures_pure.mpr h
  | error kind => exact ensures_fail.mpr ⟨⟨_, rfl⟩, h⟩

/-- What an extension of a window leaves: it is refused on a connection that has ended, and
reaches dwnx on any other. -/
structure Extended (window : Window) (bytes : ℕ) (c d : Connection β ν) : Prop where
  terminal : d.terminal = c.terminal
  log : creditLog d.conn.calls =
    creditLog c.conn.calls ++ if c.terminal.isNone then [(window, bytes)] else []
  ended : c.terminal.isSome = true → d = c

theorem extended_withBridge {α : Type} {call : ν → Reply α × ν} {log : α → NativeCall}
    {window : Window} {bytes : ℕ} {c : Connection β ν} (hopen : c.terminal = none)
    (hlog : ∀ answer, creditLog [log answer] = [(window, bytes)]) :
    Extended window bytes c { c with conn := (c.conn.withBridge call log).2 } := by
  refine ⟨rfl, ?_, by simp [hopen]⟩
  obtain ⟨signals, heq⟩ := Conn.withBridge_eq call log c.conn
  rw [heq, hopen]
  exact (creditLog_append _ _).trans (congrArg _ (hlog _))

variable [Dwnx ν]

variable (window : Window) (bytes : ℕ)

theorem extendWindow_ensures (c : Connection β ν) :
    Ensures (extendWindow window bytes) c (fun _ d => Extended window bytes c d)
      fun e d => (∃ error, e = .failed error) ∧ Extended window bytes c d := by
  cases hterminal : c.terminal with
  | some error =>
    have hended : extendWindow window bytes c = .error (.failed error) c := by
      cases window <;> exact bind_error (checkTerminal_ended hterminal)
    exact (ensures_of_error hended).mpr ⟨⟨error, rfl⟩, rfl, by simp [hterminal], fun _ => rfl⟩
  | none =>
    cases window with
    | some stream =>
      rw [extendWindow, extendStreamCredit, ensures_bind, ensures_of_ok (checkTerminal_open hterminal),
        ensures_bind]
      refine Ensures.mono (native_ensures (extended_withBridge hterminal fun _ => rfl)) ?_
        fun _ _ => id
      intro _ d hd
      exact (ensures_of_ok modify_apply).mpr ⟨hd.terminal, hd.log, by simp [hterminal]⟩
    | none =>
      have hd : Extended none bytes c { c with conn := (c.conn.extendMaxData bytes).2 } :=
        extended_withBridge hterminal fun _ => rfl
      rw [extendWindow, extendConnectionCredit, ensures_bind,
        ensures_of_ok (checkTerminal_open hterminal), ensures_modify, ensures_get]
      split
      · rw [ensures_modify, ensures_of_ok modify_apply]
        exact ⟨hd.terminal, hd.log, by simp [hterminal]⟩
      · rw [ensures_of_ok modify_apply]
        exact ⟨hd.terminal, hd.log, by simp [hterminal]⟩

theorem extendWindow_moves (c : Connection β ν) :
    Moves (Step (fun _ => True) False) (extendWindow window bytes) c fun _ _ => True := by
  cases window with
  | some stream => exact (extendStreamCredit_goes (fun _ => trivial) c).moves.mono fun _ _ _ => trivial
  | none => exact (extendConnectionCredit_goes trivial c).moves.mono fun _ _ _ => trivial

/-- The extensions `new` have been applied, and nothing else has changed above the QMux
connection. -/
structure Applied (new : List (Window × ℕ)) (s t : Inner β ν) : Prop where
  same : ∃ conn creditApplications connectionCreditApplications extensions, t = { s with
    conn, creditApplications, connectionCreditApplications, extensions }
  steps : ReflTransGen (Step (fun _ => True) False) s.conn t.conn
  terminal : t.conn.terminal = s.conn.terminal
  ended : s.conn.terminal.isSome = true → t.conn = s.conn
  extensions : t.extensions = s.extensions ++ new.map fun p => ⟨p.1, p.2, s.conn.terminal.isNone⟩
  log : creditLog t.conn.conn.calls =
    creditLog s.conn.conn.calls ++ if s.conn.terminal.isNone then new else []

variable (s : Inner β ν)

theorem Applied.refl : Applied [] s s :=
  ⟨⟨_, _, _, _, rfl⟩, .refl, rfl, fun _ => rfl, by simp, by simp⟩

theorem Applied.trans {new new' : List (Window × ℕ)} {s t u : Inner β ν} (h : Applied new s t)
    (h' : Applied new' t u) : Applied (new ++ new') s u := by
  refine ⟨?_, h.steps.trans h'.steps, h'.terminal.trans h.terminal, fun hended => ?_, ?_, ?_⟩
  · obtain ⟨conn, a, b, extensions, rfl⟩ := h.same
    obtain ⟨conn', a', b', extensions', rfl⟩ := h'.same
    exact ⟨conn', a', b', extensions', rfl⟩
  · exact (h'.ended (by rw [h.terminal]; exact hended)).trans (h.ended hended)
  · rw [h'.extensions, h.extensions, h.terminal, List.map_append, List.append_assoc]
  · rw [h'.log, h.log, h.terminal, List.append_assoc]
    congr 1
    split <;> rfl

theorem applyCredit_applied :
    ∃ t, applyCredit window bytes s = .ok () t ∧ Applied [(window, bytes)] s t := by
  have hlower : ∃ result conn, (lower (extendWindow window bytes) : InnerM β ν (Except Error Unit)) s =
      .ok result { s with conn } ∧ Extended window bytes s.conn conn ∧
        ReflTransGen (Step (fun _ => True) False) s.conn conn := by
    rcases ((extendWindow_ensures window bytes s.conn).and
      (extendWindow_moves window bytes s.conn)).cases with
        ⟨a, conn, hrun, hextended, hsteps, -⟩ | ⟨e, conn, hrun, ⟨⟨error, rfl⟩, hextended⟩, hsteps⟩
    · exact ⟨.ok a, conn, by rw [lower, within, attempt, hrun], hextended, hsteps⟩
    · exact ⟨.error error, conn, by rw [lower, within, attempt, hrun], hextended, hsteps⟩
  obtain ⟨result, conn, hrun, hextended, hsteps⟩ := hlower
  refine ⟨{ s with conn }.countExtension ⟨window, bytes, s.conn.terminal.isNone⟩, ?_,
    ⟨_, _, _, _, rfl⟩, hsteps, hextended.terminal, hextended.ended, rfl, hextended.log⟩
  rw [applyCredit, bind_ok get_apply, bind_ok hrun]
  rfl

theorem applyStreams_applied (streams : List (StreamId × ℕ)) :
    ∀ s : Inner β ν, ∃ t, applyStreams streams s = .ok () t ∧
      Applied (streams.map fun entry => (some entry.1, entry.2)) s t := by
  induction streams with
  | nil => intro s; exact ⟨s, rfl, .refl s⟩
  | cons entry rest ih =>
    intro s
    obtain ⟨t, hfirst, hone⟩ := applyCredit_applied (some entry.1) entry.2 s
    obtain ⟨u, hrest, hmore⟩ := ih t
    exact ⟨u, by rw [applyStreams, bind_ok hfirst, hrest], hone.trans hmore⟩

/-- The extensions that a flush of the pending credit applies. -/
def pendingList (credit : PendingCredit) : List (Window × ℕ) :=
  credit.streams.map (fun entry => (some entry.1, entry.2)) ++
    if 0 < credit.connection then [(none, credit.connection)] else []

theorem PendingCredit.eq_of_isEmpty {credit : PendingCredit} (h : credit.isEmpty = true) :
    credit = {} := by
  obtain ⟨streams, connection⟩ := credit
  simp only [QmuxHttp3Join.PendingCredit.isEmpty, Bool.and_eq_true, List.isEmpty_iff,
    beq_iff_eq] at h
  obtain ⟨rfl, rfl⟩ := h
  rfl

theorem flushCredit_applied {s : Inner β ν} (h : s.ending.isSome = true → s.credit.isEmpty = true) :
    ∃ t, flushCredit s = .ok () t ∧ Applied (pendingList s.credit) { s with credit := {} } t := by
  cases hempty : s.credit.isEmpty with
  | true =>
    have hcredit := PendingCredit.eq_of_isEmpty hempty
    refine ⟨s, ?_, ?_⟩
    · rw [flushCredit, bind_ok get_apply, if_pos hempty]
      rfl
    · have hsame : { s with credit := {} } = s := by rw [← hcredit]
      rw [hsame, hcredit]
      exact .refl s
  | false =>
    have hopen : ¬ s.ending.isSome = true := fun hsome => by rw [h hsome] at hempty; cases hempty
    obtain ⟨t, hstreams, happlied⟩ := applyStreams_applied s.credit.streams { s with credit := {} }
    have hrun : flushCredit s =
        (if 0 < s.credit.connection then applyCredit none s.credit.connection else pure ()) t := by
      rw [flushCredit, bind_ok get_apply, if_neg (by simp [hempty]), if_neg hopen, bind_ok set_apply,
        bind_ok hstreams]
    rw [hrun, pendingList]
    split
    · obtain ⟨u, hconnection, hone⟩ := applyCredit_applied none s.credit.connection t
      exact ⟨u, hconnection, happlied.trans hone⟩
    · exact ⟨t, rfl, by simpa using happlied⟩

/-- Credit has moved from the books to the layer below, and nothing else has changed above it. -/
structure CreditMoved (s t : Inner β ν) : Prop where
  same : ∃ conn credit creditApplications connectionCreditApplications extensions, t = { s with
    conn, credit, creditApplications, connectionCreditApplications, extensions }
  steps : ReflTransGen (Step (fun _ => True) False) s.conn t.conn
  ended : s.conn.terminal.isSome = true → t.conn = s.conn

theorem flushCredit_moves : ∃ t, flushCredit s = .ok () t ∧ CreditMoved s t := by
  by_cases hquiet : s.ending.isSome = true → s.credit.isEmpty = true
  · obtain ⟨t, hflush, happlied⟩ := flushCredit_applied hquiet
    refine ⟨t, hflush, ?_, happlied.steps, happlied.ended⟩
    obtain ⟨conn, a, b, extensions, rfl⟩ := happlied.same
    exact ⟨conn, {}, a, b, extensions, rfl⟩
  · obtain ⟨hended, hcredit⟩ := Classical.not_imp.mp hquiet
    refine ⟨{ s with credit := {} }, ?_, ⟨_, _, _, _, _, rfl⟩, .refl, fun _ => rfl⟩
    rw [flushCredit, bind_ok get_apply, if_neg hcredit, if_pos hended]
    rfl

theorem extendCredit_moves :
    ∃ t, extendCredit window bytes s = .ok () t ∧ CreditMoved s t := by
  have hkept : CreditMoved s s := ⟨⟨_, _, _, _, _, rfl⟩, .refl, fun _ => rfl⟩
  rw [extendCredit, bind_ok get_apply]
  split
  · exact ⟨s, rfl, hkept⟩
  · rw [deferCredit]
    split
    · exact ⟨s, rfl, hkept⟩
    · rw [bind_ok modify_apply, bind_ok get_apply]
      split
      · obtain ⟨t, hflush, ⟨conn, credit, a, b, extensions, rfl⟩, hsteps, hended⟩ :=
          flushCredit_moves { s with credit := s.credit.defer window bytes }
        exact ⟨_, hflush, ⟨conn, credit, a, b, extensions, rfl⟩, hsteps, hended⟩
      · exact ⟨_, rfl, ⟨_, _, _, _, _, rfl⟩, .refl, fun _ => rfl⟩

/-! ## Behind the flush -/

/-- A step of the layer below that extends no window. -/
abbrev LowerStep (D : Prop) : Connection β ν → Connection β ν → Prop :=
  Step (fun call => isCredit call = false) D

inductive JoinStep (D : Prop) : Inner β ν → Inner β ν → Prop
  | lower {s : Inner β ν} {conn : Connection β ν} (steps : ReflTransGen (LowerStep D) s.conn conn) :
      JoinStep D s { s with conn }
  | ended {s : Inner β ν} (error : Error) : JoinStep D s (s.endWith error)
  | released {s : Inner β ν} (stream : StreamId) (bytes : ℕ) :
      JoinStep D s (s.recordReleased stream bytes)
  | wakers {s : Inner β ν} (openUniWaiter openBidiWaiter : Option Waker)
      (deferredWakes woken : List Waker) :
      JoinStep D s { s with openUniWaiter, openBidiWaiter, deferredWakes, woken }
  | tail {s : Inner β ν} (close : Option CloseReason) (finished : Bool) :
      JoinStep D s { s with close, finished }
  | events {s : Inner β ν} (asked : D) (releases : List QuicEvent) (next : Option QuicEvent)
      (emittedSincePending reportedEnding : Bool) :
      JoinStep D s { s with releases, next, emittedSincePending, reportedEnding }

/-- The program takes such steps only. -/
def Goes {α : Type} (D : Prop) (m : InnerM β ν α) (s : Inner β ν) : Prop :=
  Moves (JoinStep D) m s fun _ _ => True

section Rules
variable {α γ : Type} {D : Prop} {m : InnerM β ν α} {f : α → InnerM β ν γ} {s : Inner β ν}

theorem Goes.pure {a : α} : Goes D (pure a : InnerM β ν α) s := Moves.pure trivial

theorem Goes.fail {error : JoinError} : Goes D (fail error : InnerM β ν α) s := Moves.fail

theorem Goes.bind (h : Goes D m s) (hf : ∀ a t, Goes D (f a) t) : Goes D (m >>= f) s :=
  Moves.bind h fun a t _ => hf a t

theorem Goes.get {f : Inner β ν → InnerM β ν γ} (h : Goes D (f s) s) : Goes D (get >>= f) s :=
  Moves.get h

theorem Goes.modify {g : Inner β ν → Inner β ν} (h : JoinStep D s (g s)) :
    Goes D (modify g : InnerM β ν PUnit) s :=
  (moves_of_ok modify_apply).mpr ⟨.single h, trivial⟩

theorem Goes.set {t : Inner β ν} (h : JoinStep D s t) : Goes D (set t : InnerM β ν PUnit) s :=
  (moves_of_ok set_apply).mpr ⟨.single h, trivial⟩

/-- The program flushes the credit and then takes such steps only. -/
def FlushesFirst (D : Prop) (m : InnerM β ν α) : Prop :=
  ∃ rest : InnerM β ν α, m = (flushCredit >>= fun _ => rest) ∧ ∀ s, Goes D rest s

theorem FlushesFirst.map (g : α → γ) (h : FlushesFirst D m) : FlushesFirst D (g <$> m) := by
  obtain ⟨rest, rfl, hrest⟩ := h
  refine ⟨g <$> rest, by rw [map_bind], fun s => ?_⟩
  exact Moves.bind (hrest s) fun _ _ _ => Goes.pure

theorem lower_goes {m : ConnectionM β ν α} {Q : α → Connection β ν → Prop}
    (h : Moves (LowerStep D) m s.conn Q) : Goes D (lower m) s := by
  refine ensures_within.mpr (ensures_attempt.mpr (Ensures.mono h ?_ ?_))
  · intro a conn hconn
    exact ⟨.single (.lower hconn.1), trivial⟩
  · intro e conn hconn
    cases e with
    | failed error => exact ⟨.single (.lower hconn), trivial⟩
    | outOfFuel => exact .single (.lower hconn)

end Rules

section Programs
variable {D : Prop} [AsyncByteStream β]

variable (fuel : ℕ) (cx : Waker) (s : Inner β ν)

omit [AsyncByteStream β] in
theorem wake_goes :
    Goes D (modify (·.wake cx) : InnerM β ν PUnit) s := Goes.modify (.wakers _ _ _ _)

omit [AsyncByteStream β] in
theorem pumpWith_goes {poll : ConnectionM β ν (Poll Unit)}
    (hpoll : ∀ c, Moves (LowerStep D) poll c fun _ _ => True) (s : Inner β ν) :
    Goes D (pumpWith poll) s := by
  rw [pumpWith]
  refine Goes.get ?_
  split
  · exact Goes.pure
  · refine Goes.bind (lower_goes (hpoll s.conn)) fun result t => ?_
    match result with
    | .ok (.ready ()) => exact Goes.pure
    | .ok .pending => exact Goes.pure
    | .error error => exact Goes.bind (Goes.modify (.ended error)) fun _ _ => Goes.pure

theorem pump_goes : Goes D (pump fuel cx) s :=
  pumpWith_goes (fun c => (pollPump_goes (fun _ => id) fuel cx c).moves.mono fun _ _ _ => trivial) s

theorem pumpBuffered_goes :
    Goes D (pumpBuffered fuel cx) s :=
  pumpWith_goes (fun c => (pollPumpBuffered_goes (fun _ => id) fuel cx c).moves.mono
    fun _ _ _ => trivial) s

theorem finishLower_goes :
    Goes D (finishLower fuel cx) s := by
  rw [finishLower]
  refine Goes.get ?_
  split
  · exact Goes.bind (lower_goes (pollClose_moves (fun _ => id) fuel cx _ s.conn))
      fun _ _ => Goes.pure
  · refine Goes.bind (lower_goes (QmuxConnectionSteps.pollPump_goes (fun _ => id) fuel cx s.conn).moves)
      fun result t => ?_
    split
    · exact Goes.bind (lower_goes (pollFinish_moves (fun _ => id) fuel cx t.conn))
        fun _ _ => Goes.pure
    · exact Goes.pure

omit [AsyncByteStream β] in
theorem offerWrite_goes (stream : StreamId) (slices : List Bytes) (fin : Bool) (s : Inner β ν) :
    Goes D (offerWrite stream slices fin) s := by
  rw [offerWrite]
  split
  · exact Goes.pure
  · refine Goes.bind (lower_goes
      (tryWriteStreamVectored_goes (fun _ => id) stream slices fin s.conn).moves) fun result t => ?_
    match result with
    | .ok (.accepted taken) =>
      dsimp only
      split
      · exact Goes.bind (Goes.modify (.released stream taken)) fun _ _ => Goes.pure
      · exact Goes.pure
    | .ok .blocked => exact Goes.pure
    | .ok .closed => exact Goes.pure
    | .error error => exact Goes.pure

section Transmit
variable {σ : Type} [StreamSource σ]

theorem offerLoop_goes (fuel : ℕ) (cx : Waker) (offers : ℕ) :
    ∀ (source : σ) (s : Inner β ν), Goes D (offerLoop fuel cx offers source) s := by
  induction offers with
  | zero => intro source s; exact Goes.pure
  | succ offers ih =>
    intro source s
    rw [offerLoop]
    refine Goes.bind (pumpBuffered_goes fuel cx s) fun room t => ?_
    cases room with
    | false => exact Goes.pure
    | true =>
      simp only [if_true]
      split
      · exact Goes.pure
      · refine Goes.bind (offerWrite_goes _ _ _ t) ?_
        rintro ⟨verdict, failure⟩ u
        cases failure with
        | some error => exact Goes.modify (.ended error)
        | none =>
          dsimp only
          split
          · exact ih _ u
          · exact Goes.pure

theorem drain_goes (fuel : ℕ) (cx : Waker) (source : σ) (s : Inner β ν) :
    Goes D (drain fuel cx source) s := by
  rw [drain]
  exact Goes.bind (offerLoop_goes fuel cx maxOffers source s) fun _ t =>
    Goes.bind (pumpBuffered_goes fuel cx t) fun _ _ => Goes.pure

end Transmit

/-! ## Events -/

section Events
variable (hD : D)
include hD

omit [AsyncByteStream β] in
theorem takeIn_step (event : Event) (s : Inner β ν) :
    ReflTransGen (JoinStep D) s (s.takeIn event) := by
  have hwake (s : Inner β ν) (bidi : Bool) : JoinStep D s (s.wakeOpen bidi) := by
    cases bidi <;> exact .wakers _ _ _ _
  have hnext (s : Inner β ν) (next : Option QuicEvent) : JoinStep D s { s with next } :=
    .events hD s.releases next s.emittedSincePending s.reportedEnding
  cases event with
  | streamLimit kind _ =>
    cases kind with
    | localBidi => exact .single (hwake s true)
    | localUni => exact .single (hwake s false)
    | remoteBidi => exact .refl
    | remoteUni => exact .refl
  | peerTransportParams => exact .tail (.single (hwake s true)) (hwake _ false)
  | connectionDataCredit _ => exact .refl
  | streamDataCredit _ _ => exact .refl
  | streamData _ _ _ _ => exact .single (hnext s _)
  | streamOpened _ => exact .single (hnext s _)
  | streamClosed _ _ _ => exact .single (hnext s _)
  | streamReset _ _ _ => exact .single (hnext s _)
  | stopSending _ _ => exact .single (hnext s _)

omit [AsyncByteStream β] in
theorem takeIn_goes (event : Event) (s : Inner β ν) :
    Goes D (modify (·.takeIn event) : InnerM β ν PUnit) s :=
  (moves_of_ok modify_apply).mpr ⟨takeIn_step hD event s, trivial⟩

omit [AsyncByteStream β] in
theorem popLoop_goes (turns : ℕ) : ∀ s : Inner β ν, Goes D (popLoop turns) s := by
  induction turns with
  | zero => intro s; exact Moves.outOfFuel
  | succ turns ih =>
    intro s
    rw [popLoop]
    refine Goes.get ?_
    split
    · exact Goes.pure
    · refine Goes.bind (lower_goes (takeEvent_goes hD s.conn).moves) fun result t => ?_
      match result with
      | .ok (some event) => exact Goes.bind (takeIn_goes hD event t) fun _ u => ih u
      | .ok none => exact Goes.pure
      | .error _ => exact Goes.pure

omit [AsyncByteStream β] in
theorem popQueue_goes (s : Inner β ν) : Goes D popQueue s := Goes.get (popLoop_goes hD _ s)

theorem fill_goes (fuel : ℕ) (cx : Waker) (s : Inner β ν) : Goes D (fill fuel cx) s := by
  rw [fill]
  refine Goes.bind (popQueue_goes hD s) fun _ t => Goes.get ?_
  split
  · have hpoll := (pollNextEvent_moves (fun _ => id) hD fuel cx t.conn).weaken fun _ _ => Quiet.step
    refine Goes.bind (lower_goes hpoll) fun result u => ?_
    match result with
    | .ok (.ready event) =>
      refine Goes.bind (takeIn_goes hD event u) fun _ v => ?_
      refine Goes.bind (popQueue_goes hD v) fun _ w => Goes.get ?_
      split
      · exact wake_goes cx w
      · exact Goes.pure
    | .ok .pending => exact Goes.pure
    | .error error => exact Goes.modify (.ended error)
  · exact Goes.pure

omit [AsyncByteStream β] in
theorem startBatch_goes (cx : Waker) (s : Inner β ν) : Goes D (startBatch cx) s := by
  rw [startBatch]
  refine Goes.bind ((moves_of_ok modify_apply).mpr ⟨?_, trivial⟩) fun _ _ => Goes.pure
  exact .tail (.single (.events hD s.releases s.next false s.reportedEnding))
    (.wakers s.openUniWaiter s.openBidiWaiter s.deferredWakes (s.woken ++ [cx]))

omit [AsyncByteStream β] in
theorem handOver_goes (cx : Waker) (s : Inner β ν) : Goes D (handOver cx) s := by
  have hset (next : Option QuicEvent) (emitted reported : Bool) :
      JoinStep D s { s with next, emittedSincePending := emitted, reportedEnding := reported } :=
    .events hD s.releases next emitted reported
  rw [handOver]
  refine Goes.get ?_
  split
  · split
    · exact startBatch_goes hD cx s
    · exact Goes.bind (Goes.set (hset none true s.reportedEnding)) fun _ _ => Goes.pure
  · split
    · split
      · exact startBatch_goes hD cx s
      · refine Goes.bind (Goes.set (hset s.next true true)) fun _ _ => ?_
        split
        · exact Goes.pure
        · exact Goes.fail
    · exact Goes.bind (Goes.set (hset s.next false s.reportedEnding)) fun _ _ => Goes.pure

theorem handNext_goes (fuel : ℕ) (cx : Waker) (s : Inner β ν) : Goes D (handNext fuel cx) s := by
  rw [handNext]
  refine Goes.get ?_
  split
  · exact Goes.bind (Goes.set (.events hD _ s.next true s.reportedEnding)) fun _ _ => Goes.pure
  · split
    · exact Goes.bind (fill_goes hD fuel cx s) fun _ t => handOver_goes hD cx t
    · exact handOver_goes hD cx s

theorem pollEvent_flushes (fuel : ℕ) (cx : Waker) :
    FlushesFirst D (pollEvent fuel cx : InnerM β ν (Poll QuicEvent)) := by
  refine ⟨_, rfl, fun s => Goes.get ?_⟩
  split
  · exact Goes.bind (pumpBuffered_goes fuel cx s) fun _ t => handNext_goes hD fuel cx t
  · exact handNext_goes hD fuel cx s

end Events

/-! ## The entry points -/

theorem pollOpen_flushes (bidi : Bool) :
    FlushesFirst D (pollOpen fuel cx bidi : InnerM β ν (Poll StreamId)) := by
  refine ⟨_, rfl, fun s => Goes.bind (pumpBuffered_goes fuel cx s) fun _ t => Goes.get ?_⟩
  split
  · exact Goes.fail
  · refine Goes.bind (lower_goes (tryOpen_goes (fun _ => id) _ t.conn).moves) fun result u => ?_
    match result with
    | .ok (.opened id) => exact Goes.bind (pumpBuffered_goes fuel cx u) fun _ _ => Goes.pure
    | .error error =>
      exact Goes.bind (Goes.modify (.ended error)) fun _ _ => Goes.get Goes.fail
    | .ok .blocked =>
      refine Goes.bind (Goes.modify ?_) fun _ _ => Goes.pure
      cases bidi
      · exact .wakers (some cx) u.openBidiWaiter u.deferredWakes u.woken
      · exact .wakers u.openUniWaiter (some cx) u.deferredWakes u.woken

theorem pollTransmit_flushes {σ : Type} [StreamSource σ] (source : σ) :
    FlushesFirst D (pollTransmit fuel cx source : InnerM β ν (Poll Unit)) :=
  ⟨_, rfl, fun s => Goes.bind (drain_goes fuel cx source s) fun _ _ => Goes.pure⟩

theorem pollFlush_flushes :
    FlushesFirst D (pollFlush fuel cx : InnerM β ν (Poll Unit)) := by
  refine ⟨_, rfl, fun s => Goes.get (Goes.bind (pump_goes fuel cx s) fun sent t => ?_)⟩
  cases sent with
  | true => exact Goes.pure
  | false =>
    refine Goes.get ?_
    split
    · dsimp only
      split
      · exact Goes.bind (wake_goes cx t) fun _ _ => Goes.pure
      · exact Goes.pure
    · exact Goes.pure

omit [AsyncByteStream β] in
theorem shutdown_flushes (stream : StreamId) (half : Shutdown) (code : ℕ) :
    FlushesFirst D (shutdown stream half code : InnerM β ν Unit) := by
  refine ⟨_, rfl, fun s => Goes.get ?_⟩
  split
  · exact Goes.pure
  · refine Goes.bind (lower_goes (shutdownStream_goes (fun _ => id) stream half code s.conn).moves)
      fun result t => ?_
    match result with
    | .ok () => exact Goes.pure
    | .error error =>
      dsimp only
      split
      · exact Goes.pure
      · exact Goes.bind (Goes.modify (.ended error)) fun _ _ => Goes.get Goes.fail

omit [AsyncByteStream β] in
theorem close_flushes (code : ℕ) (reason : Bytes) :
    FlushesFirst D (close code reason : InnerM β ν Unit) := by
  refine ⟨_, rfl, fun s => Goes.modify ?_⟩
  split
  · exact .tail _ s.finished
  · exact .tail s.close s.finished

theorem runTail_flushes :
    FlushesFirst D (runTail fuel cx : InnerM β ν (Poll Unit)) := by
  refine ⟨_, rfl, fun t => Goes.bind (finishLower_goes fuel cx t) fun done u => ?_⟩
  cases done with
  | true => exact Goes.bind (Goes.modify (.tail u.close true)) fun _ _ => Goes.pure
  | false => exact Goes.pure

end Programs

/-- The entry points that hand events over. -/
def asks {σ : Type} : JoinOp σ → Prop
  | .pollEvent _ => True
  | _ => False

/-- Every entry point flushes, but for a report of credit and a tail that has run already. -/
def flushes {σ : Type} (op : JoinOp σ) (s : Inner β ν) : Bool :=
  match op with
  | .extendCredit _ _ => false
  | .pollFinish _ => !s.finished
  | _ => true

section Runs
variable [AsyncByteStream β] {σ : Type} [StreamSource σ]

theorem program_flushes (fuel : ℕ) (op : JoinOp σ) {s : Inner β ν} (h : flushes op s = true) :
    ∃ rest : InnerM β ν JoinOutcome, op.program fuel s = (flushCredit >>= fun _ => rest) s ∧
      ∀ t, Goes (asks op) rest t := by
  have hfirst {m : InnerM β ν JoinOutcome} (hm : FlushesFirst (asks op) m) (s : Inner β ν) :
      ∃ rest : InnerM β ν JoinOutcome, m s = (flushCredit >>= fun _ => rest) s ∧
        ∀ t, Goes (asks op) rest t := by
    obtain ⟨rest, rfl, hrest⟩ := hm
    exact ⟨rest, rfl, hrest⟩
  cases op with
  | pollEvent cx => exact hfirst (.map _ (pollEvent_flushes trivial fuel cx)) s
  | pollTransmit cx source => exact hfirst (.map _ (pollTransmit_flushes fuel cx source)) s
  | pollFlush cx => exact hfirst (.map _ (pollFlush_flushes fuel cx)) s
  | pollOpenUni cx => exact hfirst (.map _ (pollOpen_flushes fuel cx false)) s
  | pollOpenBi cx => exact hfirst (.map _ (pollOpen_flushes fuel cx true)) s
  | reset stream code => exact hfirst (.map _ (shutdown_flushes stream .write code)) s
  | stopSending stream code => exact hfirst (.map _ (shutdown_flushes stream .read code)) s
  | extendCredit window bytes => exact absurd h (by simp [flushes])
  | close code reason => exact hfirst (.map _ (close_flushes code reason)) s
  | pollFinish cx =>
    have hopen : s.finished = false := by simpa [flushes] using h
    obtain ⟨rest, heq, hgoes⟩ := hfirst (.map JoinOutcome.polled (runTail_flushes fuel cx)) s
    refine ⟨rest, Eq.trans ?_ heq, hgoes⟩
    have hrun : (QmuxHttp3Join.pollFinish fuel cx : InnerM β ν (Poll Unit)) s = runTail fuel cx s := by
      rw [QmuxHttp3Join.pollFinish, bind_ok get_apply, hopen]
      rfl
    show (QmuxHttp3Join.pollFinish fuel cx >>= fun a => pure (JoinOutcome.polled a)) s = _
    rw [bind_apply, hrun, ← bind_apply]
    rfl

theorem step_behind_flush (fuel : ℕ) (op : JoinOp σ) {s t : Inner β ν} (h : flushes op s = true)
    (hflush : flushCredit s = .ok () t) :
    ReflTransGen (JoinStep (asks op)) t (op.step fuel s).2 := by
  obtain ⟨rest, hrun, hrest⟩ := program_flushes fuel op h
  have hend : (op.step fuel s).2 = (outcome rest t).2.wakeDeferred := by
    rw [JoinOp.step, outcome, hrun, bind_ok hflush, outcome]
  rw [hend]
  exact (hrest t).outcome.tail (.wakers _ _ [] _)

theorem step_of_not_flushes (fuel : ℕ) {op : JoinOp σ} {s : Inner β ν}
    (h : flushes op s = false) :
    (∃ window bytes, op = .extendCredit window bytes) ∨
      (∃ cx, op = .pollFinish cx) ∧ (op.step fuel s).2 = s.wakeDeferred := by
  cases op with
  | extendCredit window bytes => exact .inl ⟨window, bytes, rfl⟩
  | pollFinish cx =>
    have hdone : s.finished = true := by simpa [flushes] using h
    have hrun : (QmuxHttp3Join.pollFinish fuel cx : InnerM β ν (Poll Unit)) s =
        .ok (.ready ()) s := by
      rw [QmuxHttp3Join.pollFinish, bind_ok get_apply, hdone]
      rfl
    have hprogram : (JoinOp.pollFinish cx : JoinOp σ).program fuel s =
        .ok (.polled (.ready ())) s := bind_ok hrun
    refine .inr ⟨⟨cx, rfl⟩, ?_⟩
    rw [JoinOp.step, outcome, hprogram]
  | pollEvent _ => exact absurd h (by simp [flushes])
  | pollTransmit _ _ => exact absurd h (by simp [flushes])
  | pollFlush _ => exact absurd h (by simp [flushes])
  | pollOpenUni _ => exact absurd h (by simp [flushes])
  | pollOpenBi _ => exact absurd h (by simp [flushes])
  | reset _ _ => exact absurd h (by simp [flushes])
  | stopSending _ _ => exact absurd h (by simp [flushes])
  | close _ _ => exact absurd h (by simp [flushes])

end Runs

end Ngnet.QmuxHttp3Steps
