import Ngnet.QmuxOutboundBuffer

/-!
# A local close is the last thing on the wire

Once `poll_close` has queued its record nothing is produced behind it, whatever is called
afterwards and in whatever order, the write side is shut down behind its last byte only, and
what was latched first is what every later operation reports. The events decoded before the
close are still handed out, `poll_next_event` reporting the ending behind the last of them.
-/

namespace Ngnet.QmuxLocalClose
open QmuxVarints QmuxCloseCodec QmuxErrors QmuxStreams StatefulPrograms QmuxRecordWriter
open QmuxConnection QmuxConnectionSteps QmuxOutboundBuffer Relation

variable {β ν : Type}

/-! ## Behind the close record -/

/-- A connection whose close record is queued behind the records `before`: `error` is its ending
and `earlier` are the calls of `poll_shutdown` that were made before. -/
structure Closed (before : List Bytes) (record : Bytes) (error : Error)
    (earlier : List (OutboundBuffer × Poll (Except Unit Unit))) (c : Connection β ν) : Prop where
  closing : c.closing ≠ none
  terminal : c.terminal = some error
  exact : Exact c.out
  records : c.out.records = before ++ [record]
  written : c.closing = some .written → c.out.bytes = []
  shutdowns : ∃ later, c.shutdowns = earlier ++ later ∧
    ∀ s ∈ later, s.1.accepted = before.flatten ++ record

section Closed
variable {before : List Bytes} {record : Bytes} {error : Error}
  {earlier : List (OutboundBuffer × Poll (Except Unit Unit))} {c : Connection β ν}

theorem Closed.accepted (h : Closed before record error earlier c) (hsent : c.out.bytes = []) :
    c.out.accepted = before.flatten ++ record := by
  have hunsent : c.out.unsent = [] := by rw [OutboundBuffer.unsent, hsent, List.drop_nil]
  have hexact := h.exact.exact
  rw [hunsent, List.append_nil, h.records] at hexact
  rw [hexact]
  simp

theorem Closed.setOut (h : Closed before record error earlier c) {out : OutboundBuffer}
    (hexact : Exact out) (hrecords : out.records = c.out.records)
    (hbytes : c.out.bytes = [] → out.bytes = []) :
    Closed before record error earlier (c.setOut out) :=
  ⟨h.closing, h.terminal, hexact, hrecords.trans h.records, fun hw => hbytes (h.written hw),
    h.shutdowns⟩

theorem Closed.shutDown (h : Closed before record error earlier c) (stream : β)
    (answer : Poll (Except Unit Unit)) (hsent : c.closing = some .written ∨ c.out.bytes = []) :
    Closed before record error earlier (shutDown c stream answer) := by
  have hempty : c.out.bytes = [] := hsent.elim h.written id
  refine ⟨?_, h.terminal, h.exact, h.records, fun _ => hempty, ?_⟩
  · unfold QmuxConnectionSteps.shutDown
    dsimp only
    split
    · exact Option.some_ne_none _
    · exact h.closing
  · obtain ⟨later, hlater, haccepted⟩ := h.shutdowns
    refine ⟨later ++ [(c.out, answer)], ?_, ?_⟩
    · rw [← List.append_assoc, ← hlater]
      rfl
    · intro s hs
      rcases List.mem_append.mp hs with hold | hlast
      · exact haccepted s hold
      · obtain rfl := List.mem_singleton.mp hlast
        exact h.accepted hempty

variable [Dwnx ν]

theorem Step.closed {P : NativeCall → Prop} {D : Prop} {d : Connection β ν} (hstep : Step P D c d)
    (h : Closed before record error earlier c) : Closed before record error earlier d := by
  have hexact := (Step.exact hstep h.exact).1
  cases hstep with
  | stream _ => exact ⟨h.closing, h.terminal, h.exact, h.records, h.written, h.shutdowns⟩
  | native _ => exact ⟨h.closing, h.terminal, h.exact, h.records, h.written, h.shutdowns⟩
  | signal _ => exact ⟨h.closing, h.terminal, h.exact, h.records, h.written, h.shutdowns⟩
  | framer _ => exact ⟨h.closing, h.terminal, h.exact, h.records, h.written, h.shutdowns⟩
  | pending _ => exact ⟨h.closing, h.terminal, h.exact, h.records, h.written, h.shutdowns⟩
  | latch e =>
    rw [Connection.latch_eq, h.terminal]
    exact ⟨h.closing, rfl, h.exact, h.records, h.written, h.shutdowns⟩
  | deliver _ _ => exact ⟨h.closing, h.terminal, h.exact, h.records, h.written, h.shutdowns⟩
  | credit _ => exact ⟨h.closing, h.terminal, h.exact, h.records, h.written, h.shutdowns⟩
  | @hand room _ _ =>
    have hout : (c.hand room).out = { c.out with len := max c.out.len (c.out.filled + room) } :=
      OutboundBuffer.makeRoom_eq c.out room
    have hset := h.setOut hexact (by rw [hout]) fun hempty => by rw [hout, hempty]
    exact ⟨hset.closing, hset.terminal, hset.exact, hset.records, hset.written, hset.shutdowns⟩
  -- a record is committed on a live connection only, and this one is neither open nor unended
  | commit _ live => exact absurd live (by simp [h.closing, h.terminal])
  | advance taken => exact h.setOut hexact rfl id
  | reset _ => exact h.setOut hexact rfl fun _ => rfl
  | queueClose reason live _ => exact absurd live h.closing
  | written sent _ =>
    exact ⟨Option.some_ne_none _, h.terminal, h.exact, h.records, fun _ => sent, h.shutdowns⟩
  | shutdown stream answer sent => exact h.shutDown stream answer sent

end Closed

/-! ## Reaching the close -/

/-- What `poll_close` does to a connection that is not closing: it drains, and either stops
there or queues the record and goes on. -/
def Queues [Dwnx ν] (P : NativeCall → Prop) (D : Prop) (c : Connection β ν) (reason : CloseReason)
    (d : Connection β ν) : Prop :=
  ReflTransGen (Quiet P D) c d ∨
    ∃ drained, ReflTransGen (Quiet P D) c drained ∧ drained.terminal = c.terminal ∧
      drained.out.bytes = [] ∧ ReflTransGen (Step P D) (queued drained reason) d

section Runs
variable [Dwnx ν] [AsyncByteStream β]

variable {c : Connection β ν}

theorem pollClose_queues {P : NativeCall → Prop} {D : Prop} (hP : ∀ call, isCredit call = false → P call)
    (fuel : ℕ) (cx : Waker) (reason : CloseReason) (hnone : c.closing = none) :
    Ensures (pollClose fuel cx reason) c (fun _ d => Queues P D c reason d)
      fun _ d => Queues P D c reason d := by
  rw [pollClose, ensures_get, if_neg (by simp [hnone]), if_pos hnone, ensures_bind]
  refine Ensures.mono (drainPending_goes hP fuel cx c) ?_ fun _ _ => .inl
  rintro drained m ⟨hquiet, hsteady, hempty⟩
  cases drained with
  | false => exact ensures_pure.mpr (.inl hquiet)
  | true =>
    simp only [if_true]
    rw [ensures_bind, ensures_of_ok (queueClose_apply reason m)]
    have hclosing : (queued m reason).closing = some .queued := by rw [queued_eq]
    have hqueued {d : Connection β ν} (hd : ReflTransGen (Step P D) (queued m reason) d) :
        Queues P D c reason d := .inr ⟨m, hquiet, hsteady.terminal, hempty rfl, hd⟩
    exact Ensures.mono (completeClose_moves cx (.inl hclosing)) (fun _ _ hd => hqueued hd.1)
      fun _ _ => hqueued

omit [Dwnx ν] [AsyncByteStream β] in
theorem closed_queued (hexact : Exact c.out) (reason : CloseReason) :
    Closed c.out.records (encodeCloseRecord reason) (c.terminal.getD (closedLocally reason))
      c.shutdowns (queued c reason) := by
  have hne : encodeCloseRecord reason ≠ [] := by
    have hlen := (length_closeFrame reason).1
    intro h
    rw [encodeCloseRecord_eq] at h
    rw [List.append_eq_nil_iff.mp h |>.2] at hlen
    exact absurd hlen (by decide)
  rw [queued_eq]
  generalize encodeCloseRecord reason = record at *
  refine ⟨Option.some_ne_none _, rfl, (hexact.makeRoom _).commit _, ?_, ?_, [], ?_, ?_⟩
  · show ((c.out.makeRoom record.length).commit record).records = c.out.records ++ [record]
    rw [OutboundBuffer.commit, if_neg hne, OutboundBuffer.makeRoom_eq]
  · exact fun h => absurd h (by simp)
  · exact (List.append_nil _).symm
  · exact fun _ h => absurd h List.not_mem_nil

omit [AsyncByteStream β] in
theorem Step.unshut {P : NativeCall → Prop} {D : Prop} {d : Connection β ν} (hstep : Step P D c d)
    (h : c.closing = none → ∀ s ∈ c.shutdowns, s.2 ≠ .ready (.ok ())) :
    d.closing = none → ∀ s ∈ d.shutdowns, s.2 ≠ .ready (.ok ()) := by
  cases hstep with
  | stream _ => exact h
  | native _ => exact h
  | signal _ => exact h
  | framer _ => exact h
  | pending _ => exact h
  | latch e =>
    rw [Connection.latch_eq]
    exact h
  | deliver _ _ => exact h
  | credit _ => exact h
  | hand _ _ => exact h
  | commit _ _ => exact h
  | advance _ => exact h
  | reset _ => exact h
  | queueClose reason _ _ =>
    rw [queued_eq]
    exact fun hnone => absurd hnone (Option.some_ne_none _)
  | written _ _ => exact fun hnone => absurd hnone (Option.some_ne_none _)
  | shutdown stream answer _ =>
    intro hnone s hs
    unfold shutDown at hnone hs
    dsimp only at hnone hs
    by_cases hanswer : answer = .ready (.ok ())
    · rw [if_pos hanswer] at hnone
      exact absurd hnone (Option.some_ne_none _)
    · rw [if_neg hanswer] at hnone
      rcases List.mem_append.mp hs with hold | hlast
      · exact h hnone s hold
      · obtain rfl := List.mem_singleton.mp hlast
        exact hanswer

theorem pollClose_closed (fuel : ℕ) (cx : Waker) (reason : CloseReason)
    (hexact : Exact c.out) (hnone : c.closing = none)
    (hqueued : ((Op.pollClose cx reason).step fuel c).2.closing ≠ none) :
    ∃ before, c.out.records <+: before ∧
      Closed before (encodeCloseRecord reason) (c.terminal.getD (closedLocally reason)) c.shutdowns
        ((Op.pollClose cx reason).step fuel c).2 := by
  have hcases : Queues (fun call => isCredit call = false) False c reason
      ((Op.pollClose cx reason).step fuel c).2 := by
    rcases (pollClose_queues (fun _ => id) fuel cx reason hnone).cases with
      ⟨a, d, hrun, hd⟩ | ⟨e, d, hrun, hd⟩
    · rwa [Op.step, outcome, show (Op.pollClose cx reason).program fuel c =
        .ok (.polled a) d from bind_ok hrun]
    · rwa [Op.step, outcome, show (Op.pollClose cx reason).program fuel c =
        .error e d from bind_error hrun]
  rcases hcases with hquiet | ⟨drained, hquiet, hterminal, -, hsteps⟩
  · exact absurd ((Quiet.keeps hquiet).1.trans hnone) hqueued
  · obtain ⟨hdrained, hgrows⟩ := exact_steps (Quiet.steps hquiet) hexact
    have hclosed := closed_queued hdrained reason
    rw [hterminal, (Quiet.keeps hquiet).2] at hclosed
    refine ⟨drained.out.records, hgrows.2, ?_⟩
    exact invariant_of_steps (I := Closed _ _ _ _) (fun _ _ => Step.closed) hsteps hclosed

/-! ## What a connection that has ended answers -/

/-- The answer of every operation but the two that end a connection and `try_next_event`. -/
def endedAnswer (error : Error) (events : List Event) : Op → Option (Except (Halt Error) Outcome)
  | .pollClose _ _ | .pollFinish _ | .tryNextEvent => none
  | .pollNextEvent _ => match events with
    | [] => some (.error (.failed error))
    | event :: _ => some (.ok (.polledEvent (.ready event)))
  | _ => some (.error (.failed error))

omit [Dwnx ν] [AsyncByteStream β] in
theorem outcome_map_error {α γ : Type} {m : ConnectionM β ν α} {f : α → γ} {e : Halt Error}
    {d : Connection β ν} (h : m c = .error e d) : (outcome (f <$> m) c).1 = .error e := by
  rw [outcome, show (f <$> m) c = .error e d from bind_error h]

theorem pollNextEvent_step_ended (fuel : ℕ) (cx : Waker) {error : Error}
    (h : c.terminal = some error) :
    ((Op.pollNextEvent cx).step fuel c).1 = match c.conn.events with
      | [] => .error (.failed error)
      | event :: _ => .ok (.polledEvent (.ready event)) := by
  cases hevents : c.conn.events with
  | nil => exact outcome_map_error (d := c) (pollNextEvent_ended fuel cx h hevents)
  | cons event rest =>
    rw [Op.step, outcome, show (Op.pollNextEvent cx).program fuel c =
      .ok (.polledEvent (.ready event)) (c.deliver event rest) from
        bind_ok (pollNextEvent_first fuel cx hevents)]

theorem step_ended (fuel : ℕ) {error : Error} (h : c.terminal = some error)
    (op : Op) {answer : Except (Halt Error) Outcome}
    (hanswer : endedAnswer error c.conn.events op = some answer) : (op.step fuel c).1 = answer := by
  have hcheck := checkTerminal_ended h
  have herror (hop : (op.program fuel : ConnectionM β ν Outcome) c = .error (.failed error) c)
      (hsome : some (.error (.failed error)) = some answer) : (op.step fuel c).1 = answer := by
    rw [Op.step, outcome, hop]
    exact Option.some.inj hsome
  cases op with
  | pollClose cx reason => exact absurd hanswer (by simp [endedAnswer])
  | pollFinish cx => exact absurd hanswer (by simp [endedAnswer])
  | tryNextEvent => exact absurd hanswer (by simp [endedAnswer])
  | pollNextEvent cx =>
    rw [pollNextEvent_step_ended fuel cx h]
    cases hevents : c.conn.events with
    | nil => exact Option.some.inj (by rwa [hevents] at hanswer)
    | cons event rest => exact Option.some.inj (by rwa [hevents] at hanswer)
  | pollPump cx => exact herror (bind_error (bind_error hcheck)) hanswer
  | pollPumpBuffered cx => exact herror (bind_error (bind_error (bind_error hcheck))) hanswer
  | tryOpen kind => exact herror (bind_error (bind_error hcheck)) hanswer
  | pollWriteStream cx stream data fin =>
    exact herror (bind_error (bind_error (bind_error hcheck))) hanswer
  | tryWriteStreamVectored stream slices fin =>
    exact herror (bind_error (bind_error hcheck)) hanswer
  | shutdownStream stream half code => exact herror (bind_error (bind_error hcheck)) hanswer
  | extendStreamCredit stream bytes => exact herror (bind_error (bind_error hcheck)) hanswer
  | extendConnectionCredit bytes => exact herror (bind_error (bind_error hcheck)) hanswer
  | extendStreamLimit kind count => exact herror (bind_error (bind_error hcheck)) hanswer

end Runs

/-! ## A close with an event in the queue -/

def openedByPeer : ScriptedDwnx where
  reads := [⟨.ok .processed, [.streamOpened ⟨1, one_le_maxVarint⟩]⟩]

def onePadding : ScriptedStream where
  reads := [.ready (.ok [1, 0])]

/-- One stream has been opened by the peer, and its event is still in the queue. -/
def withEvent : Connection ScriptedStream ScriptedDwnx :=
  (run (Op.step 4) [.pollPumpBuffered 0] (.new onePadding openedByPeer .client 16)).2

def plainClose : CloseReason := ⟨.application, 7, 0, []⟩

/-- The close is queued in front of the event. -/
def closedWithEvent : Connection ScriptedStream ScriptedDwnx :=
  ((Op.pollClose 0 plainClose).step 4 withEvent).2

end Ngnet.QmuxLocalClose
