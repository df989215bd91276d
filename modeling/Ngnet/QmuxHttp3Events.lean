import Ngnet.QmuxHttp3Steps
import Ngnet.QmuxReadAhead

/-!
# What `poll_event` hands to the HTTP/3 layer

The driver above applies the control events of a batch before its data, so a stream ending has
to be the first thing returned behind a `Pending`. One event of the layer below is held back for
that, beside the queue of releases and the ending. `Answers` says what one poll may return and
what it leaves; `Log` relates everything returned so far to the state.
-/

namespace Ngnet.QmuxHttp3Events
open QmuxVarints QmuxErrors QmuxStreams StatefulPrograms QmuxRecordWriter
open QmuxConnection QmuxConnectionSteps QmuxReadAhead QmuxHttp3Join QmuxHttp3Steps Relation
export QmuxHttp3Join (Inner)

variable {β ν : Type}

/-! ## Answers -/

/-- What `poll_event` returned. -/
abbrev Polled := Poll (Except JoinError QuicEvent)

def returned : Poll QuicEvent → Polled
  | .pending => .pending
  | .ready event => .ready (.ok event)

def handsOver : Polled → Bool
  | .ready _ => true
  | .pending => false

/-- The answers that have to start a batch: a stream that closed, and the ending. -/
def startsBatch : Polled → Bool
  | .ready (.ok event) => endsAStream event
  | .ready (.error _) => true
  | .pending => false

/-- The answers that report the ending of the connection. -/
def isEnding : Polled → Bool
  | .ready (.ok (.closed _)) | .ready (.error _) => true
  | _ => false

/-- The event of the layer below that an answer carries. -/
def lowerEvent : Polled → Option QuicEvent
  | .ready (.ok (.released _ _ _)) | .ready (.ok (.closed _)) => none
  | .ready (.ok event) => some event
  | _ => none

/-- The release that an answer carries. -/
def release : Polled → Option QuicEvent
  | .ready (.ok (.released stream bytes delivered)) => some (.released stream bytes delivered)
  | _ => none

/-- How the ending is reported. -/
def report (ending : Ending) : Polled :=
  if ending.orderly then .ready (.ok (.closed ending.code)) else .ready (.error ending.error)

theorem report_ends (ending : Ending) : isEnding (report ending) = true ∧
    startsBatch (report ending) = true ∧ handsOver (report ending) = true ∧
      lowerEvent (report ending) = none ∧ release (report ending) = none := by
  unfold report
  split <;> exact ⟨rfl, rfl, rfl, rfl, rfl⟩

theorem ending_carries_nothing {r : Polled} (h : isEnding r = true) :
    lowerEvent r = none ∧ release r = none := by
  match r with
  | .pending => cases h
  | .ready (.error _) => exact ⟨rfl, rfl⟩
  | .ready (.ok event) => cases event <;> first | exact ⟨rfl, rfl⟩ | cases h

theorem translate_lower {self : Initiator} {event : Event} {translated : QuicEvent}
    (h : translate self event = some translated) :
    lowerEvent (.ready (.ok translated)) = some translated ∧
      release (.ready (.ok translated)) = none ∧ isEnding (.ready (.ok translated)) = false := by
  cases event <;> simp only [QmuxHttp3Join.translate] at h <;> try split at h
  all_goals
    first
    | (obtain rfl := Option.some.inj h; exact ⟨rfl, rfl, rfl⟩)
    | cases h

/-- One poll behind its flush, its pump and its pull, in state `u`: releases first, then the event
held back, then the ending. -/
inductive Answers : Inner β ν → Polled → Inner β ν → Prop
  | release {u : Inner β ν} {event : QuicEvent} {rest : List QuicEvent}
      (first : u.releases = event :: rest) :
      Answers u (.ready (.ok event)) { u with releases := rest, emittedSincePending := true }
  | event {u : Inner β ν} {event : QuicEvent} (held : u.next = some event)
      (apart : (endsAStream event && u.emittedSincePending) = false) :
      Answers u (.ready (.ok event)) { u with next := none, emittedSincePending := true }
  | batch {u : Inner β ν} (woken : List Waker) (emitted : u.emittedSincePending = true) :
      Answers u .pending { u with emittedSincePending := false, woken }
  | ending {u : Inner β ν} {ending : Ending} (releases : u.releases = []) (held : u.next = none)
      (drained : u.conn.conn.events = []) (latched : u.ending = some ending)
      (unreported : u.reportedEnding = false) (apart : u.emittedSincePending = false) :
      Answers u (report ending) { u with reportedEnding := true, emittedSincePending := true }
  | idle {u : Inner β ν} (releases : u.releases = []) (held : u.next = none)
      (quiet : u.ending = none ∨ u.reportedEnding = true) :
      Answers u .pending { u with emittedSincePending := false }

/-- The program returns an answer for which `Q` holds, unless it stops short, and then `F` does. -/
def Polls (m : InnerM β ν (Poll QuicEvent)) (s : Inner β ν) (Q : Polled → Inner β ν → Prop)
    (F : Inner β ν → Prop) : Prop :=
  Ensures m s (fun r t => Q (returned r) t) fun e t =>
    (∀ error, e = .failed error → Q (.ready (.error error)) t) ∧ (e = .outOfFuel → F t)

variable {F : Inner β ν → Prop}

theorem Polls.mono {m : InnerM β ν (Poll QuicEvent)} {s : Inner β ν}
    {Q Q' : Polled → Inner β ν → Prop} {F' : Inner β ν → Prop} (h : Polls m s Q F)
    (hQ : ∀ r t, Q r t → Q' r t) (hF : ∀ t, F t → F' t) : Polls m s Q' F' :=
  Ensures.mono h (fun _ t => hQ _ t) fun _ t he =>
    ⟨fun error heq => hQ _ t (he.1 error heq), fun heq => hF t (he.2 heq)⟩

theorem startBatch_answers (cx : Waker) {u : Inner β ν}
    (hemitted : u.emittedSincePending = true) : Polls (startBatch cx) u (Answers u) F := by
  rw [Polls, startBatch, ensures_modify, ensures_pure]
  exact .batch (u.woken ++ [cx]) hemitted

theorem handOver_answers (cx : Waker) {u : Inner β ν}
    (hreleases : u.releases = []) (hdrained : u.next = none → u.conn.conn.events = []) :
    Polls (handOver cx) u (Answers u) F := by
  rw [Polls, handOver, ensures_get]
  split
  · rename_i event hnext
    split
    · rename_i hends
      exact startBatch_answers cx (Bool.and_eq_true_iff.mp hends).2
    · rename_i hends
      rw [ensures_bind, ensures_of_ok set_apply, ensures_pure]
      exact .event hnext (Bool.not_eq_true _ ▸ hends)
  · rename_i hnext
    split
    · rename_i ending hending
      obtain ⟨hlatched, hunreported⟩ := Option.filter_eq_some_iff.mp hending
      split
      · rename_i hemitted
        exact startBatch_answers cx hemitted
      · rename_i hemitted
        have hanswer : Answers u (report ending)
            { u with reportedEnding := true, emittedSincePending := true } :=
          .ending hreleases hnext (hdrained hnext) hlatched (by simpa using hunreported)
            (by simpa using hemitted)
        rw [ensures_bind, ensures_of_ok set_apply]
        unfold report at hanswer
        split
        · rename_i horderly
          rw [if_pos horderly] at hanswer
          exact ensures_pure.mpr hanswer
        · rename_i horderly
          rw [if_neg horderly] at hanswer
          exact ensures_fail.mpr ⟨fun _ heq => by cases heq; exact hanswer, fun heq => by cases heq⟩
    · rename_i hending
      rw [ensures_bind, ensures_of_ok set_apply, ensures_pure]
      refine .idle hreleases hnext ?_
      cases hlatched : u.ending with
      | none => exact .inl rfl
      | some ending => exact .inr (by simpa [hlatched] using hending)

/-! ## Pulling from the layer below -/

/-- The first event of the queue below is taken and becomes the one held back. -/
inductive Pop : Inner β ν → Inner β ν → Prop
  | take {s : Inner β ν} {event : Event} {rest : List Event} (free : s.next = none)
      (first : s.conn.conn.events = event :: rest) :
      Pop s ({ s with conn := s.conn.deliver event rest }.takeIn event)

theorem takeIn_eq {s : Inner β ν} (h : s.next = none) (event : Event) :
    ∃ openUniWaiter openBidiWaiter deferredWakes, s.takeIn event = { s with
      next := translate s.self event, openUniWaiter, openBidiWaiter, deferredWakes } := by
  have hkeep : s = { s with next := none } := by rw [← h]
  cases event with
  | streamLimit kind _ =>
    cases kind with
    | localBidi => exact ⟨_, _, _, by rw [hkeep]; rfl⟩
    | localUni => exact ⟨_, _, _, by rw [hkeep]; rfl⟩
    | remoteBidi => exact ⟨_, _, _, hkeep⟩
    | remoteUni => exact ⟨_, _, _, hkeep⟩
  | peerTransportParams => exact ⟨_, _, _, by rw [hkeep]; rfl⟩
  | connectionDataCredit _ => exact ⟨_, _, _, hkeep⟩
  | streamDataCredit _ _ => exact ⟨_, _, _, hkeep⟩
  | streamData _ _ _ _ => exact ⟨_, _, _, rfl⟩
  | streamOpened _ => exact ⟨_, _, _, rfl⟩
  | streamClosed _ _ _ => exact ⟨_, _, _, rfl⟩
  | streamReset _ _ _ => exact ⟨_, _, _, rfl⟩
  | stopSending _ _ => exact ⟨_, _, _, rfl⟩

theorem takeIn_conn (s : Inner β ν) (event : Event) : (s.takeIn event).conn = s.conn := by
  cases event with
  | streamLimit kind _ => cases kind <;> rfl
  | _ => rfl

/-- Nothing is held back only where nothing is queued below. -/
def Drained (s : Inner β ν) : Prop := s.next = none → s.conn.conn.events = []

theorem popLoop_pops (turns : ℕ) : ∀ s : Inner β ν, s.conn.conn.events.length < turns →
    ∃ t, popLoop turns s = .ok () t ∧ ReflTransGen Pop s t ∧ Drained t := by
  induction turns with
  | zero => intro s h; exact absurd h (by omega)
  | succ turns ih =>
    intro s hlong
    rw [popLoop, bind_ok get_apply]
    cases hnext : s.next with
    | some event => exact ⟨s, rfl, .refl, fun h => by simp [hnext] at h⟩
    | none =>
      rw [if_neg (by simp)]
      cases hevents : s.conn.conn.events with
      | nil =>
        have htake : lower takeEvent s = .ok (.ok none) s := by
          rw [lower, within, attempt, takeEvent_empty hevents]
        exact ⟨s, by rw [bind_ok htake]; rfl, .refl, fun _ => hevents⟩
      | cons event rest =>
        have htake : lower takeEvent s =
            .ok (.ok (some event)) { s with conn := s.conn.deliver event rest } := by
          rw [lower, within, attempt, takeEvent_first hevents]
        obtain ⟨t, hrun, hpops, hdrained⟩ := ih ({ s with conn := s.conn.deliver event rest }.takeIn event) (by
          rw [takeIn_conn]
          show rest.length < turns
          rw [hevents] at hlong
          exact Nat.lt_of_succ_lt_succ hlong)
        refine ⟨t, ?_, .head (.take hnext hevents) hpops, hdrained⟩
        rw [bind_ok htake]
        exact (bind_ok modify_apply).trans hrun

theorem popQueue_pops (s : Inner β ν) :
    ∃ t, popQueue s = .ok () t ∧ ReflTransGen Pop s t ∧ Drained t := by
  rw [popQueue, bind_ok get_apply]
  exact popLoop_pops _ s (Nat.lt_succ_self _)

section Pull
variable [Dwnx ν] [AsyncByteStream β]

variable (fuel : ℕ) (cx : Waker)

omit [AsyncByteStream β] in
theorem eventBehindPump_takes {c d : Connection β ν}
    (hsteps : ReflTransGen (LowerStep False) c d) (pumped : Except Error Bool) :
    Ensures (eventBehindPump cx pumped) d
      (fun r e => (∀ event, r = .ready event → ∃ d rest, ReflTransGen (LowerStep False) c d ∧
          d.conn.events = event :: rest ∧ e = d.deliver event rest) ∧
        (r = .pending → ReflTransGen (LowerStep False) c e ∧ e.conn.events = []))
      fun err e => ReflTransGen (LowerStep False) c e ∧
        ∀ error, err = .failed error → e.conn.events = [] := by
  rw [eventBehindPump.eq_def, ensures_bind]
  cases hevents : d.conn.events with
  | cons event rest =>
    rw [ensures_of_ok (takeEvent_first hevents), ensures_pure]
    refine ⟨fun _ heq => ?_, fun heq => by cases heq⟩
    cases heq
    exact ⟨d, rest, hsteps, hevents, rfl⟩
  | nil =>
    rw [ensures_of_ok (takeEvent_empty hevents)]
    rcases pumped with error | (_ | _)
    · exact ensures_fail.mpr ⟨hsteps, fun _ _ => hevents⟩
    · exact ensures_pure.mpr ⟨fun _ heq => (by cases heq), fun _ => ⟨hsteps, hevents⟩⟩
    · rw [ensures_modify, ensures_pure]
      exact ⟨fun _ heq => (by cases heq), fun _ => ⟨hsteps.tail (.signal _), hevents⟩⟩

/-- `poll_next_event` of the layer below pumps, and hands out the first event there is. It
returns nothing only where nothing is queued. -/
theorem pollNextEvent_takes (c : Connection β ν) :
    Ensures (pollNextEvent fuel cx) c
      (fun r e => (∀ event, r = .ready event → ∃ d rest, ReflTransGen (LowerStep False) c d ∧
          d.conn.events = event :: rest ∧ e = d.deliver event rest) ∧
        (r = .pending → ReflTransGen (LowerStep False) c e ∧ e.conn.events = []))
      fun err e => ReflTransGen (LowerStep False) c e ∧
        ∀ error, err = .failed error → e.conn.events = [] := by
  cases hfirst : c.conn.events with
  | cons event rest =>
    refine (ensures_of_ok (pollNextEvent_first fuel cx hfirst)).mpr
      ⟨fun _ heq => ?_, fun heq => by cases heq⟩
    cases heq
    exact ⟨c, rest, .refl, hfirst, rfl⟩
  | nil =>
    rw [pollNextEvent, ensures_bind, ensures_of_ok (takeEvent_empty hfirst), ensures_bind,
      ensures_attempt]
    refine Ensures.mono (pumpBounded_goes (D := False) (fun _ => id) fuel cx .whenFull c).moves ?_ ?_
    · rintro read d ⟨hsteps, -⟩
      exact eventBehindPump_takes cx hsteps (.ok read)
    · intro e d hsteps
      cases e with
      | failed error => exact eventBehindPump_takes cx hsteps (.error error)
      | outOfFuel => exact ⟨hsteps, fun _ heq => by cases heq⟩

/-- A step of `fill`: an event pulled from below, or a step of the transport's own that queues no
release. -/
def Pulls (s t : Inner β ν) : Prop := (JoinStep False s t ∨ Pop s t) ∧ t.releases = s.releases

variable {s : Inner β ν}

section
omit [AsyncByteStream β]

theorem Pop.pulls {t : Inner β ν} (h : Pop s t) : Pulls s t := by
  refine ⟨.inr h, ?_⟩
  cases h with
  | @take event rest hfree _ =>
    obtain ⟨_, _, _, heq⟩ := takeIn_eq (s := { s with conn := s.conn.deliver event rest }) hfree event
    rw [heq]

theorem pulls_releases {t : Inner β ν} (h : ReflTransGen Pulls s t) :
    t.releases = s.releases := by
  induction h with
  | refl => rfl
  | tail _ hstep ih => exact hstep.2.trans ih

theorem popQueue_pulls (s : Inner β ν) : Moves Pulls popQueue s fun _ t => Drained t := by
  obtain ⟨t, hrun, hpops, hdrained⟩ := popQueue_pops s
  exact (moves_of_ok hrun).mpr ⟨ReflTransGen.mono (fun _ _ => Pop.pulls) _ _ hpops, hdrained⟩

end

omit [Dwnx ν] [AsyncByteStream β] in
theorem endWith_eq (s : Inner β ν) (error : Error) :
    s.endWith error = { s with ending := some (s.ending.getD (.new error)) } := by
  unfold Inner.endWith
  cases h : s.ending with
  | none => rfl
  | some ending => exact congrArg (fun ending => { s with ending }) h

theorem pollLower_pulls (hnext : s.next = none) :
    Moves Pulls (do
      match ← lower (pollNextEvent fuel cx) with
      | .ok (.ready event) =>
        modify (·.takeIn event)
        popQueue
        let s ← get
        if s.next.isNone && s.ending.isNone then modify (·.wake cx)
      | .ok .pending => pure ()
      | .error error => modify (·.endWith error)) s fun _ t => Drained t := by
  have hlower {conn : Connection β ν} (h : ReflTransGen (LowerStep False) s.conn conn) :
      ReflTransGen Pulls s { s with conn } := .single ⟨.inl (.lower h), rfl⟩
  refine ensures_bind.mpr (ensures_within.mpr (ensures_attempt.mpr
    (Ensures.mono (pollNextEvent_takes fuel cx s.conn) ?_ ?_)))
  · rintro r conn ⟨hready, hpending⟩
    cases r with
    | ready event =>
      -- the poll and the translation together are one event pulled
      obtain ⟨d, rest, hsteps, hevents, rfl⟩ := hready event rfl
      have hpop : Pop { s with conn := d } ({ s with conn := d.deliver event rest }.takeIn event) :=
        .take hnext hevents
      rw [ensures_modify]
      refine Moves.behind (.tail (hlower hsteps) hpop.pulls) ?_
      refine Moves.bind (popQueue_pulls _) fun _ t hdrained => Moves.get ?_
      split
      · exact (moves_of_ok modify_apply).mpr ⟨.single ⟨.inl (.wakers _ _ _ _), rfl⟩, hdrained⟩
      · exact Moves.pure hdrained
    | pending => exact ensures_pure.mpr ⟨hlower (hpending rfl).1, fun _ => (hpending rfl).2⟩
  · rintro e conn ⟨hsteps, hfailed⟩
    cases e with
    | failed error =>
      have hend : Pulls { s with conn } ({ s with conn }.endWith error) :=
        ⟨.inl (.ended error), by rw [endWith_eq]⟩
      refine (ensures_of_ok modify_apply).mpr ⟨.tail (hlower hsteps) hend, ?_⟩
      rw [endWith_eq]
      exact fun _ => hfailed error rfl
    | outOfFuel => exact hlower hsteps

theorem fill_pulls (s : Inner β ν) :
    Moves Pulls (fill fuel cx) s fun _ t => Drained t := by
  rw [fill]
  refine Moves.bind (popQueue_pulls s) fun _ t hdrained => Moves.get ?_
  split
  · rename_i hnext
    exact pollLower_pulls fuel cx (Option.isNone_iff_eq_none.mp hnext)
  · exact Moves.pure hdrained

/-! ## Failures below are values -/

omit [Dwnx ν] [AsyncByteStream β] in
/-- The program never fails, though it may stop short. -/
def Absorbs {α : Type} (m : InnerM β ν α) : Prop :=
  ∀ s, Ensures m s (fun _ _ => True) fun e _ => e = .outOfFuel

section Rules
variable {α γ : Type} {m : InnerM β ν α} {f : α → InnerM β ν γ}

section
omit [Dwnx ν] [AsyncByteStream β]

theorem Absorbs.of_ok (h : ∀ s, ∃ a t, m s = .ok a t) : Absorbs m := by
  intro s
  obtain ⟨a, t, hrun⟩ := h s
  exact (ensures_of_ok hrun).mpr trivial

theorem Absorbs.bind (h : Absorbs m) (hf : ∀ a, Absorbs (f a)) : Absorbs (m >>= f) :=
  fun s => ensures_bind.mpr (Ensures.mono (h s) (fun a t _ => hf a t) fun _ _ => id)

theorem Absorbs.pure {a : α} : Absorbs (pure a : InnerM β ν α) := .of_ok fun s => ⟨a, s, rfl⟩

theorem Absorbs.get : Absorbs (get : InnerM β ν (Inner β ν)) := .of_ok fun s => ⟨s, s, rfl⟩

theorem Absorbs.modify (g : Inner β ν → Inner β ν) : Absorbs (modify g : InnerM β ν PUnit) :=
  .of_ok fun s => ⟨⟨⟩, g s, rfl⟩

theorem Absorbs.lower (m : ConnectionM β ν α) : Absorbs (lower m) := by
  intro s
  refine ensures_within.mpr (ensures_attempt.mpr ?_)
  cases hrun : m s.conn with
  | ok a conn => exact (ensures_of_ok hrun).mpr trivial
  | error e conn =>
    refine (ensures_of_error hrun).mpr ?_
    cases e with
    | failed error => exact trivial
    | outOfFuel => rfl

end

end Rules

omit [Dwnx ν] [AsyncByteStream β] in
theorem popQueue_absorbs : Absorbs (popQueue : InnerM β ν Unit) := by
  refine .of_ok fun s => ?_
  obtain ⟨t, hrun, -⟩ := popQueue_pops s
  exact ⟨(), t, hrun⟩

theorem pumpBuffered_absorbs :
    Absorbs (pumpBuffered fuel cx : InnerM β ν Bool) := by
  rw [pumpBuffered, pumpWith]
  refine .bind .get fun s => ?_
  split
  · exact .pure
  · refine .bind (.lower _) fun result => ?_
    rcases result with error | (_ | ⟨⟩)
    · exact .bind (.modify _) fun _ => .pure
    · exact .pure
    · exact .pure

theorem fill_absorbs : Absorbs (fill fuel cx : InnerM β ν Unit) := by
  rw [fill]
  refine .bind popQueue_absorbs fun _ => .bind .get fun s => ?_
  split
  · refine .bind (.lower _) fun result => ?_
    rcases result with error | (_ | event)
    · exact .modify _
    · exact .pure
    · refine .bind (.modify _) fun _ => .bind popQueue_absorbs fun _ => .bind .get fun t => ?_
      split
      · exact .modify _
      · exact .pure
  · exact .pure

/-! ## One poll -/

/-- What a poll does before it answers. -/
def Prepares (s u : Inner β ν) : Prop :=
  ∃ t v, CreditMoved s t ∧ ReflTransGen (JoinStep False) t v ∧ ReflTransGen Pulls v u

theorem handNext_answers (s : Inner β ν) :
    Polls (handNext fuel cx) s (fun r t => ∃ u, ReflTransGen Pulls s u ∧ Answers u r t)
      (ReflTransGen Pulls s) := by
  rw [Polls, handNext, ensures_get]
  split
  · rename_i event rest hreleases
    rw [ensures_bind, ensures_of_ok set_apply, ensures_pure]
    exact ⟨s, .refl, .release hreleases⟩
  · rename_i hreleases
    have hover {u : Inner β ν} (hpulls : ReflTransGen Pulls s u) (hu : u.releases = [])
        (hdrained : Drained u) : Polls (handOver cx) u
          (fun r t => ∃ u, ReflTransGen Pulls s u ∧ Answers u r t) (ReflTransGen Pulls s) :=
      (handOver_answers cx hu hdrained).mono (fun r t ht => ⟨u, hpulls, ht⟩) fun _ => id
    split
    · have hfill := (fill_pulls fuel cx s).and (fill_absorbs fuel cx s)
      refine ensures_bind.mpr (Ensures.mono hfill ?_ ?_)
      · rintro _ u ⟨⟨hpulls, hdrained⟩, -⟩
        exact hover hpulls ((pulls_releases hpulls).trans hreleases) hdrained
      · rintro e u ⟨hpulls, rfl⟩
        exact ⟨fun _ heq => (by cases heq), fun _ => hpulls⟩
    · rename_i hnext
      exact hover .refl hreleases fun h => by simp [h] at hnext

theorem pollEvent_answers (s : Inner β ν) :
    Polls (pollEvent fuel cx) s (fun r t => ∃ u, Prepares s u ∧ Answers u r t) (Prepares s) := by
  obtain ⟨t, hflush, hmoved⟩ := flushCredit_moves s
  have hbehind {v : Inner β ν} (hpump : ReflTransGen (JoinStep False) t v) :
      Polls (handNext fuel cx) v (fun r w => ∃ u, Prepares s u ∧ Answers u r w) (Prepares s) :=
    (handNext_answers fuel cx v).mono
      (fun r w ⟨u, hpulls, hanswer⟩ => ⟨u, ⟨t, v, hmoved, hpump, hpulls⟩, hanswer⟩)
      fun w hpulls => ⟨t, v, hmoved, hpump, hpulls⟩
  rw [Polls, pollEvent, ensures_bind, ensures_of_ok hflush, ensures_get]
  split
  · rw [ensures_bind]
    refine Ensures.mono (Ensures.and (pumpBuffered_goes (D := False) fuel cx t)
      (pumpBuffered_absorbs fuel cx t)) ?_ ?_
    · exact fun _ v hv => hbehind hv.1.1
    · rintro e v ⟨hpump, rfl⟩
      exact ⟨fun _ heq => (by cases heq), fun _ => ⟨t, v, hmoved, hpump, .refl⟩⟩
  · exact hbehind .refl

end Pull

/-! ## Everything returned so far -/

/-- The answers since the last `Pending`, if any, handed something over. -/
def emitted (polled : List Polled) : Bool := polled.getLast?.any handsOver

/-- Every answer that has to start a batch does. -/
def Batched (polled : List Polled) : Prop :=
  ∀ earlier r, earlier ++ [r] <+: polled → startsBatch r = true → emitted earlier = false

theorem Batched.append {polled : List Polled} {r : Polled} (h : Batched polled)
    (hr : startsBatch r = true → emitted polled = false) : Batched (polled ++ [r]) := by
  intro earlier r' hrun hstarts
  rcases List.prefix_concat_iff.mp hrun with heq | hrun
  · obtain ⟨rfl, hlast⟩ := List.append_inj' heq rfl
    obtain rfl : r' = r := by simpa using hlast
    exact hr hstarts
  · exact h earlier r' hrun hstarts

theorem emitted_append (polled : List Polled) (r : Polled) :
    emitted (polled ++ [r]) = handsOver r := by
  simp [emitted]

/-- How the answers of a run account for the events of the layer below, for the releases and for
the ending. -/
structure Log (polled : List Polled) (s : Inner β ν) : Prop where
  accounted : Accounted s.conn
  events : polled.filterMap lowerEvent ++ s.next.toList =
    s.conn.delivered.filterMap (translate s.self)
  releases : polled.filterMap release ++ s.releases = s.recorded
  recorded : ∀ event ∈ s.recorded, ∃ stream bytes delivered, event = .released stream bytes delivered
  endings : polled.filter isEnding = if s.reportedEnding then (s.ending.map report).toList else []
  latched : s.reportedEnding = true → s.ending.isSome = true
  batch : s.emittedSincePending = emitted polled
  batched : Batched polled

namespace Log
variable {polled : List Polled} {s t : Inner β ν}

theorem start (stream : β) (raw : ν) (role : Role) (readAhead : ℕ) :
    Log [] (Inner.new (Connection.new stream raw role readAhead)) where
  accounted := accounted_new stream raw role readAhead
  events := rfl
  releases := rfl
  recorded := by simp [Inner.new]
  endings := rfl
  latched := by simp [Inner.new]
  batch := rfl
  batched := by simp [Batched]

theorem ended (h : Log polled s) (error : Error) : Log polled (s.endWith error) := by
  rw [endWith_eq]
  refine { h with endings := ?_, latched := fun _ => rfl }
  rw [h.endings]
  cases hreported : s.reportedEnding with
  | false => rfl
  | true =>
    obtain ⟨ending, hending⟩ := Option.isSome_iff_exists.mp (h.latched hreported)
    simp [hending]

section Steps
variable [Dwnx ν]

theorem keeps (h : Log polled s) {P : NativeCall → Prop} {conn : Connection β ν}
    (steps : ReflTransGen (Step P False) s.conn conn) :
    Accounted conn ∧ conn.delivered = s.conn.delivered :=
  invariant_of_steps (I := fun d => Accounted d ∧ d.delivered = s.conn.delivered)
    (fun _ _ hstep ⟨hacc, hsame⟩ => ⟨Step.accounted hstep hacc, (Step.delivered hstep).trans hsame⟩)
    steps ⟨h.accounted, rfl⟩

theorem moved (h : Log polled s) (hmoved : CreditMoved s t) : Log polled t := by
  obtain ⟨hacc, hsame⟩ := h.keeps hmoved.steps
  obtain ⟨conn, credit, a, b, extensions, rfl⟩ := hmoved.same
  exact { h with accounted := hacc, events := by rw [hsame]; exact h.events }

theorem step (h : Log polled s) (hstep : JoinStep False s t) : Log polled t := by
  cases hstep with
  | lower steps =>
    obtain ⟨hacc, hsame⟩ := h.keeps steps
    exact { h with accounted := hacc, events := by rw [hsame]; exact h.events }
  | ended error => exact h.ended error
  | released stream bytes =>
    refine { h with releases := ?_, recorded := ?_ }
    · show _ ++ (s.releases ++ [_]) = s.recorded ++ [_]
      rw [← List.append_assoc, h.releases]
    · intro event hevent
      rcases List.mem_append.mp hevent with hold | hnew
      · exact h.recorded event hold
      · exact ⟨stream, bytes, true, List.mem_singleton.mp hnew⟩
  | wakers _ _ _ _ => exact { h with }
  | tail _ _ => exact { h with }
  | events asked _ _ _ _ => exact asked.elim

omit [Dwnx ν] in
theorem pop (h : Log polled s) (hpop : Pop s t) : Log polled t := by
  cases hpop with
  | @take event rest hfree hfirst =>
    have hacc : s.conn.conn.raised = s.conn.delivered ++ event :: rest := by
      rw [← hfirst]
      exact h.accounted
    have hevents := h.events
    rw [hfree, Option.toList_none, List.append_nil] at hevents
    obtain ⟨uni, bidi, wakes, heq⟩ :=
      takeIn_eq (s := { s with conn := s.conn.deliver event rest }) hfree event
    rw [heq]
    refine { h with accounted := hacc.trans (List.append_cons _ _ _), events := ?_ }
    show _ ++ (translate s.self event).toList =
      (s.conn.delivered ++ [event]).filterMap (translate s.self)
    rw [List.filterMap_append, hevents]
    cases htranslate : translate s.self event <;> simp [htranslate]

theorem prepares (h : Log polled s) (hprepares : Prepares s t) : Log polled t := by
  obtain ⟨u, v, hmoved, hpump, hpulls⟩ := hprepares
  have hv := invariant_of_steps (I := Log polled) (fun _ _ hstep hu => hu.step hstep) hpump
    (h.moved hmoved)
  refine invariant_of_steps (I := Log polled) (fun _ _ hstep hu => ?_) hpulls hv
  rcases hstep.1 with hstep | hpop
  · exact hu.step hstep
  · exact hu.pop hpop

end Steps

theorem pending (h : Log polled s) (woken : List Waker) :
    Log (polled ++ [.pending]) { s with emittedSincePending := false, woken } := by
  refine { h with events := ?_, releases := ?_, endings := ?_, batch := ?_, batched := ?_ }
  · rw [List.filterMap_append]
    exact (congrArg (· ++ _) (List.append_nil _)).trans h.events
  · rw [List.filterMap_append]
    exact (congrArg (· ++ _) (List.append_nil _)).trans h.releases
  · rw [List.filter_append]
    exact (List.append_nil _).trans h.endings
  · exact (emitted_append polled .pending).symm
  · exact h.batched.append (by simp [startsBatch])

theorem queued {event : QuicEvent} {rest : List QuicEvent} (h : Log polled s)
    (first : s.releases = event :: rest) :
    ∃ stream bytes delivered, event = .released stream bytes delivered := by
  refine h.recorded event ?_
  rw [← h.releases, first]
  exact List.mem_append_right _ List.mem_cons_self

theorem translated {event : QuicEvent} (h : Log polled s) (held : s.next = some event) :
    lowerEvent (.ready (.ok event)) = some event ∧ release (.ready (.ok event)) = none ∧
      isEnding (.ready (.ok event)) = false := by
  have hevent : event ∈ s.conn.delivered.filterMap (translate s.self) := by
    rw [← h.events, held]
    exact List.mem_append_right _ (List.mem_singleton.mpr rfl)
  obtain ⟨lower, -, htranslate⟩ := List.mem_filterMap.mp hevent
  exact translate_lower htranslate

theorem answers {r : Polled} (h : Log polled s) (hanswer : Answers s r t) : Log (polled ++ [r]) t := by
  cases hanswer with
  | @release event rest first =>
    obtain ⟨stream, bytes, delivered, rfl⟩ := h.queued first
    refine { h with events := ?_, releases := ?_, endings := ?_, batch := ?_, batched := ?_ }
    · rw [List.filterMap_append]
      exact (congrArg (· ++ _) (List.append_nil _)).trans h.events
    · rw [List.filterMap_append, List.append_assoc, ← h.releases, first]
      rfl
    · rw [List.filter_append]
      exact (List.append_nil _).trans h.endings
    · rw [emitted_append]
      rfl
    · exact h.batched.append (by simp [startsBatch, endsAStream])
  | @event event held apart =>
    obtain ⟨hlower, hrelease, hending⟩ := h.translated held
    refine { h with events := ?_, releases := ?_, endings := ?_, batch := ?_, batched := ?_ }
    · rw [List.filterMap_append, ← h.events, held]
      simp [hlower]
    · rw [List.filterMap_append, ← h.releases]
      simp [hrelease]
    · rw [List.filter_append, h.endings]
      simp [hending]
    · rw [emitted_append]
      rfl
    · refine h.batched.append fun hstarts => ?_
      have hends : endsAStream event = true := hstarts
      rw [hends, Bool.true_and] at apart
      rw [← h.batch, apart]
  | batch woken emitted => exact h.pending woken
  | @ending ending releases held drained latched unreported apart =>
    obtain ⟨hending, hstarts, hhands, hlower, hrelease⟩ := report_ends ending
    refine { h with events := ?_, releases := ?_, endings := ?_, latched := ?_, batch := ?_, batched := ?_ }
    · rw [List.filterMap_append, ← h.events]
      simp [hlower]
    · rw [List.filterMap_append, ← h.releases]
      simp [hrelease]
    · rw [List.filter_append, h.endings]
      simp [hending, unreported, latched]
    · exact fun _ => by simp [latched]
    · rw [emitted_append, hhands]
    · exact h.batched.append fun _ => by rw [← h.batch, apart]
  | idle _ _ _ => exact h.pending s.woken

end Log

/-! ## Runs -/

section Runs
variable [Dwnx ν] [AsyncByteStream β] {σ : Type} [StreamSource σ]

/-- The answer of an entry point, where it was a poll for an event that came to its end. -/
def answer : JoinOp σ → Except (Halt JoinError) JoinOutcome → Option Polled
  | .pollEvent _, .ok (.event r) => some (returned r)
  | .pollEvent _, .error (.failed error) => some (.ready (.error error))
  | _, _ => none

/-- The answers of a run. -/
def answers (fuel : ℕ) : List (JoinOp σ) → Inner β ν → List Polled
  | [], _ => []
  | op :: rest, s => (answer op (op.step fuel s).1).toList ++ answers fuel rest (op.step fuel s).2

variable (fuel : ℕ)

theorem answers_append (ops later : List (JoinOp σ)) (s : Inner β ν) :
    answers fuel (ops ++ later) s =
      answers fuel ops s ++ answers fuel later (run (JoinOp.step fuel) ops s).2 := by
  induction ops generalizing s with
  | nil => rfl
  | cons op rest ih => exact (congrArg (_ ++ ·) (ih _)).trans (List.append_assoc _ _ _).symm

variable {r : Polled}

omit [StreamSource σ] in
theorem answer_polls {op : JoinOp σ} {outcome : Except (Halt JoinError) JoinOutcome}
    (h : answer op outcome = some r) : ∃ cx, op = .pollEvent cx := by
  cases op with
  | pollEvent cx => exact ⟨cx, rfl⟩
  | _ => cases h

variable {s : Inner β ν}

variable (cx : Waker)

theorem step_polls {Q : Polled → Inner β ν → Prop}
    {F : Inner β ν → Prop} (h : Polls (pollEvent fuel cx) s Q F) :
    let op : JoinOp σ := .pollEvent cx
    (∃ r t, answer op (op.step fuel s).1 = some r ∧ (op.step fuel s).2 = t.wakeDeferred ∧ Q r t) ∨
      ∃ t, answer op (op.step fuel s).1 = none ∧ (op.step fuel s).2 = t.wakeDeferred ∧ F t := by
  intro op
  have hstep {result : Except (Halt JoinError) JoinOutcome} {t : Inner β ν}
      (hrun : outcome (op.program fuel) s = (result, t)) :
      op.step fuel s = (result, t.wakeDeferred) := by
    rw [JoinOp.step, hrun]
  rcases Ensures.cases h with ⟨r, t, hrun, hQ⟩ | ⟨e, t, hrun, hfailed, hshort⟩
  · have heq := hstep (t := t) (by rw [outcome, show op.program fuel s = .ok (.event r) t from bind_ok hrun])
    exact .inl ⟨returned r, t, by rw [heq]; rfl, by rw [heq], hQ⟩
  · have heq := hstep (t := t) (by rw [outcome, show op.program fuel s = .error e t from bind_error hrun])
    cases e with
    | failed error => exact .inl ⟨_, t, by rw [heq]; rfl, by rw [heq], hfailed error rfl⟩
    | outOfFuel => exact .inr ⟨t, by rw [heq]; rfl, by rw [heq], hshort rfl⟩

theorem step_answers
    (h : answer (.pollEvent cx : JoinOp σ) ((JoinOp.pollEvent cx : JoinOp σ).step fuel s).1 = some r) :
    ∃ u t, Prepares s u ∧ Answers u r t ∧
      ((JoinOp.pollEvent cx : JoinOp σ).step fuel s).2 = t.wakeDeferred := by
  rcases step_polls (σ := σ) fuel cx (pollEvent_answers fuel cx s) with
    ⟨r', t, hanswer, hend, u, hprepares, hanswers⟩ | ⟨t, hanswer, -⟩
  · obtain rfl := Option.some.inj (hanswer.symm.trans h)
    exact ⟨u, t, hprepares, hanswers, hend⟩
  · rw [hanswer] at h
    cases h

variable {polled : List Polled}

theorem log_other {fuel : ℕ} {op : JoinOp σ} (hother : asks op = False)
    (h : Log polled s) : Log polled (op.step fuel s).2 := by
  cases hflushes : flushes op s with
  | true =>
    obtain ⟨t, hflush, hmoved⟩ := flushCredit_moves s
    have hsteps := step_behind_flush fuel op hflushes hflush
    rw [hother] at hsteps
    exact invariant_of_steps (I := Log polled) (fun _ _ hstep hu => hu.step hstep) hsteps (h.moved hmoved)
  | false =>
    rcases step_of_not_flushes fuel hflushes with ⟨window, bytes, rfl⟩ | ⟨-, hsame⟩
    · obtain ⟨t, hrun, hmoved⟩ := extendCredit_moves window bytes s
      have hprogram : (JoinOp.extendCredit window bytes : JoinOp σ).program fuel s = .ok .done t :=
        bind_ok hrun
      rw [JoinOp.step, outcome, hprogram]
      exact { h.moved hmoved with }
    · rw [hsame]
      exact { h with }

theorem log_step (op : JoinOp σ)
    (h : Log polled s) : Log (polled ++ (answer op (op.step fuel s).1).toList) (op.step fuel s).2 := by
  have hnone (hother : asks op = False) (hanswer : answer op (op.step fuel s).1 = none) :
      Log (polled ++ (answer op (op.step fuel s).1).toList) (op.step fuel s).2 := by
    rw [hanswer, Option.toList_none, List.append_nil]
    exact log_other hother h
  cases op with
  | pollEvent cx =>
    rcases step_polls (σ := σ) fuel cx (pollEvent_answers fuel cx s) with
      ⟨r, t, hanswer, hend, u, hprepares, hanswers⟩ | ⟨t, hanswer, hend, hprepares⟩
    · rw [hanswer, hend]
      exact { (h.prepares hprepares).answers hanswers with }
    · rw [hanswer, hend, Option.toList_none, List.append_nil]
      exact { h.prepares hprepares with }
  | pollTransmit _ _ => exact hnone rfl rfl
  | pollFlush _ => exact hnone rfl rfl
  | pollOpenUni _ => exact hnone rfl rfl
  | pollOpenBi _ => exact hnone rfl rfl
  | reset _ _ => exact hnone rfl rfl
  | stopSending _ _ => exact hnone rfl rfl
  | extendCredit _ _ => exact hnone rfl rfl
  | close _ _ => exact hnone rfl rfl
  | pollFinish _ => exact hnone rfl rfl

theorem log_run (ops : List (JoinOp σ))
    (h : Log polled s) : Log (polled ++ answers fuel ops s) (run (JoinOp.step fuel) ops s).2 := by
  induction ops generalizing polled s with
  | nil => rwa [answers, List.append_nil]
  | cons op rest ih =>
    rw [answers, ← List.append_assoc]
    exact ih (log_step fuel op h)

/-! ## Winding down -/

/-- Twice what is still to be handed over, and the `Pending` that a batch in progress costs. -/
def owed (s : Inner β ν) : ℕ :=
  2 * (s.releases.length + s.next.toList.length + s.conn.conn.events.length) +
    s.emittedSincePending.toNat

/-- The layer below has ended, and the ending is not reported yet. -/
structure Over (error : Error) (s : Inner β ν) : Prop where
  terminal : s.conn.terminal = some error
  unreported : s.reportedEnding = false

/-- A connection that winds down, with no more to hand over than before. -/
structure Winds (error : Error) (s t : Inner β ν) : Prop where
  ending : Over error t
  owed : owed t ≤ owed s

variable {error : Error} {t u : Inner β ν}

omit [Dwnx ν] [AsyncByteStream β] in
theorem Winds.trans (h : Winds error s t) (h' : Winds error t u) :
    Winds error s u := ⟨h'.ending, h'.owed.trans h.owed⟩

omit [Dwnx ν] [AsyncByteStream β] in
theorem winds_ended (h : Over error s) (cause : Error) :
    Winds error s (s.endWith cause) := by
  rw [endWith_eq]
  exact ⟨⟨h.terminal, h.unreported⟩, Nat.le_refl _⟩

omit [AsyncByteStream β] in
theorem winds_moved (h : Over error s) (hmoved : CreditMoved s t) :
    Winds error s t := by
  have hconn := hmoved.ended (by simp [h.terminal])
  obtain ⟨conn, credit, a, b, extensions, rfl⟩ := hmoved.same
  obtain rfl : conn = s.conn := hconn
  exact ⟨⟨h.terminal, h.unreported⟩, Nat.le_refl _⟩

omit [Dwnx ν] [AsyncByteStream β] in
theorem winds_pop (h : Over error s) (hpop : Pop s t) :
    Winds error s t := by
  cases hpop with
  | @take event rest hfree hfirst =>
    obtain ⟨uni, bidi, wakes, heq⟩ :=
      takeIn_eq (s := { s with conn := s.conn.deliver event rest }) hfree event
    rw [heq]
    refine ⟨⟨h.terminal, h.unreported⟩, ?_⟩
    have hone : (translate s.self event).toList.length ≤ 1 := by
      cases translate s.self event <;> simp
    have hconn : (s.conn.deliver event rest).conn.events = rest := rfl
    simp only [owed, hfree, hfirst, hconn, Option.toList_none, List.length_nil, List.length_cons]
    omega

omit [Dwnx ν] [AsyncByteStream β] in
theorem winds_pops (h : Over error s)
    (hpops : ReflTransGen Pop s t) : Winds error s t :=
  invariant_of_steps (I := Winds error s)
    (fun _ _ hpop hu => hu.trans (winds_pop hu.ending hpop)) hpops ⟨h, Nat.le_refl _⟩

theorem pumpBuffered_ended (h : s.conn.terminal = some error) :
    pumpBuffered fuel cx s = .ok false (s.endWith error) := by
  rw [pumpBuffered, pumpWith, bind_ok get_apply]
  cases hending : s.ending with
  | some ending =>
    rw [Inner.endWith, hending]
    rfl
  | none =>
    have hpoll : lower (pollPumpBuffered fuel cx) s = .ok (.error error) s := by
      rw [lower, within, attempt, pollPumpBuffered, pumpBounded,
        bind_error (bind_error (checkTerminal_ended h))]
    rw [if_neg (by simp), bind_ok hpoll]
    rfl

/-- On a connection that has ended `fill` comes to its end, and latches the ending where it finds
nothing to hand over. -/
theorem fill_ended (h : Over error s) :
    ∃ t, fill fuel cx s = .ok () t ∧ Winds error s t ∧ Drained t ∧ t.releases = s.releases ∧
      (t.next = none → t.ending.isSome = true) := by
  obtain ⟨t, hrun, hpops, hdrained⟩ := popQueue_pops s
  have hwinds := winds_pops h hpops
  have hreleases := pulls_releases (ReflTransGen.mono (fun _ _ => Pop.pulls) _ _ hpops)
  rw [fill, bind_ok hrun, bind_ok get_apply]
  cases hnext : t.next with
  | some event =>
    exact ⟨t, rfl, hwinds, hdrained, hreleases, fun hnone => by simp [hnext] at hnone⟩
  | none =>
    have hpoll : lower (pollNextEvent fuel cx) t = .ok (.error error) t := by
      rw [lower, within, attempt, pollNextEvent_ended fuel cx hwinds.ending.terminal (hdrained hnext)]
    refine ⟨t.endWith error, by rw [if_pos Option.isNone_none, bind_ok hpoll]; rfl,
      hwinds.trans (winds_ended hwinds.ending error), ?_, ?_, ?_⟩
    · rw [endWith_eq]
      exact fun _ => hdrained hnext
    · rw [endWith_eq]
      exact hreleases
    · rw [endWith_eq]
      exact fun _ => rfl

/-- What a poll finds on a connection that has ended: something to hand over, or the ending. -/
def Unwinds (error : Error) (s : Inner β ν) (r : Polled) (t : Inner β ν) : Prop :=
  ∃ u, Winds error s u ∧ (u.releases = [] → u.next = none → u.ending.isSome = true) ∧ Answers u r t

theorem handNext_ended (h : Over error s) :
    Polls (handNext fuel cx) s (Unwinds error s) fun _ => False := by
  rw [Polls, handNext, ensures_get]
  split
  · rename_i event rest hreleases
    rw [ensures_bind, ensures_of_ok set_apply, ensures_pure]
    exact ⟨s, ⟨h, Nat.le_refl _⟩, fun hnone => by simp [hreleases] at hnone, .release hreleases⟩
  · rename_i hreleases
    have hover {u : Inner β ν} (hwinds : Winds error s u) (hu : u.releases = [])
        (hdrained : Drained u) (hending : u.next = none → u.ending.isSome = true) :
        Polls (handOver cx) u (Unwinds error s) fun _ => False :=
      (handOver_answers cx hu hdrained).mono
        (fun r t ht => ⟨u, hwinds, fun _ => hending, ht⟩) fun _ => id
    split
    · obtain ⟨t, hrun, hwinds, hdrained, hsame, hending⟩ := fill_ended fuel cx h
      rw [ensures_bind, ensures_of_ok hrun]
      exact hover hwinds (hsame.trans hreleases) hdrained hending
    · rename_i hnext
      exact hover ⟨h, Nat.le_refl _⟩ hreleases (fun hnone => by simp [hnone] at hnext)
        fun hnone => by simp [hnone] at hnext

theorem pollEvent_ended (h : Over error s) :
    Polls (pollEvent fuel cx) s (Unwinds error s) fun _ => False := by
  obtain ⟨t, hflush, hmoved⟩ := flushCredit_moves s
  have hwinds := winds_moved h hmoved
  have hbehind {v : Inner β ν} (hv : Winds error s v) :
      Polls (handNext fuel cx) v (Unwinds error s) fun _ => False :=
    (handNext_ended fuel cx hv.ending).mono
      (fun r w ⟨u, hu, hending, hanswer⟩ => ⟨u, hv.trans hu, hending, hanswer⟩) fun _ => id
  rw [Polls, pollEvent, ensures_bind, ensures_of_ok hflush, ensures_get]
  split
  · rw [ensures_bind, ensures_of_ok (pumpBuffered_ended fuel cx hwinds.ending.terminal)]
    exact hbehind (hwinds.trans (winds_ended hwinds.ending error))
  · exact hbehind hwinds

omit [Dwnx ν] [AsyncByteStream β] in
theorem Unwinds.ends (h : Unwinds error s r t) :
    isEnding r = true ∨ Over error t ∧ owed t < owed s := by
  obtain ⟨u, hwinds, hending, hanswer⟩ := h
  have hle := hwinds.owed
  cases hanswer with
  | release first =>
    refine .inr ⟨⟨hwinds.ending.terminal, hwinds.ending.unreported⟩, ?_⟩
    simp only [owed, first, List.length_cons, Bool.toNat_true] at hle ⊢
    omega
  | event held _ =>
    refine .inr ⟨⟨hwinds.ending.terminal, hwinds.ending.unreported⟩, ?_⟩
    simp only [owed, held, Option.toList_some, Option.toList_none, List.length_singleton,
      List.length_nil, Bool.toNat_true] at hle ⊢
    omega
  | batch _ emitted =>
    refine .inr ⟨⟨hwinds.ending.terminal, hwinds.ending.unreported⟩, ?_⟩
    simp only [owed, emitted, Bool.toNat_true, Bool.toNat_false] at hle ⊢
    omega
  | ending _ _ _ _ _ _ => exact .inl (report_ends _).1
  | idle releases held quiet =>
    have hsome := hending releases held
    rcases quiet with hnone | hreported
    · simp [hnone] at hsome
    · simp [hwinds.ending.unreported] at hreported

theorem ending_returned (polls : ℕ) :
    ∀ {s : Inner β ν}, Over error s → owed s < polls →
      ∃ r ∈ answers fuel (List.replicate polls (.pollEvent cx : JoinOp σ)) s, isEnding r = true := by
  induction polls with
  | zero => intro s _ h; exact absurd h (by omega)
  | succ polls ih =>
    intro s hover howed
    rcases step_polls (σ := σ) fuel cx (pollEvent_ended fuel cx hover) with
      ⟨r, t, hanswer, hend, hunwinds⟩ | ⟨t, -, -, hfalse⟩
    · rw [List.replicate_succ, answers, hanswer, hend]
      rcases hunwinds.ends with hending | ⟨ht, hless⟩
      · exact ⟨r, List.mem_append_left _ (List.mem_singleton.mpr rfl), hending⟩
      · obtain ⟨r', hmem, hending⟩ := ih (s := t.wakeDeferred) ⟨ht.terminal, ht.unreported⟩
          (show owed t < polls by omega)
        exact ⟨r', List.mem_append_right _ hmem, hending⟩
    · exact hfalse.elim

/-! ## Batches, order and the ending -/

section
omit [Dwnx ν] [AsyncByteStream β]

theorem first_of_batch (h : emitted polled = false) :
    polled = [] ∨ polled.getLast? = some .pending := by
  rcases List.eq_nil_or_concat polled with rfl | ⟨front, r, rfl⟩
  · exact .inl rfl
  · rw [List.concat_eq_append, emitted_append] at h
    cases r with
    | pending => exact .inr (by simp)
    | ready _ => simp [handsOver] at h

theorem not_emitted (h : polled = [] ∨ polled.getLast? = some .pending) :
    emitted polled = false := by
  rcases h with rfl | hlast
  · rfl
  · rw [emitted, hlast]
    rfl

theorem Log.order (h : Log polled s) :
    polled.filterMap lowerEvent ++ s.next.toList ++ s.conn.conn.events.filterMap (translate s.self) =
      s.conn.conn.raised.filterMap (translate s.self) := by
  rw [h.events, ← List.filterMap_append, ← h.accounted]

theorem Log.ending_unique (h : Log polled s) :
    (polled.filter isEnding).length ≤ 1 := by
  rw [h.endings]
  split
  · cases s.ending <;> simp
  · simp

theorem Log.ending_report (h : Log polled s)
    (hr : r ∈ polled) (hending : isEnding r = true) :
    s.reportedEnding = true ∧ ∃ ending, s.ending = some ending ∧ r = report ending := by
  have hmem : r ∈ polled.filter isEnding := List.mem_filter.mpr ⟨hr, hending⟩
  rw [h.endings] at hmem
  split at hmem
  · rename_i hreported
    obtain ⟨ending, hlatched, hreport⟩ := Option.map_eq_some_iff.mp (Option.mem_toList.mp hmem)
    exact ⟨hreported, ending, hlatched, hreport.symm⟩
  · exact absurd hmem (by simp)

theorem Answers.drained (hlog : Log polled u) (h : Answers u r t) (hending : isEnding r = true) :
    t.releases = [] ∧ t.next = none ∧ t.conn.conn.events = [] := by
  cases h with
  | @release event rest first =>
    obtain ⟨stream, bytes, delivered, rfl⟩ := hlog.queued first
    exact absurd hending (by simp [isEnding])
  | event held _ =>
    rw [(hlog.translated held).2.2] at hending
    cases hending
  | batch _ _ => cases hending
  | ending releases held drained _ _ _ => exact ⟨releases, held, drained⟩
  | idle _ _ _ => cases hending

theorem Answers.progress (h : Answers u .pending t)
    (hemitted : u.emittedSincePending = false) : t.ending = none ∨ t.reportedEnding = true := by
  generalize hr : Poll.pending = r at h
  cases h with
  | release _ => cases hr
  | event _ _ => cases hr
  | batch _ emitted => simp [emitted] at hemitted
  | @ending ending _ _ _ _ _ _ =>
    have hhands := (report_ends ending).2.2.1
    rw [← hr] at hhands
    cases hhands
  | idle _ _ quiet => exact quiet

end

/-- Over every run. A stream that closed and the ending are each the first thing returned since
the last `Pending`. What the layer below decoded is returned in its order, and so are the
releases; what is not returned yet is held back or queued. The ending is returned at most once,
as it was latched, and only behind everything decoded and every release; a poll behind a
`Pending` is not `Pending` again while it is owed, and once the layer below has ended, enough
polls return it. -/
theorem streamEndings_batched (fuel : ℕ) (ops : List (JoinOp σ)) (stream : β) (raw : ν) (role : Role)
    (readAhead : ℕ) :
    let start := Inner.new (Connection.new stream raw role readAhead)
    let s := (run (JoinOp.step fuel) ops start).2
    let polled := answers fuel ops start
    (∀ earlier r later, polled = earlier ++ r :: later → startsBatch r = true →
      earlier = [] ∨ earlier.getLast? = some .pending) ∧
    (polled.filterMap lowerEvent ++ s.next.toList ++
        s.conn.conn.events.filterMap (translate s.self) =
      s.conn.conn.raised.filterMap (translate s.self)) ∧
    polled.filterMap release ++ s.releases = s.recorded ∧
    (polled.filter isEnding).length ≤ 1 ∧
    (∀ r ∈ polled, isEnding r = true → ∃ ending, s.ending = some ending ∧ r = report ending) ∧
    (∀ (op : JoinOp σ) r, answer op (op.step fuel s).1 = some r → isEnding r = true →
      let t := (op.step fuel s).2
      polled.filterMap lowerEvent = t.conn.conn.raised.filterMap (translate t.self) ∧
        polled.filterMap release = t.recorded) ∧
    (∀ cx : Waker, polled = [] ∨ polled.getLast? = some .pending →
      let step := (JoinOp.pollEvent cx : JoinOp σ).step fuel s
      answer (.pollEvent cx : JoinOp σ) step.1 = some .pending →
        step.2.ending = none ∨ ∃ r ∈ polled, isEnding r = true) ∧
    ∀ cx : Waker, s.conn.terminal.isSome = true → ∃ n, ∀ later : List (JoinOp σ),
      ((answers fuel (ops ++ List.replicate n (.pollEvent cx) ++ later) start).filter
        isEnding).length = 1 := by
  intro start s polled
  have h : Log polled s := log_run fuel ops (.start stream raw role readAhead)
  refine ⟨?_, h.order, h.releases, h.ending_unique, fun r hr hending => (h.ending_report hr hending).2,
    ?_, ?_, ?_⟩
  · intro earlier r later hsplit hstarts
    refine first_of_batch (h.batched earlier r ⟨later, ?_⟩ hstarts)
    rw [hsplit, List.append_assoc]
    rfl
  · intro op r hanswer hending t
    have ht : Log (polled ++ [r]) t := by
      have hstep := log_step fuel op h
      rwa [hanswer] at hstep
    obtain ⟨hreleases, hnext, hevents⟩ : t.releases = [] ∧ t.next = none ∧ t.conn.conn.events = [] := by
      obtain ⟨cx, rfl⟩ := answer_polls hanswer
      obtain ⟨u, v, hprepares, hanswers, hend⟩ := step_answers fuel cx hanswer
      have hdrained := hanswers.drained (h.prepares hprepares) hending
      rwa [show t = v.wakeDeferred from hend]
    obtain ⟨hlower, hrelease⟩ := ending_carries_nothing hending
    have horder := ht.order
    have hrecorded := ht.releases
    rw [hnext, hevents, List.filterMap_append] at horder
    rw [hreleases, List.filterMap_append] at hrecorded
    simp only [List.filterMap_cons, List.filterMap_nil, hlower, hrelease, Option.toList_none,
      List.append_nil] at horder hrecorded
    exact ⟨horder, hrecorded⟩
  · intro cx hbatch step hanswer
    obtain ⟨u, v, hprepares, hanswers, hend⟩ := step_answers fuel cx hanswer
    have hu := h.prepares hprepares
    have hv := hu.answers hanswers
    rw [show step.2 = v.wakeDeferred from hend]
    rcases hanswers.progress (by rw [hu.batch, not_emitted hbatch]) with hnone | hreported
    · exact .inl hnone
    · -- the ending that was reported is among the answers before this one
      obtain ⟨ending, hlatched⟩ := Option.isSome_iff_exists.mp (hv.latched hreported)
      have hmem : report ending ∈ (polled ++ [Poll.pending]).filter isEnding := by
        rw [hv.endings, hreported, hlatched]
        exact List.mem_singleton.mpr rfl
      obtain ⟨hmem, hending⟩ := List.mem_filter.mp hmem
      rcases List.mem_append.mp hmem with hearlier | hlast
      · exact .inr ⟨_, hearlier, hending⟩
      · rw [List.mem_singleton.mp hlast] at hending
        cases hending
  · intro cx hterminal
    have hreturned : ∃ n, ∃ r ∈ polled ++ answers fuel (List.replicate n (.pollEvent cx : JoinOp σ)) s,
        isEnding r = true := by
      obtain ⟨error, hterminal⟩ := Option.isSome_iff_exists.mp hterminal
      cases hreported : s.reportedEnding with
      | true =>
        obtain ⟨ending, hlatched⟩ := Option.isSome_iff_exists.mp (h.latched hreported)
        have hmem : report ending ∈ polled.filter isEnding := by
          rw [h.endings, hreported, hlatched]
          exact List.mem_singleton.mpr rfl
        obtain ⟨hmem, hending⟩ := List.mem_filter.mp hmem
        exact ⟨0, _, List.mem_append_left _ hmem, hending⟩
      | false =>
        obtain ⟨r, hr, hending⟩ := ending_returned (σ := σ) fuel cx (owed s + 1)
          ⟨hterminal, hreported⟩ (Nat.lt_succ_self _)
        exact ⟨owed s + 1, r, List.mem_append_right _ hr, hending⟩
    obtain ⟨n, r, hr, hending⟩ := hreturned
    refine ⟨n, fun later => Nat.le_antisymm ?_ ?_⟩
    · exact (log_run fuel (ops ++ List.replicate n (.pollEvent cx) ++ later)
        (.start stream raw role readAhead)).ending_unique
    · refine List.length_pos_of_mem (List.mem_filter.mpr ⟨?_, hending⟩)
      rw [answers_append, answers_append]
      exact List.mem_append_left _ hr

end Runs

end Ngnet.QmuxHttp3Events
