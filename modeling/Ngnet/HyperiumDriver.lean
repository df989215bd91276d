import Ngnet.HyperiumSteps

/-!
# What the driver resolves with

The driver looks at the intent to close before it looks at the terminal. A failure that is latched
between two of its polls is therefore lost if a handle closes the connection before the next one:
the driver delivers the close and resolves with success. The close of an overload is marked as a
failure, and is lost only where its delivery fails. In every run in which neither happens, the
driver resolves with the classification that was latched first, and repeats it.
-/

namespace Ngnet.HyperiumDriver
open QmuxVarints QmuxCloseCodec QmuxErrors QmuxStreams StatefulPrograms QmuxRecordWriter QmuxConnection
open HyperiumCore Core HyperiumHandles HyperiumSteps Relation

variable {β ν : Type}

/-! ## What other sections leave of the ending -/

/-- The driver was not resolved, the first terminal stays, and a close is asked for only by an
overload. -/
structure Settles (c d : Core β ν) : Prop where
  complete : d.driverComplete = c.driverComplete
  error : d.driverError = c.driverError
  terminal : ∀ t, c.terminal = some t → d.terminal = some t
  close : d.close = c.close ∧ d.closeIsFailure = c.closeIsFailure ∨
    d.close.isSome = true ∧ d.closeIsFailure = true ∧ d.terminal.isSome = true

theorem Settles.refl (c : Core β ν) : Settles c c := ⟨rfl, rfl, fun _ h => h, .inl ⟨rfl, rfl⟩⟩

variable {c d : Core β ν}

theorem Settles.trans {e : Core β ν} (h : Settles c d) (h' : Settles d e) : Settles c e := by
  refine ⟨h'.complete.trans h.complete, h'.error.trans h.error, fun t ht => h'.terminal t (h.terminal t ht), ?_⟩
  rcases h'.close with ⟨hclose, hfailure⟩ | hnew
  · rw [hclose, hfailure]
    refine h.close.imp_right fun ⟨hd, hf, hsome⟩ => ⟨hd, hf, ?_⟩
    obtain ⟨t, ht⟩ := Option.isSome_iff_exists.mp hsome
    rw [h'.terminal t ht]
    rfl
  · exact .inr hnew

theorem settles_same (complete : d.driverComplete = c.driverComplete)
    (error : d.driverError = c.driverError) (terminal : d.terminal = c.terminal) (close : d.close = c.close)
    (failure : d.closeIsFailure = c.closeIsFailure) : Settles c d :=
  ⟨complete, error, fun _ h => terminal.trans h, .inl ⟨close, failure⟩⟩

theorem settles_fail (c : Core β ν) (terminal : ConnectionTerminal) : Settles c (c.fail terminal) := by
  refine ⟨fail_driverComplete c terminal, fail_driverError c terminal, fun t ht => ?_,
    .inl ⟨fail_close c terminal, fail_closeIsFailure c terminal⟩⟩
  rw [fail_terminal, ht]
  rfl

theorem settles_enqueue (c : Core β ν) (id : StreamId) : Settles c (c.enqueue id) := by
  obtain ⟨_, _, _, _, _, _, heq⟩ := enqueue_same c id
  rw [heq]
  exact settles_same rfl rfl rfl rfl rfl

theorem settles_met {id : StreamId} (met : Met c id d) : Settles c d := by
  rcases met with rfl | ⟨-, rfl⟩
  · exact .refl _
  · exact settles_enqueue c id

variable {sec : Section}

theorem step_ending (h : CoreStep sec c d) : Settles c d ∨
    (∃ code reason, sec = .close code reason ∧ d = c.requestClose code reason) ∨
    sec = .driver ∧ (c.terminal.isSome = true ∨ c.close.isSome = true) ∧ d.terminal = c.terminal := by
  cases h with
  | observed _ met =>
    left
    rcases met with rfl | ⟨id, -, met⟩
    · exact settles_same rfl rfl rfl rfl rfl
    · exact (settles_met met).trans (settles_same rfl rfl rfl rfl rfl)
  | arrived _ met _ _ _ => exact .inl ((settles_met met).trans (settles_same rfl rfl rfl rfl rfl))
  | failed _ terminal _ _ _ _ same =>
    left
    refine .trans ?_ (settles_fail _ terminal)
    rw [same]
    exact settles_same rfl rfl rfl rfl rfl
  | overloaded _ same =>
    have hclose (d : Core β ν) : d.overload.close.isSome = true ∧ d.overload.closeIsFailure = true ∧
        d.overload.terminal.isSome = true := by
      rw [overload, fail_close, fail_closeIsFailure, fail_terminal]
      refine ⟨?_, rfl, rfl⟩
      cases d.close <;> rfl
    refine .inl ⟨?_, ?_, fun t ht => ?_, .inr (hclose _)⟩
    · rw [overload, fail_driverComplete, same]
    · rw [overload, fail_driverError, same]
    · rw [overload, fail_terminal, same, ht]
      rfl
  | closed asked => exact .inr (.inl ⟨_, _, asked, rfl⟩)
  | @accepted kind _ _ _ _ _ _ => cases kind <;> exact .inl (settles_same rfl rfl rfl rfl rfl)
  | @panicked kind _ _ _ _ => cases kind <;> exact .inl (settles_same rfl rfl rfl rfl rfl)
  | resolved asked _ _ ended => exact .inr (.inr ⟨asked, ended, rfl⟩)
  | _ => exact .inl (settles_same rfl rfl rfl rfl rfl)

/-- The section is neither a close nor a poll of the driver. -/
def Neutral (sec : Section) : Prop := sec ≠ .driver ∧ ∀ code reason, sec ≠ .close code reason

theorem settles_steps (neutral : Neutral sec)
    (h : ReflTransGen (CoreStep sec) c d) : Settles c d := by
  induction h with
  | refl => exact .refl _
  | tail _ hstep ih =>
    rcases step_ending hstep with hsettles | ⟨code, reason, hsec, -⟩ | ⟨hsec, -⟩
    · exact ih.trans hsettles
    · exact absurd hsec (neutral.2 code reason)
    · exact absurd hsec neutral.1

/-! ## Stages of the ending -/

/-- Nothing has ended: no close was asked for and the driver has not resolved. -/
structure Running (c : Core β ν) : Prop where
  terminal : c.terminal = none
  close : c.close = none
  failure : c.closeIsFailure = false
  complete : c.driverComplete = false

/-- The connection failed with `t`: a close under way is the one of an overload, and the driver
has resolved with `t` if it has. -/
structure Failing (t : ConnectionTerminal) (c : Core β ν) : Prop where
  terminal : c.terminal = some t
  close : c.driverComplete = false → c.close = none ∧ c.closeIsFailure = false ∨
    c.close.isSome = true ∧ c.closeIsFailure = true
  done : c.driverComplete = true → c.driverError = some t.driverError

theorem Failing.settles {t : ConnectionTerminal} (h : Failing t c) (hcd : Settles c d) :
    Failing t d := by
  refine ⟨hcd.terminal t h.terminal, fun hcomplete => ?_, fun hcomplete => ?_⟩
  · rw [hcd.complete] at hcomplete
    rcases hcd.close with ⟨hclose, hfailure⟩ | hnew
    · rw [hclose, hfailure]
      exact h.close hcomplete
    · exact .inr ⟨hnew.1, hnew.2.1⟩
  · rw [hcd.complete] at hcomplete
    rw [hcd.error]
    exact h.done hcomplete

theorem Running.settles {t : ConnectionTerminal} (h : Running c) (hcd : Settles c d)
    (hd : d.terminal = some t) : Failing t d := by
  refine ⟨hd, fun _ => ?_, fun hcomplete => ?_⟩
  · rcases hcd.close with ⟨hclose, hfailure⟩ | hnew
    · exact .inl ⟨hclose.trans h.close, hfailure.trans h.failure⟩
    · exact .inr ⟨hnew.1, hnew.2.1⟩
  · rw [hcd.complete, h.complete] at hcomplete
    cases hcomplete

/-- While there is no terminal, nothing has ended. -/
def Honest (c : Core β ν) : Prop := c.terminal = none → Running c

theorem honest_step (h : CoreStep sec c d) (hc : Honest c) : Honest d := by
  intro hlive
  have hrunning := hc (live_before h hlive)
  rcases step_ending h with hsettles | ⟨code, reason, -, rfl⟩ | ⟨-, hended, -⟩
  · rcases hsettles.close with ⟨hclose, hfailure⟩ | ⟨-, -, hsome⟩
    · exact ⟨hlive, hclose.trans hrunning.close, hfailure.trans hrunning.failure,
        hsettles.complete.trans hrunning.complete⟩
    · rw [hlive] at hsome
      cases hsome
  · rw [requestClose, hrunning.close] at hlive
    cases (fail_terminal _ _).symm.trans hlive
  · rw [hrunning.terminal, hrunning.close] at hended
    rcases hended with h | h <;> cases h

/-! ## Polls of the driver -/

section Polls
variable [Dwnx ν] [AsyncByteStream β] {t : ConnectionTerminal} {c : Core β ν}

/-- The section asks for no close on a core that failed, and delivers the close of an overload
without a failure below. -/
structure Undisturbed (fuel : ℕ) (sec : Section) (c : Core β ν) : Prop where
  close : ∀ code reason, sec = .close code reason →
    c.terminal = none ∨ c.close.isSome = true ∨ c.driverComplete = true
  delivery : sec = .driver → c.driverComplete = false → c.closeIsFailure = true →
    ∀ reason, c.close = some reason → ∀ error,
      (outcome (pollClose fuel lowerWaker reason) c.lower).1 ≠ .error (.failed error)

omit [Dwnx ν] [AsyncByteStream β] in
theorem complete_failing (h : c.terminal = some t) :
    Ensures (complete t.driverError) c
      (fun r d => Failing t d ∧ r = .ready (.error t.driverError) ∧ d.driverComplete = true)
      fun _ _ => False := by
  rw [complete, ensures_modify, ensures_pure]
  exact ⟨⟨h, nofun, fun _ => rfl⟩, rfl, rfl⟩

theorem driveClose_failing (fuel : ℕ) {reason : CloseReason} (h : Failing t c)
    (hcomplete : c.driverComplete = false) (hclose : c.close = some reason)
    (delivery : c.closeIsFailure = true → ∀ error,
      (outcome (pollClose fuel lowerWaker reason) c.lower).1 ≠ .error (.failed error)) :
    Ensures (driveClose fuel reason) c
      (fun r d => Failing t d ∧ (r = .ready (.error t.driverError) ∧ d.driverComplete = true ∨ r = .pending))
      fun e d => e = .outOfFuel ∧ Failing t d := by
  have hfailure : c.closeIsFailure = true := by
    rcases h.close hcomplete with ⟨hnone, -⟩ | ⟨-, hfailure⟩
    · rw [hclose] at hnone
      cases hnone
    · exact hfailure
  have hkept (l : Connection β ν) : Failing t { c with lower := l } := ⟨h.terminal, h.close, h.done⟩
  have hquiet := delivery hfailure
  rw [driveClose, ensures_bind, lowerCall, ensures_within, ensures_attempt]
  rw [outcome] at hquiet
  cases hm : pollClose fuel lowerWaker reason c.lower with
  | ok poll l =>
    rw [ensures_of_ok hm]
    cases poll with
    | pending => exact ensures_pure.mpr ⟨hkept l, .inr rfl⟩
    | ready _ =>
      dsimp only
      rw [ensures_modify, ensures_get, if_pos hfailure]
      simp only [h.terminal]
      refine Ensures.mono (complete_failing rfl) ?_ fun _ _ => False.elim
      intro r d hd
      exact ⟨hd.1, .inl hd.2⟩
  | error e l =>
    rw [ensures_of_error hm]
    cases e with
    | failed error =>
      rw [hm] at hquiet
      exact absurd rfl (hquiet error)
    | outOfFuel => exact ⟨rfl, hkept l⟩

theorem driveTurn_ended (fuel : ℕ) (h : c.terminal = some t) : driveTurn fuel c = .ok () c := by
  rw [driveTurn, bind_ok get_apply, if_pos (by rw [h]; rfl)]
  rfl

/-- A poll of the driver on a core that failed: it resolves with that failure, unless the close of
an overload is still being delivered. -/
theorem pollDriver_failing (fuel : ℕ) (h : Failing t c) (undisturbed : Undisturbed fuel .driver c) :
    Ensures (pollDriver fuel) c
      (fun r d => Failing t d ∧ (r = .ready (.error t.driverError) ∧ d.driverComplete = true ∨
        r = .pending ∧ c.driverComplete = false ∧ c.close.isSome = true))
      fun e d => e = .outOfFuel ∧ Failing t d ∧ c.driverComplete = false ∧ c.close.isSome = true := by
  rw [pollDriver, ensures_get]
  cases hcomplete : c.driverComplete with
  | true =>
    rw [if_pos rfl, h.done hcomplete]
    exact ensures_pure.mpr ⟨h, .inl ⟨rfl, hcomplete⟩⟩
  | false =>
    rw [if_neg (by simp)]
    cases hclose : c.close with
    | some reason =>
      have hdriven := driveClose_failing fuel h hcomplete hclose
        fun hfailure => undisturbed.delivery rfl hcomplete hfailure reason hclose
      refine Ensures.mono hdriven ?_ fun e d he => ⟨he.1, he.2, rfl, rfl⟩
      intro r d hd
      exact ⟨hd.1, hd.2.imp_right fun hr => ⟨hr, rfl, rfl⟩⟩
    | none =>
      rw [driveEvents, ensures_bind, ensures_of_ok (driveTurn_ended fuel h.terminal), ensures_get]
      simp only [h.terminal, hclose, Option.isSome_none, Bool.false_and]
      refine Ensures.mono (complete_failing h.terminal) ?_ fun _ _ => False.elim
      intro r d hd
      exact ⟨hd.1, .inl hd.2⟩

/-- What a poll leaves of a core that had not ended: it resolves over a failure that it latched. -/
structure Polled (r : Poll (Except AdapterError Unit)) (d : Core β ν) : Prop where
  live : d.terminal = none → r = .pending
  failed : ∀ t, d.terminal = some t → Failing t d ∧
    (r = .pending ∨ r = .ready (.error t.driverError) ∧ d.driverComplete = true)

omit [Dwnx ν] [AsyncByteStream β] in
theorem pumpFailed_running (terminal : ConnectionTerminal) (h : Running c) :
    Ensures (do
      modify (·.fail terminal)
      complete terminal.driverError) c (fun r d => Polled r d) fun _ d => ∀ t, d.terminal = some t → Failing t d := by
  have hterminal : (c.fail terminal).terminal = some terminal := by
    rw [fail_terminal, h.terminal]
    rfl
  rw [ensures_modify]
  refine Ensures.mono (complete_failing hterminal) ?_ fun _ _ => False.elim
  rintro r d ⟨hd, hr⟩
  refine ⟨fun hnone => ?_, fun t ht => ?_⟩
  · rw [hd.terminal] at hnone
    cases hnone
  · cases hd.terminal.symm.trans ht
    exact ⟨hd, .inr hr⟩

theorem drivePump_running (fuel : ℕ) (h : Running c) :
    Ensures (drivePump fuel) c (fun r d => Polled r d) fun _ d => ∀ t, d.terminal = some t → Failing t d := by
  rw [drivePump, ensures_get, ensures_bind, lowerCall, ensures_within, ensures_attempt]
  have hwoken (l : Connection β ν) (d : Core β ν) (hd : d = { c with lower := l }) : Running
      (if d.lower.out.filled < c.lower.out.filled then d.wakeOutputSenders else d) := by
    subst hd
    split
    · exact ⟨h.terminal, h.close, h.failure, h.complete⟩
    · exact ⟨h.terminal, h.close, h.failure, h.complete⟩
  cases hm : pollPump fuel lowerWaker c.lower with
  | ok poll l =>
    rw [ensures_of_ok hm, ensures_modify]
    apply ensures_pure.mpr
    have hlive := (hwoken l _ rfl).terminal
    exact ⟨fun _ => rfl, fun t ht => by rw [hlive] at ht; cases ht⟩
  | error e l =>
    rw [ensures_of_error hm]
    cases e with
    | failed error =>
      dsimp only
      rw [ensures_modify]
      exact pumpFailed_running _ (hwoken l _ rfl)
    | outOfFuel =>
      intro t ht
      change c.terminal = some t at ht
      rw [h.terminal] at ht
      cases ht

theorem driveEvents_running (fuel : ℕ) (h : Running c) :
    Ensures (driveEvents fuel) c (fun r d => Polled r d) fun _ d => ∀ t, d.terminal = some t → Failing t d := by
  have hneutral : Neutral (.sendGuard ⟨0, by decide⟩) := ⟨nofun, nofun⟩
  have hturn : Acts (.sendGuard ⟨0, by decide⟩) False (driveTurn fuel) c fun _ _ => True := driveTurn_acts fuel
  rw [driveEvents, ensures_bind]
  refine Ensures.mono hturn ?_ ?_
  · rintro _ d ⟨hsteps, -⟩
    have hsettles := settles_steps hneutral hsteps
    have hhonest : Honest d :=
      invariant_of_steps (I := Honest) (fun _ _ => honest_step) hsteps fun _ => h
    rw [ensures_get]
    cases hterminal : d.terminal with
    | some terminal =>
      dsimp only
      have hfailing := h.settles hsettles hterminal
      split
      · rw [ensures_modify, ensures_pure]
        refine ⟨fun _ => rfl, fun t ht => ?_⟩
        cases hterminal.symm.trans ht
        exact ⟨⟨hterminal, hfailing.close, hfailing.done⟩, .inl rfl⟩
      · refine Ensures.mono (complete_failing hterminal) ?_ fun _ _ => False.elim
        rintro r e ⟨he, hr⟩
        refine ⟨fun hnone => ?_, fun t ht => ?_⟩
        · rw [he.terminal] at hnone
          cases hnone
        · cases he.terminal.symm.trans ht
          exact ⟨he, .inr hr⟩
    | none =>
      dsimp only
      split
      · refine ensures_pure.mpr ⟨fun _ => rfl, fun t ht => ?_⟩
        rw [hterminal] at ht
        cases ht
      · exact drivePump_running fuel (hhonest hterminal)
  · rintro e d ⟨-, hsteps⟩ t ht
    exact h.settles (settles_steps hneutral hsteps) ht

theorem pollDriver_running (fuel : ℕ) (h : Running c) :
    Ensures (pollDriver fuel) c (fun r d => Polled r d) fun _ d => ∀ t, d.terminal = some t → Failing t d := by
  rw [pollDriver, ensures_get, h.complete, h.close]
  exact driveEvents_running fuel h

end Polls

/-! ## Sections -/

section Sections
variable [Dwnx ν] [AsyncByteStream β] {t : ConnectionTerminal} {c : Core β ν}

theorem step_of_ok (fuel : ℕ) {r : Poll (Except AdapterError Unit)} {d : Core β ν}
    (h : pollDriver fuel { c with effects := {} } = .ok r d) :
    Section.driver.step fuel c = (.ok (.driver r), d) := by
  have hrun : (Section.driver.program fuel : CoreM β ν SectionResult) { c with effects := {} } =
      .ok (.driver r) d := bind_ok (f := fun r => pure (SectionResult.driver r)) h
  rw [Section.step, outcome, hrun]

theorem step_of_error (fuel : ℕ) {e : Halt Panic} {d : Core β ν}
    (h : pollDriver fuel { c with effects := {} } = .error e d) : Section.driver.step fuel c = (.error e, d) := by
  have hrun : (Section.driver.program fuel : CoreM β ν SectionResult) { c with effects := {} } = .error e d :=
    bind_error (f := fun r => pure (SectionResult.driver r)) h
  rw [Section.step, outcome, hrun]

theorem neutral_or (sec : Section) : Neutral sec ∨ sec = .driver ∨ ∃ code reason, sec = .close code reason := by
  by_cases hdriver : sec = .driver
  · exact .inr (.inl hdriver)
  by_cases hclose : ∃ code reason, sec = .close code reason
  · exact .inr (.inr hclose)
  · exact .inl ⟨hdriver, fun code reason heq => hclose ⟨code, reason, heq⟩⟩

theorem driver_failing (fuel : ℕ) (h : Failing t c) (undisturbed : Undisturbed fuel .driver c) :
    Failing t (Section.driver.step fuel c).2 ∧
    ((Section.driver.step fuel c).1 = .ok (.driver (.ready (.error t.driverError))) ∧
        (Section.driver.step fuel c).2.driverComplete = true ∨
      (∀ r, (Section.driver.step fuel c).1 ≠ .ok (.driver (.ready r))) ∧
        c.driverComplete = false ∧ c.close.isSome = true) := by
  have hstart : Failing t { c with effects := {} } := ⟨h.terminal, h.close, h.done⟩
  have hquiet : Undisturbed fuel .driver { c with effects := {} } := ⟨undisturbed.close, undisturbed.delivery⟩
  rcases (pollDriver_failing fuel hstart hquiet).cases with ⟨r, d, hrun, hd, hr⟩ | ⟨e, d, hrun, rfl, hd, hwhy⟩
  · rw [step_of_ok fuel hrun]
    refine ⟨hd, ?_⟩
    rcases hr with ⟨rfl, hcomplete⟩ | ⟨rfl, hwhy⟩
    · exact .inl ⟨rfl, hcomplete⟩
    · exact .inr ⟨nofun, hwhy⟩
  · rw [step_of_error fuel hrun]
    exact ⟨hd, .inr ⟨nofun, hwhy⟩⟩

theorem driver_running (fuel : ℕ) (h : Running c) (latched : (Section.driver.step fuel c).2.terminal = some t) :
    Failing t (Section.driver.step fuel c).2 ∧
    ∀ r, (Section.driver.step fuel c).1 = .ok (.driver (.ready r)) →
      r = .error t.driverError ∧ (Section.driver.step fuel c).2.driverComplete = true := by
  have hstart : Running { c with effects := {} } := ⟨h.terminal, h.close, h.failure, h.complete⟩
  rcases (pollDriver_running fuel hstart).cases with ⟨r, d, hrun, hd⟩ | ⟨e, d, hrun, hd⟩
  · rw [step_of_ok fuel hrun] at latched ⊢
    obtain ⟨hfailing, hr⟩ := hd.failed t latched
    refine ⟨hfailing, ?_⟩
    rintro r' heq
    cases heq
    rcases hr with heq | ⟨heq, hcomplete⟩
    · cases heq
    · cases heq
      exact ⟨rfl, hcomplete⟩
  · rw [step_of_error fuel hrun] at latched ⊢
    exact ⟨hd t latched, nofun⟩

theorem close_step (fuel code : ℕ) (reason : Bytes) :
    ((Section.close code reason).step fuel c).2 = { c with effects := {} }.requestClose code reason := rfl

theorem failing_section (fuel : ℕ) (sec : Section) (h : Failing t c) (undisturbed : Undisturbed fuel sec c) :
    Failing t (sec.step fuel c).2 := by
  rcases neutral_or sec with hneutral | rfl | ⟨code, reason, rfl⟩
  · exact h.settles (settles_steps hneutral (step_steps fuel sec c).1)
  · exact (driver_failing fuel h undisturbed).1
  · rw [close_step, requestClose]
    split
    · exact ⟨h.terminal, h.close, h.done⟩
    · rename_i hclose
      -- the close is asked for behind the resolution of the driver
      have hcomplete : c.driverComplete = true := by
        rcases undisturbed.close code reason rfl with hnone | hsome | hcomplete
        · rw [h.terminal] at hnone
          cases hnone
        · exact absurd hsome hclose
        · exact hcomplete
      refine ⟨?_, fun hopen => ?_, fun _ => ?_⟩
      · rw [fail_terminal]
        show some (c.terminal.getD _) = some t
        rw [h.terminal]
        rfl
      · rw [fail_driverComplete] at hopen
        cases hcomplete.symm.trans hopen
      · rw [fail_driverError]
        exact h.done hcomplete

theorem complete_section (fuel : ℕ) (sec : Section) (h : Failing t c) (undisturbed : Undisturbed fuel sec c)
    (hcomplete : c.driverComplete = true) : (sec.step fuel c).2.driverComplete = true := by
  rcases neutral_or sec with hneutral | rfl | ⟨code, reason, rfl⟩
  · rw [(settles_steps hneutral (step_steps fuel sec c).1).complete]
    exact hcomplete
  · rcases (driver_failing fuel h undisturbed).2 with ⟨-, hdone⟩ | ⟨-, hopen, -⟩
    · exact hdone
    · rw [hcomplete] at hopen
      cases hopen
  · rw [close_step, requestClose]
    split
    · exact hcomplete
    · rw [fail_driverComplete]
      exact hcomplete

end Sections

/-! ## Runs -/

section Runs
variable [Dwnx ν] [AsyncByteStream β] {t : ConnectionTerminal}

/-- The core that a run of sections reaches. -/
def reached (fuel : ℕ) (secs : List Section) (c : Core β ν) : Core β ν := (run (Section.step fuel) secs c).2

/-- What a poll of the driver answers. -/
def polled (fuel : ℕ) (c : Core β ν) : Except (Halt Panic) SectionResult := (Section.driver.step fuel c).1

theorem reached_append (fuel : ℕ) (secs more : List Section) (c : Core β ν) :
    reached fuel (secs ++ more) c = reached fuel more (reached fuel secs c) := run_append _ _ _ _

/-- Every section of the run finds a core that it does not disturb. -/
def Calm (fuel : ℕ) (secs : List Section) (c : Core β ν) : Prop :=
  ∀ before sec after, secs = before ++ sec :: after → Undisturbed fuel sec (reached fuel before c)

variable {fuel : ℕ} {rest : List Section} {c : Core β ν}

theorem Calm.head {sec : Section}
    (h : Calm fuel (sec :: rest) c) : Undisturbed fuel sec c := h [] sec rest rfl

theorem Calm.tail {sec : Section}
    (h : Calm fuel (sec :: rest) c) : Calm fuel rest (sec.step fuel c).2 := by
  rintro before next after rfl
  exact h (sec :: before) next after rfl

variable {secs : List Section}

theorem Calm.behind {more : List Section} (h : Calm fuel (secs ++ more) c) :
    Calm fuel more (reached fuel secs c) := by
  rintro before next after rfl
  rw [← reached_append]
  exact h (secs ++ before) next after (by simp)

theorem Calm.before {more : List Section} (h : Calm fuel (secs ++ more) c) :
    Calm fuel secs c := by
  rintro before next after rfl
  exact h before next (after ++ more) (by simp)

theorem failing_run (fuel : ℕ) (secs : List Section) : ∀ c : Core β ν, Failing t c → Calm fuel secs c →
    Failing t (reached fuel secs c) ∧
      (c.driverComplete = true → (reached fuel secs c).driverComplete = true) := by
  induction secs with
  | nil => intro c h _; exact ⟨h, fun h => h⟩
  | cons sec rest ih =>
    intro c h hcalm
    obtain ⟨hlast, hdone⟩ := ih _ (failing_section fuel sec h hcalm.head) hcalm.tail
    exact ⟨hlast, fun hcomplete => hdone (complete_section fuel sec h hcalm.head hcomplete)⟩

omit [Dwnx ν] [AsyncByteStream β] in
theorem honest_new (lower : Connection β ν) (limit : ℕ) : Honest (Core.new lower limit) :=
  fun _ => ⟨rfl, rfl, rfl, rfl⟩

theorem honest_run (fuel : ℕ) (secs : List Section) (c : Core β ν) (h : Honest c) :
    Honest (reached fuel secs c) :=
  run_invariant (I := Honest) (fun sec c hc => invariant_of_steps (I := Honest) (fun _ _ => honest_step)
    (step_steps fuel sec c).1 hc) secs h

theorem failing_latched (fuel : ℕ) (sec : Section) (h : Running c)
    (cause : ∀ code reason, sec ≠ .close code reason) (latched : (sec.step fuel c).2.terminal = some t) :
    Failing t (sec.step fuel c).2 := by
  rcases neutral_or sec with hneutral | rfl | ⟨code, reason, rfl⟩
  · exact h.settles (settles_steps hneutral (step_steps fuel sec c).1) latched
  · exact (driver_running fuel h latched).1
  · exact absurd rfl (cause code reason)

theorem failing_polls (fuel : ℕ) {mid : List Section} (h : Failing t c)
    (calm : Calm fuel secs c) (hsplit : secs = mid ++ .driver :: rest) :
    (∀ r, polled fuel (reached fuel mid c) = .ok (.driver (.ready r)) → r = .error t.driverError) ∧
    ((reached fuel mid c).close = none ∨ (reached fuel mid c).driverComplete = true →
      polled fuel (reached fuel mid c) = .ok (.driver (.ready (.error t.driverError)))) ∧
    ((∃ r, polled fuel (reached fuel mid c) = .ok (.driver (.ready r))) →
      (reached fuel (mid ++ [.driver]) c).driverComplete = true) := by
  subst hsplit
  obtain ⟨hmid, -⟩ := failing_run fuel mid c h calm.before
  rw [reached_append]
  rcases (driver_failing fuel hmid calm.behind.head).2 with ⟨hready, hcomplete⟩ | ⟨hpending, hopen, hclose⟩
  · refine ⟨fun r hr => ?_, fun _ => hready, fun _ => hcomplete⟩
    cases hready.symm.trans hr
    rfl
  · refine ⟨fun r hr => absurd hr (hpending r), fun hwhy => ?_, fun hr => ?_⟩
    · rcases hwhy with hnone | hdone
      · rw [hnone] at hclose
        cases hclose
      · rw [hopen] at hdone
        cases hdone
    · obtain ⟨r, hr⟩ := hr
      exact absurd hr (hpending r)

/-- In every run that disturbs no failure: behind a first terminal that no close latched, every
poll of the driver that is ready answers with that terminal; without an overload close under way
it is ready at once; and once it was ready, it answers the same again. -/
theorem driver_reports_first_terminal (lower : Connection β ν) (limit fuel : ℕ) (before : List Section)
    (sec : Section) (after : List Section)
    (calm : Calm fuel (before ++ sec :: after) (Core.new lower limit))
    (cause : ∀ code reason, sec ≠ .close code reason)
    (running : (reached fuel before (Core.new lower limit)).terminal = none)
    (latched : (reached fuel (before ++ [sec]) (Core.new lower limit)).terminal = some t) :
    (∀ mid rest, sec :: after = mid ++ .driver :: rest →
      ∀ r, polled fuel (reached fuel (before ++ mid) (Core.new lower limit)) = .ok (.driver (.ready r)) →
        r = .error t.driverError) ∧
    (∀ mid rest, after = mid ++ .driver :: rest →
      (reached fuel (before ++ sec :: mid) (Core.new lower limit)).close = none →
        polled fuel (reached fuel (before ++ sec :: mid) (Core.new lower limit)) =
          .ok (.driver (.ready (.error t.driverError)))) ∧
    (∀ mid mid' rest, sec :: after = mid ++ .driver :: (mid' ++ .driver :: rest) →
      ∀ r, polled fuel (reached fuel (before ++ mid) (Core.new lower limit)) = .ok (.driver (.ready r)) →
        polled fuel (reached fuel (before ++ mid ++ .driver :: mid') (Core.new lower limit)) =
          .ok (.driver (.ready r))) := by
  have hrunning : Running (reached fuel before (Core.new lower limit)) :=
    honest_run fuel before _ (honest_new lower limit) running
  have hcalm := calm.behind
  rw [reached_append] at latched
  simp only [reached_append]
  generalize reached fuel before (Core.new lower limit) = c at hrunning hcalm latched ⊢
  have hfailing : Failing t (sec.step fuel c).2 := failing_latched fuel sec hrunning cause latched
  -- the poll that latched the terminal, or one behind it
  have hpoll (mid rest : List Section) (hsplit : sec :: after = mid ++ .driver :: rest)
      (r : Except AdapterError Unit) (hr : polled fuel (reached fuel mid c) = .ok (.driver (.ready r))) :
      r = .error t.driverError ∧ Failing t (reached fuel (mid ++ [.driver]) c) ∧
        (reached fuel (mid ++ [.driver]) c).driverComplete = true := by
    cases mid with
    | nil =>
      obtain ⟨rfl, rfl⟩ := List.cons.inj hsplit
      obtain ⟨hlast, hready⟩ := driver_running fuel hrunning latched
      exact ⟨(hready r hr).1, hlast, (hready r hr).2⟩
    | cons next mid =>
      rw [List.cons_append] at hsplit
      obtain ⟨rfl, hafter⟩ := List.cons.inj hsplit
      obtain ⟨hwhich, -, hdone⟩ := failing_polls fuel hfailing hcalm.tail hafter
      refine ⟨hwhich r hr, ?_, hdone ⟨r, hr⟩⟩
      refine (failing_run fuel (mid ++ [.driver]) _ hfailing ?_).1
      have htail := hcalm.tail
      rw [hafter, show mid ++ Section.driver :: rest = mid ++ [.driver] ++ rest by simp] at htail
      exact htail.before
  refine ⟨fun mid rest hsplit r hr => (hpoll mid rest hsplit r hr).1, fun mid rest hsplit hclose => ?_,
    fun mid mid' rest hsplit r hr => ?_⟩
  · exact (failing_polls fuel hfailing hcalm.tail hsplit).2.1 (.inl hclose)
  · obtain ⟨rfl, hlast, hcomplete⟩ := hpoll mid _ hsplit r hr
    have hmore : Calm fuel (mid' ++ .driver :: rest) (reached fuel (mid ++ [.driver]) c) := by
      rw [hsplit, show mid ++ Section.driver :: (mid' ++ .driver :: rest) =
        mid ++ [.driver] ++ (mid' ++ .driver :: rest) by simp] at hcalm
      exact hcalm.behind
    have hdone := (failing_run fuel mid' _ hlast hmore.before).2 hcomplete
    have hagain := (failing_polls fuel hlast hmore rfl).2.1 (.inr hdone)
    rw [reached_append] at hagain
    exact hagain

end Runs

/-! ## A failure that is lost -/

/-- A stream whose first write fails below. -/
def failing : Connection ScriptedStream ScriptedDwnx :=
  .new { writes := [.ready (.ok (.accepted 100))], shutdowns := [.ready (.ok ())] }
    { opens := [.opened ⟨2, two_le_maxVarint⟩], writevs := [⟨.failed .internal, none⟩] } .client 100

/-- The write of a handle fails the connection. -/
def failedWrite : List Section :=
  [.openStream 0 .uni 1, .sendData ⟨2, two_le_maxVarint⟩ ⟨[[1]]⟩, .sendCheck ⟨2, two_le_maxVarint⟩, .retainedTurn ⟨2, two_le_maxVarint⟩ 1]

/-- What the failed write latches. -/
def serialisation : ConnectionTerminal := .undefined (serialiseError .internal)

/-- The driver reports the failed write, twice. -/
theorem driver_reports_failed_write :
    polled 9 (reached 9 failedWrite (Core.new failing 4)) =
        .ok (.driver (.ready (.error serialisation.driverError))) ∧
      polled 9 (reached 9 (failedWrite ++ [.driver]) (Core.new failing 4)) =
        .ok (.driver (.ready (.error serialisation.driverError))) := by
  have hcalm : Calm 9 (failedWrite.take 3 ++ .retainedTurn ⟨2, by decide⟩ 1 :: [.driver, .driver])
      (Core.new failing 4) := by
    intro before sec after hsplit
    have hclose : ∀ n < 6, (reached 9 ((failedWrite ++ [Section.driver, Section.driver]).take n) (Core.new failing 4)).close = none := by
      decide +kernel
    have hbefore : (reached 9 before (Core.new failing 4)).close = none := by
      have hlen : before.length < 6 := by
        have hlength := congrArg List.length hsplit
        simp [failedWrite] at hlength
        omega
      have htake : before = (failedWrite ++ [Section.driver, Section.driver]).take before.length := by
        rw [show failedWrite ++ [Section.driver, Section.driver] = before ++ sec :: after from hsplit]
        simp
      rw [htake]
      exact hclose _ hlen
    constructor
    · rintro code reason rfl
      have hmem : Section.close code reason ∈ failedWrite ++ [.driver, .driver] := by
        rw [show failedWrite ++ [Section.driver, Section.driver] =
            before ++ Section.close code reason :: after from hsplit]
        simp
      simp [failedWrite] at hmem
    · intro _ _ _ reason hreason
      rw [hbefore] at hreason
      cases hreason
  obtain ⟨-, hnow, hagain⟩ := driver_reports_first_terminal (t := serialisation) failing 4 9 (failedWrite.take 3)
    (.retainedTurn ⟨2, by decide⟩ 1) [.driver, .driver] hcalm nofun (by decide +kernel) (by decide +kernel)
  have hfirst := hnow [] [.driver] rfl (by decide +kernel)
  exact ⟨hfirst, hagain [.retainedTurn ⟨2, by decide⟩ 1] [] [] rfl _ hfirst⟩

/-- A handle closes the connection behind the failed write, and the driver resolves with success. -/
theorem failure_lost_behind_close :
    (reached 9 (failedWrite.take 3) (Core.new failing 4)).terminal = none ∧
      (reached 9 failedWrite (Core.new failing 4)).terminal = some serialisation ∧
      ¬ ∀ r, polled 9 (reached 9 (failedWrite ++ [.close 0 []]) (Core.new failing 4)) = .ok (.driver (.ready r)) →
        r = .error serialisation.driverError := by
  have hlost : polled 9 (reached 9 (failedWrite ++ [.close 0 []]) (Core.new failing 4)) =
      .ok (.driver (.ready (.ok ()))) := by decide +kernel
  refine ⟨by decide +kernel, by decide +kernel, fun h => ?_⟩
  cases h _ hlost

end Ngnet.HyperiumDriver
