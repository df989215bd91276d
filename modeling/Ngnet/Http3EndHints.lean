import Ngnet.Histories
import Ngnet.Http3Conn

/-!
# What a received body says about its end

`IncomingBody::is_end_stream` of `http/body/incoming.rs`, over the receiving side of `http/shared.rs`. A message is
submitted with a body only if the hint of its body does not say that it has ended (`has_body` in `http/client.rs`
and `http/server.rs`), which is where the hint of a body that was received and is passed on decides what is sent.
-/

namespace Ngnet.Http3EndHints
open QmuxVarints Http3Heads Http3Handles Http3Conn Histories

/-! ## Hints -/

/-- `IncomingBody::is_end_stream`. -/
def isEndStream (incoming : Incoming) : Bool := incoming.finished

/-- A received body as the body of another message; what its pulls will gather is left open. -/
def passedOn (incoming : Incoming) (pulls : ℕ → List Bytes × Stop) : CallerBody := ⟨pulls, isEndStream incoming⟩

/-- The source that a message is submitted with. -/
def source (body : CallerBody) (ending : ℕ) : Option Outgoing :=
  if body.isEndStream then none else some (Outgoing.new body ending)

/-! ## Receiving and reading -/

/-- What the driver and the reader do with the receiving side. -/
inductive Event
  | push (chunk : Bytes)
  | setTrailers (fields : HeaderMap)
  | finish
  | fail (error : Error)
  | poll
  deriving DecidableEq, Repr

def step (incoming : Incoming) : Event → Incoming
  | .push chunk => incoming.push chunk
  | .setTrailers fields => incoming.setTrailers fields
  | .finish => incoming.finish
  | .fail error => incoming.fail error
  | .poll => incoming.poll.2

def received (events : List Event) : Incoming := events.foldl step {}

theorem received_concat (events : List Event) (event : Event) :
    received (events ++ [event]) = step (received events) event := by
  simp [received]

theorem abandoned_received (events : List Event) : (received events).abandoned = false := by
  induction events using List.reverseRecOn with
  | nil => rfl
  | append_singleton events event ih =>
    rw [received_concat]
    generalize received events = incoming at ih ⊢
    cases event with
    | push chunk =>
      simp only [step, Incoming.push]
      split <;> exact ih
    | setTrailers fields =>
      simp only [step, Incoming.setTrailers]
      split <;> exact ih
    | finish => exact ih
    | fail error =>
      simp only [step, Incoming.fail]
      split <;> exact ih
    | poll =>
      simp only [step, Incoming.poll, Incoming.take]
      split <;> try exact ih
      split <;> exact ih

/-! ## Sound hints -/

/-- No chunk, trailers or failure waits to be read. -/
structure Drained (incoming : Incoming) : Prop where
  chunks : incoming.chunks = []
  trailers : incoming.trailers = none
  failure : incoming.failure = none

/-- The hint says that the body has ended only where the next poll says so too, and only where a message that the body
is passed on with loses nothing of it. -/
structure HintSound (incoming : Incoming) : Prop where
  ended : isEndStream incoming = true → incoming.poll.1 = .finished
  passed : ∀ pulls ending, source (passedOn incoming pulls) ending = none → incoming.unread = 0 ∧ Drained incoming

theorem poll_finished_iff {incoming : Incoming} :
    incoming.poll.1 = .finished ↔ incoming.finished = true ∧ Drained incoming := by
  constructor
  · intro h
    simp only [Incoming.poll, Incoming.take] at h
    split at h
    · cases h
    · cases h
    · cases h
    · rename_i hchunks htrailers hfailure
      split at h
      · rename_i hfinished
        exact ⟨hfinished, hchunks, htrailers, hfailure⟩
      · cases h
  · rintro ⟨hfinished, hchunks, htrailers, hfailure⟩
    simp [Incoming.poll, Incoming.take, hchunks, htrailers, hfailure, hfinished]

theorem source_eq_none_iff {body : CallerBody} {ending : ℕ} : source body ending = none ↔ body.isEndStream = true := by
  simp [source]

theorem hintSound_iff {incoming : Incoming} : HintSound incoming ↔ (incoming.finished = true → Drained incoming) := by
  constructor
  · intro h hfinished
    exact (poll_finished_iff.mp (h.ended hfinished)).2
  · intro h
    constructor
    · intro hended
      exact poll_finished_iff.mpr ⟨hended, h hended⟩
    · intro pulls ending hnone
      have hdrained := h (source_eq_none_iff.mp hnone)
      exact ⟨by simp [Incoming.unread, hdrained.chunks], hdrained⟩

/-! ## Ending in time -/

/-- The end comes when everything before it has been read, and nothing comes behind it. -/
def InTime (incoming : Incoming) : Event → Prop
  | .push chunk => incoming.finished = true → chunk = []
  | .setTrailers _ => incoming.finished = false
  | .finish => Drained incoming
  | .fail _ | .poll => True

theorem hintSound_step {incoming : Incoming} (h : HintSound incoming) (habandoned : incoming.abandoned = false)
    (event : Event) : HintSound (step incoming event) ↔ InTime incoming event := by
  rw [hintSound_iff] at h ⊢
  cases event with
  | push chunk =>
    by_cases hempty : chunk = []
    · have hstep : step incoming (.push chunk) = { incoming with observed := incoming.observed ++ [chunk] } := by
        simp [step, Incoming.push, hempty]
      rw [hstep]
      exact ⟨fun _ _ => hempty, fun _ hfinished => ⟨(h hfinished).chunks, (h hfinished).trailers, (h hfinished).failure⟩⟩
    · have hchunks : (step incoming (.push chunk)).chunks = incoming.chunks ++ [chunk] := by
        simp [step, Incoming.push, habandoned, hempty]
      have hfinished : (step incoming (.push chunk)).finished = incoming.finished := by
        simp [step, Incoming.push, habandoned, hempty]
      constructor
      · intro hsound hended
        have hdrained := (hsound (hfinished.trans hended)).chunks
        simp [hchunks] at hdrained
      · intro hintime hended
        exact absurd (hintime (hfinished.symm.trans hended)) hempty
  | setTrailers fields =>
    have hstep : (step incoming (.setTrailers fields)).finished = incoming.finished ∧
        (step incoming (.setTrailers fields)).trailers = some fields := by
      simp [step, Incoming.setTrailers, habandoned]
    constructor
    · intro hsound
      by_contra hended
      have hdrained := hsound (hstep.1.trans (by simpa [InTime] using hended))
      exact nomatch hstep.2.symm.trans hdrained.trailers
    · intro hintime hended
      exact nomatch hintime.symm.trans (hstep.1.symm.trans hended)
  | finish =>
    constructor
    · intro hsound
      obtain ⟨hchunks, htrailers, hfailure⟩ := hsound rfl
      exact ⟨hchunks, htrailers, hfailure⟩
    · intro hdrained _
      exact ⟨hdrained.chunks, hdrained.trailers, hdrained.failure⟩
  | fail error =>
    refine iff_of_true ?_ True.intro
    intro hended
    have hfinished : incoming.finished = true := by
      simp only [step, Incoming.fail] at hended
      split at hended <;> exact hended
    have hkept : step incoming (.fail error) = { incoming with waker := false } := by
      simp [step, Incoming.fail, hfinished]
    rw [hkept]
    exact ⟨(h hfinished).chunks, (h hfinished).trailers, (h hfinished).failure⟩
  | poll =>
    refine iff_of_true ?_ True.intro
    intro hended
    have hfinished : incoming.finished = true := by
      simp only [step, Incoming.poll, Incoming.take] at hended
      split at hended <;> try exact hended
      split at hended <;> exact hended
    have hkept : (step incoming .poll).chunks = [] ∧ (step incoming .poll).trailers = none ∧
        (step incoming .poll).failure = none := by
      simp [step, Incoming.poll, Incoming.take, (h hfinished).chunks, (h hfinished).trailers, (h hfinished).failure,
        hfinished]
    exact ⟨hkept.1, hkept.2.1, hkept.2.2⟩

/-- The hint is sound all along exactly if the end came in time. -/
theorem hintsSound_iff_inTime (events : List Event) :
    (∀ past, past <+: events → HintSound (received past)) ↔
      AtEach (fun before event => InTime (received before) event) events := by
  induction events using List.reverseRecOn with
  | nil =>
    refine iff_of_true ?_ atEach_nil
    intro past hpast
    rw [List.prefix_nil.mp hpast]
    exact hintSound_iff.mpr fun hfinished => nomatch hfinished
  | append_singleton events event ih =>
    rw [atEach_concat, ← ih]
    constructor
    · intro hsound
      have hbefore (past : List Event) (hpast : past <+: events) : HintSound (received past) :=
        hsound past (hpast.trans (List.prefix_append _ _))
      refine ⟨hbefore, ?_⟩
      have hlast := hsound _ List.prefix_rfl
      rw [received_concat] at hlast
      exact (hintSound_step (hbefore _ List.prefix_rfl) (abandoned_received events) event).mp hlast
    · rintro ⟨hbefore, hintime⟩ past hpast
      rcases List.prefix_concat_iff.mp hpast with rfl | hpast
      · rw [received_concat]
        exact (hintSound_step (hbefore _ List.prefix_rfl) (abandoned_received events) event).mpr hintime
      · exact hbefore past hpast

/-- A body that arrives whole before it is read is said to have ended, and is not passed on. -/
theorem hint_overtakes_body : ¬ ∀ events, ∀ past, past <+: events → HintSound (received past) := by
  intro hsound
  have hended := (hsound [.push [1], .finish] _ List.prefix_rfl).ended rfl
  exact absurd hended (by decide)

end Ngnet.Http3EndHints
