import Ngnet.QuicHttp3Endings

/-!
# The timer of a native QUIC connection

Nobody but the join drives a connection that was handed over, and whoever waits for one of its deadlines has to have
the sleep armed. `poll_event` arms it before it is pending; `poll_open` does not, and relies on what an earlier poll
left armed, and for whom.
-/

namespace Ngnet.QuicHttp3Join
open QmuxVarints QmuxStreams QuicEndpoint
open QmuxConnection (Poll)
open QmuxRecordWriter (Waker)
open QmuxHttp3Join (QuicEvent StreamSource)

/-! ## What a call does to the timer and the wakers -/

/-- Nobody was woken, and the sleep and those who wait for a stream stayed as they were. -/
structure Undisturbed {κ : Type} (c c' : Connection κ) : Prop where
  woken : c'.woken = c.woken
  sleeping : c'.sleeping = c.sleeping
  sleepingUntil : c'.sleepingUntil = c.sleepingUntil
  limitWakers : c'.limitWakers = c.limitWakers
  now : c'.now = c.now

section Undisturbed
variable {κ : Type} {c c' c'' : Connection κ}

theorem Undisturbed.trans (h : Undisturbed c c') (h' : Undisturbed c' c'') : Undisturbed c c'' :=
  ⟨h'.woken.trans h.woken, h'.sleeping.trans h.sleeping, h'.sleepingUntil.trans h.sleepingUntil,
    h'.limitWakers.trans h.limitWakers, h'.now.trans h.now⟩

variable [Transport κ]

theorem undisturbed_produce (c : Connection κ) (capacityWaker : Option Waker) :
    Undisturbed c (c.produce capacityWaker).2 := by
  simp only [Connection.produce]
  repeat' split
  all_goals exact ⟨rfl, rfl, rfl, rfl, rfl⟩

omit [Transport κ] in
theorem undisturbed_noted (c : Connection κ) (notes : List Note) (conn : κ) : Undisturbed c (c.noted notes conn) :=
  ⟨rfl, rfl, rfl, rfl, rfl⟩

theorem undisturbed_expire (c : Connection κ) (waker : Waker) : Undisturbed c (c.expire waker).2 := by
  simp only [Connection.expire]
  split
  · split
    · exact (undisturbed_noted c _ _).trans (undisturbed_produce _ _)
    · exact ⟨rfl, rfl, rfl, rfl, rfl⟩
    · exact ⟨rfl, rfl, rfl, rfl, rfl⟩
    · exact ⟨rfl, rfl, rfl, rfl, rfl⟩
  · exact undisturbed_produce c _

theorem undisturbed_pump (c : Connection κ) (waker : Waker) : Undisturbed c (c.pump waker).2 := by
  simp only [Connection.pump]
  have hread : ∀ shared notes conn, Undisturbed c
      (({ c with wakers := registered c.wakers waker, shared } : Connection κ).noted notes conn) :=
    fun _ _ _ => ⟨rfl, rfl, rfl, rfl, rfl⟩
  split
  · exact ⟨rfl, rfl, rfl, rfl, rfl⟩
  · exact ⟨rfl, rfl, rfl, rfl, rfl⟩
  · split
    · exact hread _ _ _
    · exact (hread _ _ _).trans (undisturbed_expire _ waker)

end Undisturbed

/-! ## Who waits for a stream -/

/-- The peer raised how many streams there may be. -/
def isExtension : Observed → Bool
  | .streamsExtended _ => true
  | _ => false

section Limits
variable {κ : Type} [Detachable κ]

/-- Collecting wakes those who wait for a stream, if the peer has raised the limit. -/
structure Extends (c c' : Connection κ) (raised : Bool) : Prop where
  woken : c'.woken = c.woken ++ if raised then c.limitWakers else []
  limitWakers : c'.limitWakers = if raised then [] else c.limitWakers
  sleeping : c'.sleeping = c.sleeping
  sleepingUntil : c'.sleepingUntil = c.sleepingUntil
  now : c'.now = c.now

theorem extends_one (c : Connection κ) (event : Observed) : Extends c (c.collectOne event) (isExtension event) := by
  cases event <;> constructor <;> simp [Connection.collectOne, isExtension, Connection.wake]

theorem extends_all (observed : List Observed) (c : Connection κ) :
    Extends c (observed.foldl Connection.collectOne c) (observed.any isExtension) := by
  induction observed generalizing c with
  | nil => constructor <;> simp
  | cons event observed ih =>
    have hone := extends_one c event
    have hall := ih (c.collectOne event)
    rw [List.foldl_cons, List.any_cons]
    constructor
    · rw [hall.woken, hone.woken, hone.limitWakers]
      cases isExtension event <;> simp
    · rw [hall.limitWakers, hone.limitWakers]
      cases isExtension event <;> simp
    · exact hall.sleeping.trans hone.sleeping
    · exact hall.sleepingUntil.trans hone.sleepingUntil
    · exact hall.now.trans hone.now

theorem extends_collect (c : Connection κ) : Extends c c.collect (c.shared.observed.any isExtension) := by
  have hall := extends_all c.shared.observed { c with shared := { c.shared with observed := [] } }
  exact ⟨hall.woken, hall.limitWakers, hall.sleeping, hall.sleepingUntil, hall.now⟩

end Limits

/-! ## What the pump observes -/

section Observing
variable {κ : Type} [Detachable κ]

theorem observed_produce (c : Connection κ) (capacityWaker : Option Waker) :
    (c.produce capacityWaker).2.shared.observed =
      c.shared.observed ++ (c.produced c.conn).notes.filterMap observedOf := by
  have hsent : (((c.noted (c.produced c.conn).notes (c.produced c.conn).conn).send
      (c.produced c.conn).datagrams).shared.observed) =
        c.shared.observed ++ (c.produced c.conn).notes.filterMap observedOf := by
    simp only [Connection.send, observed_queueOutbound, Connection.noted, observed_notes]
  simp only [Connection.produce]
  repeat' split
  all_goals exact hsent

theorem observed_expire (c : Connection κ) (waker : Waker) : (c.expire waker).2.shared.observed =
    c.shared.observed ++ (c.answersAfter ⟨.dry, [], [], c.conn⟩).notes.filterMap observedOf := by
  simp only [Connection.expire, Connection.answersAfter]
  cases lapse c.now c.conn with
  | none => simp [observed_produce, Answers.notes]
  | some answer =>
    obtain ⟨answer, notes, conn⟩ := answer
    have hnoted : (c.noted notes conn).shared.observed = c.shared.observed ++ notes.filterMap observedOf :=
      observed_notes notes c.shared
    rcases answer with error | (_ | _ | _)
    · exact hnoted.trans (by simp [Answers.notes])
    · simp only [observed_produce, hnoted]
      have hproduced : (c.noted notes conn).produced (c.noted notes conn).conn = c.produced conn := produced_noted ..
      simp [Answers.notes, hproduced]
    · exact hnoted.trans (by simp [Answers.notes])
    · exact hnoted.trans (by simp [Answers.notes])

theorem pump_eq (c : Connection κ) (waker : Waker) {reading : Reading κ} {c₁ : Connection κ}
    (hreading : readAll c.now c.shared.inbound c.conn = reading)
    (hnoted : ({ c with
      wakers := registered c.wakers waker
      shared := { c.shared with inbound := reading.rest } } : Connection κ).noted reading.notes reading.conn = c₁) :
    c.pump waker =
      match reading.verdict with
      | .failed error => (some (.ofTransport error), c₁.recordConnectionClosed none)
      | .ended => (none, c₁.recordConnectionClosed (applicationCode (Transport.closeError c₁.conn)))
      | .dry => if c.closed then (none, c₁) else c₁.expire waker := by
  subst hreading hnoted
  rfl

theorem observed_pump (c : Connection κ) (waker : Waker) : (c.pump waker).2.shared.observed =
    c.shared.observed ++ c.answers.notes.filterMap observedOf := by
  let reading := readAll c.now c.shared.inbound c.conn
  let c₁ := ({ c with
    wakers := registered c.wakers waker
    shared := { c.shared with inbound := reading.rest } } : Connection κ).noted reading.notes reading.conn
  have hread : c₁.shared.observed = c.shared.observed ++ reading.notes.filterMap observedOf := observed_notes ..
  have hanswers : c.answers = if reading.verdict = .dry ∧ c.closed = false then c.answersAfter reading
      else ⟨reading, none, none⟩ := rfl
  have hpump := pump_eq c waker (show _ = reading from rfl) (show _ = c₁ from rfl)
  rw [hpump, hanswers]
  cases hverdict : reading.verdict with
  | failed error => exact hread.trans (by simp [Answers.notes])
  | ended => exact hread.trans (by simp [Answers.notes])
  | dry =>
    cases c.closed with
    | true => exact hread.trans (by simp [Answers.notes])
    | false =>
      have hafter : c₁.answersAfter ⟨.dry, [], [], c₁.conn⟩ = c.answersAfter ⟨.dry, [], [], reading.conn⟩ := by
        simp only [Connection.answersAfter, c₁, produced_noted]
        rfl
      have hexpire := observed_expire c₁ waker
      rw [hafter, hread] at hexpire
      simp [hexpire, (answersAfter_reading c hverdict).1]

end Observing

/-! ## The sleep -/

section Sleeping
variable {κ : Type} [Transport κ] {c c' : Connection κ}

/-- The sleep is for the deadline that is noted for it. -/
def Armed (c : Connection κ) : Prop := c.sleepingUntil = c.sleeping.map (·.deadline)

/-- The timer is due: the deadline of the core has passed, or that of the sleep. -/
def Due (c : Connection κ) : Prop := ∃ deadline, Transport.expiry c.conn = some deadline ∧
  (deadline ≤ c.now ∨ ∃ sleep, c.sleeping = some sleep ∧ sleep.deadline ≤ c.now)

/-- A sleep up to this deadline, or shorter, is armed for a task. -/
def Guards (c : Connection κ) (waker : Waker) (deadline : ℕ) : Prop :=
  ∃ sleep, c.sleeping = some sleep ∧ sleep.deadline ≤ deadline ∧ sleep.waker = some waker

/-- What `poll_timer` comes to. -/
structure Polled (c : Connection κ) (waker : Waker) (result : Bool × Connection κ) : Prop where
  armed : Armed result.2
  due : result.1 = true ↔ Due c
  guards : result.1 = false → ∀ deadline, Transport.expiry c.conn = some deadline → Guards result.2 waker deadline

theorem polled_arm {deadline : ℕ} {waker : Waker} {preservedReady : Bool}
    (hexpiry : Transport.expiry c.conn = some deadline)
    (hready : c.now < deadline →
      (preservedReady = true ↔ ∃ sleep, c.sleeping = some sleep ∧ sleep.deadline ≤ c.now)) :
    Polled c waker ((c.arm deadline).pollArmed waker preservedReady) := by
  have harm : (c.arm deadline).pollArmed waker preservedReady =
      if deadline ≤ c.now then (true, { c with sleeping := none, sleepingUntil := none })
      else (preservedReady, { c with sleeping := some ⟨deadline, some waker⟩, sleepingUntil := some deadline }) := rfl
  rw [harm]
  split
  · rename_i hpassed
    exact ⟨rfl, iff_of_true rfl ⟨deadline, hexpiry, .inl hpassed⟩, nofun⟩
  · rename_i hpassed
    constructor
    · rfl
    · rw [hready (by omega)]
      constructor
      · exact fun hslept => ⟨deadline, hexpiry, .inr hslept⟩
      · rintro ⟨deadline', hexpiry', hdue⟩
        rw [hexpiry] at hexpiry'
        cases hexpiry'
        exact hdue.resolve_left hpassed
    · intro _ deadline' hexpiry'
      rw [hexpiry] at hexpiry'
      cases hexpiry'
      exact ⟨_, rfl, Nat.le_refl _, rfl⟩

theorem polled_armed {sleep : Sleep} {waker : Waker} (h : Armed c) (hexpiry : Transport.expiry c.conn = some sleep.deadline)
    (hsleeping : c.sleeping = some sleep) : Polled c waker (c.pollArmed waker false) := by
  have huntil : c.sleepingUntil = some sleep.deadline := by rw [h, hsleeping]; rfl
  simp only [Connection.pollArmed, hsleeping]
  split
  · rename_i hpassed
    exact ⟨rfl, iff_of_true rfl ⟨sleep.deadline, hexpiry, .inl hpassed⟩, by rintro ⟨⟩⟩
  · rename_i hfuture
    constructor
    · exact huntil
    · refine iff_of_false Bool.false_ne_true ?_
      rintro ⟨deadline, hexpiry', hdue⟩
      rw [hexpiry] at hexpiry'
      cases hexpiry'
      rcases hdue with hpassed | ⟨sleep', hsleeping', hpassed⟩
      · exact hfuture hpassed
      · rw [hsleeping] at hsleeping'
        cases hsleeping'
        exact hfuture hpassed
    · intro _ deadline hexpiry'
      rw [hexpiry] at hexpiry'
      cases hexpiry'
      exact ⟨_, rfl, Nat.le_refl _, rfl⟩

theorem polled_pollTimer (h : Armed c) (waker : Waker) : Polled c waker (c.pollTimer waker) := by
  simp only [Connection.pollTimer]
  split
  · rename_i hexpiry
    exact ⟨rfl, iff_of_false Bool.false_ne_true (by simp [Due, hexpiry]), fun _ deadline hexpiry' => by simp [hexpiry] at hexpiry'⟩
  · rename_i deadline hexpiry
    cases hsleeping : c.sleeping with
    | none =>
      have huntil : c.sleepingUntil = none := by rw [h, hsleeping]; rfl
      simp only [huntil, reduceCtorEq, if_false]
      exact polled_arm hexpiry fun _ => by simp [hsleeping]
    | some sleep =>
      have huntil : c.sleepingUntil = some sleep.deadline := by rw [h, hsleeping]; rfl
      simp only [huntil]
      split
      · rename_i hsame
        cases hsame
        exact polled_armed h hexpiry hsleeping
      · split
        · rename_i hearlier
          split
          · rename_i hpassed
            exact polled_arm hexpiry fun _ => by simp [hsleeping, hpassed]
          · -- The earlier sleep is kept, and registered anew.
            rename_i hfuture
            constructor
            · rfl
            · refine iff_of_false Bool.false_ne_true ?_
              rintro ⟨deadline', hexpiry', hdue⟩
              rw [hexpiry] at hexpiry'
              cases hexpiry'
              rcases hdue with hpassed | ⟨sleep', hsleeping', hpassed⟩
              · omega
              · rw [hsleeping] at hsleeping'
                cases hsleeping'
                exact hfuture hpassed
            · intro _ deadline' hexpiry'
              rw [hexpiry] at hexpiry'
              cases hexpiry'
              exact ⟨_, rfl, Nat.le_of_lt hearlier, rfl⟩
        · rename_i hlater
          refine polled_arm hexpiry fun hfuture => iff_of_false Bool.false_ne_true ?_
          rintro ⟨sleep', hsleeping', hpassed⟩
          rw [hsleeping] at hsleeping'
          cases hsleeping'
          omega

end Sleeping

/-! ## Runs -/

section Runs
variable {κ σ : Type} [Detachable κ] [StreamSource σ] {c c' : Connection κ}

omit [Detachable κ] in
theorem Armed.of_eq (h : Armed c) (hsleeping : c'.sleeping = c.sleeping) (huntil : c'.sleepingUntil = c.sleepingUntil) :
    Armed c' := by
  rw [Armed, huntil, hsleeping]
  exact h

theorem armed_collect (h : Armed c) (waker : Waker) : Armed (c.pump waker).2.collect := by
  have hpump := undisturbed_pump c waker
  have hcollect := extends_collect (c.pump waker).2
  exact h.of_eq (hcollect.sleeping.trans hpump.sleeping) (hcollect.sleepingUntil.trans hpump.sleepingUntil)

theorem armed_pollQuiet (h : Armed c) (waker : Waker) : Armed (c.pollQuiet waker).2 := by
  simp only [Connection.pollQuiet]
  split
  · exact h
  · split <;> exact (polled_pollTimer h waker).armed

theorem armed_pollEvent (h : Armed c) (waker : Waker) : Armed (c.pollEvent waker).2 := by
  have hpump := undisturbed_pump c waker
  have hcollected := armed_collect h waker
  simp only [Connection.pollEvent, Connection.answerEvent]
  generalize c.pump waker = result at *
  obtain ⟨_ | error, c₁⟩ := result
  · have htakes := takes waker c₁.collect.pending c₁.collect
    dsimp only
    generalize Connection.takeEvent waker c₁.collect.pending c₁.collect = taken at htakes
    cases htakes with
    | none hskipped => exact armed_pollQuiet (c := { c₁.collect with pending := [] }) hcollected waker
    | waits heq hskipped hwaits => exact hcollected
    | event heq hskipped hevent hfirst => exact hcollected
  · exact h.of_eq hpump.sleeping hpump.sleepingUntil

theorem armed_pollOpen (h : Armed c) (bidi : Bool) (waker : Waker) : Armed (c.pollOpen bidi waker).2 := by
  have hpump := undisturbed_pump c waker
  have hcollected := armed_collect h waker
  simp only [Connection.pollOpen]
  generalize c.pump waker = result at *
  obtain ⟨_ | error, c₁⟩ := result
  · dsimp only
    split
    · exact hcollected
    · split
      · have hproduce := undisturbed_produce (c₁.collect.noted
          (Transport.call (if bidi then .openBidiStream else .openUniStream) c₁.collect.conn).2.1
          (Transport.call (if bidi then .openBidiStream else .openUniStream) c₁.collect.conn).2.2) (some waker)
        have hproduced := hcollected.of_eq hproduce.sleeping hproduce.sleepingUntil
        split
        · rename_i heq
          rw [heq] at hproduced
          exact hproduced
        · rename_i heq
          rw [heq] at hproduced
          exact hproduced
      · split <;> exact hcollected
  · exact h.of_eq hpump.sleeping hpump.sleepingUntil

omit [Detachable κ] in
theorem undisturbed_releases (accepted : List (StreamId × ℕ)) (c : Connection κ) :
    Undisturbed c (accepted.foldl (fun c released => c.recordReleased released.1 released.2) c) := by
  induction accepted generalizing c with
  | nil => exact ⟨rfl, rfl, rfl, rfl, rfl⟩
  | cons released accepted ih =>
    have hone : Undisturbed c (c.recordReleased released.1 released.2) := ⟨rfl, rfl, rfl, rfl, rfl⟩
    exact hone.trans (ih _)

theorem undisturbed_drain (c : Connection κ) (waker : Waker) (source : σ) : Undisturbed c (c.drain waker source) := by
  have hsent : Undisturbed c ((c.noted (c.pass source).notes (c.pass source).conn).send (c.pass source).datagrams) :=
    ⟨rfl, rfl, rfl, rfl, rfl⟩
  have hreleased := hsent.trans (undisturbed_releases (c.pass source).accepted _)
  simp only [Connection.drain]
  split
  · exact hreleased.trans ⟨rfl, rfl, rfl, rfl, rfl⟩
  · exact hreleased

theorem armed_pollTransmit (h : Armed c) (waker : Waker) (source : σ) : Armed (c.pollTransmit waker source).2.2 := by
  have hpump := undisturbed_pump c waker
  have hcollected := armed_collect h waker
  simp only [Connection.pollTransmit]
  generalize c.pump waker = result at *
  obtain ⟨_ | error, c₁⟩ := result
  · dsimp only
    split
    · exact hcollected
    · have hdrain := undisturbed_drain c₁.collect waker source
      have hdrained := hcollected.of_eq hdrain.sleeping hdrain.sleepingUntil
      split
      · exact hdrained
      · split <;> exact (polled_pollTimer hdrained waker).armed
  · exact h.of_eq hpump.sleeping hpump.sleepingUntil

theorem armed_reset (h : Armed c) (stream : StreamId) (code : ℕ) : Armed (c.reset stream code).2 := by
  simp only [Connection.reset]
  split
  · have hproduce := undisturbed_produce (c.noted (Transport.call (.resetStream stream code) c.conn).2.1
      (Transport.call (.resetStream stream code) c.conn).2.2) none
    exact h.of_eq hproduce.sleeping hproduce.sleepingUntil
  · exact h

theorem armed_stopSending (h : Armed c) (stream : StreamId) (code : ℕ) : Armed (c.stopSending stream code).2 := by
  simp only [Connection.stopSending]
  split
  · have hproduce := undisturbed_produce (c.noted (Transport.call (.stopSending stream code) c.conn).2.1
      (Transport.call (.stopSending stream code) c.conn).2.2) none
    exact h.of_eq hproduce.sleeping hproduce.sleepingUntil
  · exact h

theorem armed_extendCredit (h : Armed c) (stream : Option StreamId) (bytes : ℕ) :
    Armed (c.extendCredit stream bytes).2 := by
  simp only [Connection.extendCredit]
  repeat' split
  all_goals exact h

theorem armed_close (h : Armed c) (code : ℕ) (reason : Bytes) : Armed (c.close code reason).2 := by
  simp only [Connection.close]
  repeat' split
  all_goals exact h

omit [Detachable κ] in
theorem armed_advance (h : Armed c) (nanos : ℕ) : Armed (c.advance nanos) := by
  rw [Armed] at h
  simp only [Connection.advance]
  repeat' split
  all_goals simp_all [Armed, Connection.wake]

theorem armed_step (h : Armed c) (action : Action σ) : Armed (step c action) := by
  cases action with
  | pollEvent waker => exact armed_pollEvent h waker
  | pollTransmit waker source => exact armed_pollTransmit h waker source
  | pollOpen bidi waker => exact armed_pollOpen h bidi waker
  | reset stream code => exact armed_reset h stream code
  | stopSending stream code => exact armed_stopSending h stream code
  | extendCredit stream bytes => exact armed_extendCredit h stream bytes
  | close code reason => exact armed_close h code reason
  | deliver datagram =>
    simp only [step, Connection.deliver]
    split <;> exact h
  | takeOutbound =>
    simp only [step, Connection.takeOutbound]
    split <;> exact h
  | advance nanos => exact armed_advance h nanos

theorem armed_reached (h : Armed c) (actions : List (Action σ)) : Armed (reached c actions) := by
  induction actions generalizing c with
  | nil => exact h
  | cons action actions ih => exact ih (armed_step h action)

/-! ## The polls that are pending -/

/-- The task was woken in between. -/
def Woken (c c' : Connection κ) (waker : Waker) : Prop := waker ∈ c'.woken.drop c.woken.length

/-- Whoever polled and found nothing is woken, or has a sleep up to the deadline of the core. -/
def Timed (c c' : Connection κ) (waker : Waker) : Prop :=
  ∀ deadline, Transport.expiry c'.conn = some deadline → Woken c c' waker ∨ Guards c' waker deadline

omit [Detachable κ] in
theorem woken_append {more : List Waker} {waker : Waker} (h : c'.woken = c.woken ++ more) :
    Woken c c' waker ↔ waker ∈ more := by
  simp [Woken, h]

theorem timed_pollQuiet {c₀ : Connection κ} {more : List Waker} (h : Armed c) (hwoken : c.woken = c₀.woken ++ more)
    (waker : Waker) (hpending : (c.pollQuiet waker).1 = .pending) (history : List Moment) :
    Timed c₀ { (c.pollQuiet waker).2 with history } waker := by
  intro deadline hexpiry
  obtain ⟨sleeping, sleepingUntil, htimer⟩ := pollTimer_eq c waker
  obtain ⟨-, -, hguards⟩ := polled_pollTimer h waker
  simp only [Connection.pollQuiet] at hpending hexpiry ⊢
  split at hpending
  · cases hpending
  · rename_i hnot
    rw [if_neg hnot] at hexpiry ⊢
    rw [htimer] at hexpiry hguards ⊢
    split
    · have hwoken' : (c.wake [waker]).woken = c₀.woken ++ (more ++ [waker]) := by simp [Connection.wake, hwoken]
      exact .inl ((woken_append hwoken').mpr (by simp))
    · rename_i hidle
      refine .inr (hguards (by simpa using hidle) deadline ?_)
      split at hexpiry <;> exact hexpiry

theorem timed_pollEvent (h : Armed c) (waker : Waker) (hpending : (c.pollEvent waker).1 = .pending) :
    Timed c (c.pollEvent waker).2 waker := by
  have hpump := undisturbed_pump c waker
  have hcollected := armed_collect h waker
  simp only [Connection.pollEvent, Connection.answerEvent] at hpending ⊢
  generalize c.pump waker = result at *
  obtain ⟨_ | error, c₁⟩ := result
  · have htakes := takes waker c₁.collect.pending c₁.collect
    have hwoken := (extends_collect c₁).woken
    rw [show c₁.woken = _ from hpump.woken] at hwoken
    dsimp only at hpending ⊢
    generalize Connection.takeEvent waker c₁.collect.pending c₁.collect = taken at htakes hpending ⊢
    cases htakes with
    | none hskipped => exact timed_pollQuiet (c := { c₁.collect with pending := [] }) hcollected hwoken waker hpending _
    | waits heq hskipped hwaits =>
      intro deadline _
      have hwoken' : (c₁.collect.wake [waker]).woken = c.woken ++
          ((if c₁.shared.observed.any isExtension then c₁.limitWakers else []) ++ [waker]) := by
        simp [Connection.wake, hwoken]
      exact .inl ((woken_append hwoken').mpr (by simp))
    | event heq hskipped hevent hfirst => cases hpending
  · cases hpending

/-- The core behind a stream that it refused to open. -/
def Connection.refusing (c : Connection κ) (bidi : Bool) (waker : Waker) : κ :=
  (Transport.call (if bidi then .openBidiStream else .openUniStream) (c.pump waker).2.collect.conn).2.2

/-- What has to be in place for a poll that opens a stream: the task waits for a stream already, and the core observes
that the peer raised the limit; or an earlier poll of the task has left a sleep that is long enough. -/
def Prearranged (c : Connection κ) (bidi : Bool) (waker : Waker) : Prop :=
  ∀ deadline, Transport.expiry (c.refusing bidi waker) = some deadline →
    (waker ∈ c.limitWakers ∧ (c.shared.observed ++ c.answers.notes.filterMap observedOf).any isExtension = true) ∨
      Guards c waker deadline

theorem timed_pollOpen (bidi : Bool) (waker : Waker) (hpending : (c.pollOpen bidi waker).1 = .pending) :
    Timed c (c.pollOpen bidi waker).2 waker ↔ Prearranged c bidi waker := by
  have hpump := undisturbed_pump c waker
  have hobserved := observed_pump c waker
  have hrefusing : c.refusing bidi waker = (Transport.call (if bidi then .openBidiStream else .openUniStream)
    (c.pump waker).2.collect.conn).2.2 := rfl
  simp only [Prearranged, hrefusing]
  simp only [Connection.pollOpen] at hpending ⊢
  generalize c.pump waker = result at *
  obtain ⟨_ | error, c₁⟩ := result
  · have hcollect := extends_collect c₁
    rw [show c₁.shared.observed = _ from hobserved] at hcollect
    have hwoken := hcollect.woken
    rw [show c₁.woken = _ from hpump.woken, show c₁.limitWakers = _ from hpump.limitWakers] at hwoken
    have hsleeping : c₁.collect.sleeping = c.sleeping := hcollect.sleeping.trans hpump.sleeping
    generalize (c.shared.observed ++ c.answers.notes.filterMap observedOf).any isExtension = raised at hwoken ⊢
    have hwaiting : ∀ c' : Connection κ, c'.woken = c₁.collect.woken →
        (Woken c c' waker ↔ waker ∈ c.limitWakers ∧ raised = true) := by
      intro c' heq
      rw [woken_append (heq.trans hwoken)]
      cases raised <;> simp
    dsimp only at hpending ⊢
    split at hpending
    · cases hpending
    · rename_i hopen
      rw [if_neg hopen]
      cases hanswer : (Transport.call (if bidi then .openBidiStream else .openUniStream) c₁.collect.conn).1 with
      | ok stream =>
        simp only [hanswer] at hpending
        split at hpending <;> cases hpending
      | error error =>
        simp only [hanswer] at hpending ⊢
        split at hpending
        · rename_i hblocked
          rw [if_pos hblocked]
          refine forall_congr' fun deadline => imp_congr_right fun _ => or_congr (hwaiting _ rfl) ?_
          simp only [Guards, Connection.noted, hsleeping]
        · cases hpending
  · cases hpending

/-- At any time, `poll_event` does not leave a task asleep behind the timer, and a poll that opens a stream does unless
all is in place before. -/
theorem timed_reached (conn : κ) (self : Initiator) (shared : ConnectionShared) (now : ℕ) (actions : List (Action σ))
    (waker : Waker) (c : Connection κ) (hreached : c = reached (newConnection conn self shared now) actions) :
    ((c.pollEvent waker).1 = .pending → Timed c (c.pollEvent waker).2 waker) ∧
      ∀ bidi, (c.pollOpen bidi waker).1 = .pending →
        (Timed c (c.pollOpen bidi waker).2 waker ↔ Prearranged c bidi waker) := by
  have harmed : Armed c := by
    rw [hreached]
    exact armed_reached (c := newConnection conn self shared now) rfl actions
  exact ⟨timed_pollEvent harmed waker, fun bidi => timed_pollOpen bidi waker⟩

/-- A connection with a deadline ahead, on which nothing happens. -/
def resting : Connection ScriptedConnection :=
  newConnection ⟨{ expiries := [(100, .ok .handled, [])] }⟩ .client {} 0

/-- The first poll arms the sleep, and the task that opens a stream has it. -/
theorem timed_resting : Timed (resting.pollEvent 0).2 ((resting.pollEvent 0).2.pollOpen true 0).2 0 := by
  have htimed := (timed_reached (σ := QmuxHttp3Join.ScriptedSource) ⟨{ expiries := [(100, .ok .handled, [])] }⟩ .client {}
    0 [.pollEvent 0] 0 (resting.pollEvent 0).2 rfl).2 true rfl
  refine htimed.mpr fun deadline hexpiry => .inr ⟨⟨100, some 0⟩, rfl, ?_, rfl⟩
  exact (Option.some.inj hexpiry).le

/-- A task that opens the first stream of a connection is left asleep, without a timer. -/
theorem open_without_timer : ∃ (conn : ScriptedConnection) (actions : List (Action QmuxHttp3Join.ScriptedSource)),
    let c := reached (newConnection conn .client {} 0) actions
    (c.pollOpen true 0).1 = .pending ∧ (c.pollOpen true 0).2.closed = false ∧ ¬ Timed c (c.pollOpen true 0).2 0 := by
  refine ⟨⟨{ expiries := [(100, .ok .handled, [])] }⟩, [], rfl, rfl, fun htimed => ?_⟩
  rcases htimed 100 rfl with hwoken | ⟨sleep, hsleeping, -⟩
  · exact nomatch (show (0 : Waker) ∈ ([] : List Waker) from hwoken)
  · exact nomatch (show (none : Option Sleep) = some sleep from hsleeping)

end Runs

end Ngnet.QuicHttp3Join
