import Ngnet.Histories
import Ngnet.QuicHttp3Join

/-!
# The end of a native QUIC connection

What `poll_event` tells the HTTP/3 layer of a connection that ends. The pump queues the end at once, and what the
handlers observed in the same pump is queued behind it. A pump that goes on reading queues the end again, and one that
fails leaves by `?` with its records uncollected. Where none of this happens the end is the last that is told.
-/

namespace Ngnet.QuicHttp3Join
open QmuxVarints QmuxStreams QuicEndpoint Histories
open QmuxConnection (Poll)
open QmuxRecordWriter (Waker)
open QmuxHttp3Join (QuicEvent StreamSource endsAStream)

/-! ## What is told -/

namespace Moment

/-- What was recorded about a stream. -/
def recordedOf : Moment → Option QuicEvent
  | .recorded event => some event
  | _ => none

/-- What was told about a stream. -/
def returnedOf : Moment → Option QuicEvent
  | .ready (.ok event) => if isEnd event then none else some event
  | _ => none

def isResult : Moment → Bool
  | .recorded _ => false
  | _ => true

def isReady : Moment → Bool
  | .ready _ => true
  | _ => false

def isError : Moment → Bool
  | .ready (.error _) => true
  | _ => false

/-- The end of the connection, or an error. -/
def isEnding : Moment → Bool
  | .ready (.ok event) => isEnd event
  | .ready (.error _) => true
  | _ => false

end Moment

def recorded (history : List Moment) : List QuicEvent := history.filterMap Moment.recordedOf

def returned (history : List Moment) : List QuicEvent := history.filterMap Moment.returnedOf

def lastResult (history : List Moment) : Option Moment := (history.filter Moment.isResult).getLast?

/-- A result stands at its place: what was told so far was recorded, in this order; the end, or the first error,
comes when all that was recorded is told; nothing follows the end; and the end of a stream or of the connection follows
a poll that was pending, or is the first result at all. -/
structure Placed (before : List Moment) (moment : Moment) : Prop where
  inOrder : moment.isReady = true → returned (before ++ [moment]) <+: recorded before
  complete : moment.isEnding = true → (∀ earlier ∈ before, earlier.isEnding = false) → returned before = recorded before
  once : moment.isReady = true → ∀ code, .ready (.ok (.closed code)) ∉ before
  fresh : ∀ event, moment = .ready (.ok event) → endsAStream event = true → ∀ last, lastResult before = some last →
    last.isReady = false

section Histories
variable {history : List Moment} {events : List QuicEvent}

@[simp] theorem recorded_append (h t : List Moment) : recorded (h ++ t) = recorded h ++ recorded t :=
  List.filterMap_append

@[simp] theorem returned_append (h t : List Moment) : returned (h ++ t) = returned h ++ returned t :=
  List.filterMap_append

@[simp] theorem recorded_map (events : List QuicEvent) : recorded (events.map .recorded) = events := by
  induction events with
  | nil => rfl
  | cons event events ih => simpa [recorded, Moment.recordedOf] using ih

@[simp] theorem returned_map (events : List QuicEvent) : returned (events.map .recorded) = [] := by
  simp [returned, Moment.returnedOf]

@[simp] theorem recorded_pending : recorded [.pending] = [] := rfl

@[simp] theorem returned_pending : returned [.pending] = [] := rfl

@[simp] theorem recorded_ready (result : Except JoinError QuicEvent) : recorded [.ready result] = [] := rfl

@[simp] theorem returned_error (error : JoinError) : returned [.ready (.error error)] = [] := rfl

@[simp] theorem returned_event (event : QuicEvent) :
    returned [.ready (.ok event)] = if isEnd event then [] else [event] := by
  cases hend : isEnd event <;> simp [returned, Moment.returnedOf, hend]

@[simp] theorem lastResult_map (history : List Moment) (events : List QuicEvent) :
    lastResult (history ++ events.map .recorded) = lastResult history := by
  have hnone : (events.map Moment.recorded).filter Moment.isResult = [] := by
    rw [List.filter_eq_nil_iff]
    intro moment hmoment
    obtain ⟨event, -, rfl⟩ := List.mem_map.mp hmoment
    simp [Moment.isResult]
  rw [lastResult, List.filter_append, hnone, List.append_nil, lastResult]

theorem lastResult_concat {moment : Moment} (h : moment.isResult = true) :
    lastResult (history ++ [moment]) = some moment := by
  simp [lastResult, h]

theorem placed_recorded (h : AtEach Placed history) (events : List QuicEvent) :
    AtEach Placed (history ++ events.map .recorded) := by
  apply h.append
  intro moment hmoment before
  obtain ⟨event, -, rfl⟩ := List.mem_map.mp hmoment
  constructor <;> simp [Moment.isReady, Moment.isEnding]

end Histories

/-! ## What the core answers -/

/-- What the core answers in a pump. -/
structure Answers (κ : Type) where
  reading : Reading κ
  lapse : Option (Except CoreError ExpiryOutcome × List Note × κ)
  produced : Option (Produced κ)

namespace Answers
variable {κ : Type}

def notes (answers : Answers κ) : List Note :=
  answers.reading.notes ++ ((answers.lapse.map (·.2.1)).getD [] ++ (answers.produced.map (·.notes)).getD [])

/-- The pump queues the end of the connection. -/
def isEnding (answers : Answers κ) : Bool :=
  match answers.reading.verdict with
  | .dry =>
    match answers.lapse with
    | none | some (.ok .handled, _, _) => false
    | _ => true
  | _ => true

def isFailing (answers : Answers κ) : Bool :=
  match answers.reading.verdict with
  | .failed _ => true
  | _ =>
    match answers.lapse with
    | some (.error _, _, _) => true
    | _ => (answers.produced.bind (·.failure)).isSome

end Answers

namespace Connection
variable {κ : Type}

/-- What the handlers observed and nobody collected. -/
def uncollected (c : Connection κ) : List QuicEvent := c.shared.observed.filterMap (eventOf c.self)

/-- What is to be told of a stream. -/
def streamEvent (self : Initiator) (record : Recorded) : Option QuicEvent :=
  match record with
  | .connectionClosed _ => none
  | record => record.intoEvent self

def queued (c : Connection κ) : List QuicEvent := c.pending.filterMap (streamEvent c.self)

/-- The end is told, or queued. -/
def HasEnded (c : Connection κ) : Prop := c.reportedClosed = true ∨ ∃ code, .connectionClosed code ∈ c.pending

theorem not_hasEnded {c : Connection κ} (hreported : c.reportedClosed = false) (hpending : c.pending = []) :
    ¬ c.HasEnded := by
  simp [HasEnded, hreported, hpending]

variable [Transport κ]

/-- What the core may produce. -/
def produced (c : Connection κ) (conn : κ) : Produced κ :=
  produceAll c.now 64 (outboundDataQueue - c.shared.outbound.length) conn

/-- What it answers behind a read loop that left nothing. -/
def answersAfter (c : Connection κ) (reading : Reading κ) : Answers κ :=
  match lapse c.now reading.conn with
  | none => ⟨reading, none, some (c.produced reading.conn)⟩
  | some (.ok .handled, notes, conn) => ⟨reading, some (.ok .handled, notes, conn), some (c.produced conn)⟩
  | some answer => ⟨reading, some answer, none⟩

def answers (c : Connection κ) : Answers κ :=
  let reading := readAll c.now c.shared.inbound c.conn
  if reading.verdict = .dry ∧ c.closed = false then c.answersAfter reading else ⟨reading, none, none⟩

end Connection

/-! ## Careful runs -/

/-- A pump that meets this neither records anything behind the end nor anything along with it. -/
structure Calm {κ : Type} [Transport κ] (c : Connection κ) : Prop where
  ended : c.HasEnded → c.answers.isEnding = false ∧ eventsOf c.self c.answers.notes = []
  ending : c.answers.isEnding = true → c.uncollected = [] ∧ eventsOf c.self c.answers.notes = []

/-- A `poll_event` that meets this neither loses nor misplaces anything: where the core fails nothing is left to be
told; the end that no record tells of comes first in its batch; and after an error the layer does not poll again, unless
something was told since the last time it was pending. -/
structure Prepared {κ : Type} [Transport κ] (c : Connection κ) : Prop extends Calm c where
  failing : c.answers.isFailing = true → c.queued = [] ∧ c.uncollected = [] ∧ eventsOf c.self c.answers.notes = []
  bare : c.closed = true → ¬ c.HasEnded → c.answers.isEnding = false → c.queued = [] → c.uncollected = [] →
    eventsOf c.self c.answers.notes = [] → c.emittedSincePending = false
  retry : c.emittedSincePending = false → ∀ last, lastResult c.history = some last → last.isError = false

section Runs
variable {κ σ : Type} [Detachable κ] [StreamSource σ]

/-- The condition of a step. -/
def Careful (c : Connection κ) : Action σ → Prop
  | .pollEvent _ => Prepared c
  | .pollTransmit _ _ | .pollOpen _ _ => Calm c
  | _ => True

/-- Runs whose steps all meet their condition. -/
def CarefulRun : Connection κ → List (Action σ) → Prop
  | _, [] => True
  | c, action :: actions => Careful c action ∧ CarefulRun (step c action) actions

end Runs

/-! ## The invariant -/

structure Sound {κ : Type} (c : Connection κ) : Prop where
  placed : AtEach Placed c.history
  balance : returned c.history ++ (c.queued ++ c.uncollected) = recorded c.history
  /-- The end is queued behind all that is to be told. -/
  last : ∀ code before after, c.pending = before ++ .connectionClosed code :: after →
    (∀ record ∈ after, record.intoEvent c.self = none) ∧ c.uncollected = [] ∧ c.closed = true ∧
      c.reportedClosed = false
  reported : c.reportedClosed = true → c.queued = [] ∧ c.uncollected = [] ∧ c.closed = true
  told : ∀ code, .ready (.ok (.closed code)) ∈ c.history → c.reportedClosed = true
  batch : c.emittedSincePending = false → ∀ last, lastResult c.history = some last → last.isReady = true →
    last.isError = true

/-! ## What a call adds -/

/-- A call has recorded these events, and moved nothing on the way to the HTTP/3 layer. -/
structure Adds {κ : Type} (c c' : Connection κ) (events : List QuicEvent) : Prop where
  self : c'.self = c.self
  pending : c'.pending = c.pending
  reported : c'.reportedClosed = c.reportedClosed
  emitted : c'.emittedSincePending = c.emittedSincePending
  closed : c.closed = true → c'.closed = true
  history : c'.history = c.history ++ events.map .recorded
  uncollected : c'.uncollected = c.uncollected ++ events

section Adding
variable {κ : Type} {c c' c'' : Connection κ} {events events' : List QuicEvent}

theorem Adds.trans (h : Adds c c' events) (h' : Adds c' c'' events') : Adds c c'' (events ++ events') where
  self := h'.self.trans h.self
  pending := h'.pending.trans h.pending
  reported := h'.reported.trans h.reported
  emitted := h'.emitted.trans h.emitted
  closed hclosed := h'.closed (h.closed hclosed)
  history := by simp [h'.history, h.history]
  uncollected := by simp [h'.uncollected, h.uncollected]

theorem Adds.behind (h : Adds c c' []) (h' : Adds c' c'' events) : Adds c c'' events := h.trans h'

theorem adds_of_eq (hself : c'.self = c.self) (hpending : c'.pending = c.pending)
    (hreported : c'.reportedClosed = c.reportedClosed) (hemitted : c'.emittedSincePending = c.emittedSincePending)
    (hclosed : c.closed = true → c'.closed = true) (hhistory : c'.history = c.history)
    (hobserved : c'.shared.observed = c.shared.observed) : Adds c c' [] := by
  refine ⟨hself, hpending, hreported, hemitted, hclosed, ?_, ?_⟩
  · simpa using hhistory
  · rw [Connection.uncollected, hobserved, hself, List.append_nil]
    rfl

theorem eventsOf_append (self : Initiator) (notes notes' : List Note) :
    eventsOf self (notes ++ notes') = eventsOf self notes ++ eventsOf self notes' := by
  simp [eventsOf]

theorem observed_notes (notes : List Note) (shared : ConnectionShared) :
    (notes.foldl ConnectionShared.note shared).observed = shared.observed ++ notes.filterMap observedOf := by
  induction notes generalizing shared with
  | nil => simp
  | cons note notes ih =>
    rw [List.foldl_cons, ih]
    cases note with
    | observe event => simp [ConnectionShared.note, ConnectionShared.observe, observedOf]
    | observeRoute update => simp [ConnectionShared.note, List.filterMap_cons, observedOf]

theorem outbound_notes (notes : List Note) (shared : ConnectionShared) :
    (notes.foldl ConnectionShared.note shared).outbound = shared.outbound := by
  induction notes generalizing shared with
  | nil => rfl
  | cons note notes ih =>
    rw [List.foldl_cons, ih]
    cases note <;> rfl

theorem adds_noted (c : Connection κ) (notes : List Note) (conn : κ) :
    Adds c (c.noted notes conn) (eventsOf c.self notes) := by
  refine ⟨rfl, rfl, rfl, rfl, fun hclosed => hclosed, rfl, ?_⟩
  simp [Connection.uncollected, Connection.noted, observed_notes, eventsOf]

theorem observed_queueOutbound (datagrams : List Bytes) (shared : ConnectionShared) :
    (datagrams.foldl ConnectionShared.queueOutbound shared).observed = shared.observed := by
  induction datagrams generalizing shared with
  | nil => rfl
  | cons datagram datagrams ih =>
    rw [List.foldl_cons, ih, ConnectionShared.queueOutbound]
    split <;> rfl

theorem adds_send (c : Connection κ) (datagrams : List Bytes) : Adds c (c.send datagrams) [] :=
  adds_of_eq rfl rfl rfl rfl (fun hclosed => hclosed) rfl (observed_queueOutbound datagrams c.shared)

variable [Detachable κ]

theorem eventsOf_call {α : Type} (self : Initiator) (op : ConnCall α) (conn : κ) (hop : hears op = false) :
    eventsOf self (Transport.call op conn).2.1 = [] := by
  rw [eventsOf, List.filterMap_eq_nil_iff]
  intro event hevent
  obtain ⟨note, hnote, hobserved⟩ := List.mem_filterMap.mp hevent
  cases note with
  | observe observed =>
    simp only [observedOf, Option.some.injEq] at hobserved
    subst hobserved
    simp [eventOf, Detachable.heard op conn hop observed hnote]
  | observeRoute update => cases hobserved

theorem eventsOf_produceAll (self : Initiator) (now turns room : ℕ) (conn : κ) :
    eventsOf self (produceAll now turns room conn).notes = [] := by
  induction turns generalizing room conn with
  | zero => rfl
  | succ turns ih =>
    cases room with
    | zero => rfl
    | succ room =>
      have hcall := eventsOf_call self (.writePkt now) conn rfl
      simp only [produceAll]
      split
      · rw [eventsOf_append, hcall, ih]
        rfl
      · exact hcall
      · exact hcall
      · exact hcall

theorem adds_produce (c : Connection κ) (capacityWaker : Option Waker) : Adds c (c.produce capacityWaker).2 [] ∧
    (c.produce capacityWaker).1.isSome = (c.produced c.conn).failure.isSome ∧
    ((c.produce capacityWaker).1 = none → (c.produce capacityWaker).2.closed = c.closed) := by
  have hnoted := adds_noted c (c.produced c.conn).notes (c.produced c.conn).conn
  rw [Connection.produced, eventsOf_produceAll] at hnoted
  have hsent := hnoted.trans (adds_send _ (c.produced c.conn).datagrams)
  simp only [Connection.produce, Connection.produced] at hsent ⊢
  split
  · rename_i error hfailure
    refine ⟨?_, by simp [hfailure], nofun⟩
    apply hsent.trans
    split
    · split <;> exact adds_of_eq rfl rfl rfl rfl (fun _ => rfl) rfl rfl
    · exact adds_of_eq rfl rfl rfl rfl (fun _ => rfl) rfl rfl
  · rename_i hfailure
    refine ⟨?_, by simp [hfailure], fun _ => ?_⟩
    · apply hsent.trans
      split
      · split <;> exact adds_of_eq rfl rfl rfl rfl (fun hclosed => hclosed) rfl rfl
      · exact adds_of_eq rfl rfl rfl rfl (fun hclosed => hclosed) rfl rfl
    · split
      · split <;> rfl
      · rfl

/-- What a part of the pump does: it records what the core answers, and queues the end if it is one. -/
structure Pumps (c : Connection κ) (answers : Answers κ) (result : Option JoinError × Connection κ) : Prop where
  fails : result.1.isSome = answers.isFailing
  ends : answers.isEnding = true → ∃ c' code, Adds c c' (eventsOf c.self answers.notes) ∧
    result.2 = c'.recordConnectionClosed code
  adds : answers.isEnding = false → Adds c result.2 (eventsOf c.self answers.notes) ∧
    (answers.isFailing = false → result.2.closed = c.closed)

theorem produced_noted (c : Connection κ) (notes : List Note) (conn conn' : κ) :
    (c.noted notes conn).produced conn' = c.produced conn' := by
  simp [Connection.produced, Connection.noted, outbound_notes]

theorem pumps_expire (c : Connection κ) (waker : Waker) :
    Pumps c (c.answersAfter ⟨.dry, [], [], c.conn⟩) (c.expire waker) := by
  simp only [Connection.answersAfter, Connection.expire]
  cases lapse c.now c.conn with
  | none =>
    obtain ⟨hadds, hfails, hopen⟩ := adds_produce c (some waker)
    constructor
    · exact hfails
    · nofun
    · intro _
      constructor
      · simpa [Answers.notes, Connection.produced, eventsOf_produceAll] using hadds
      · intro hnot
        have hnone : (c.produce (some waker)).1.isSome = false := hfails.trans hnot
        exact hopen (by simpa using hnone)
  | some answer =>
    obtain ⟨answer, notes, conn⟩ := answer
    have hnoted := adds_noted c notes conn
    rcases answer with error | (_ | _ | _)
    · refine ⟨rfl, fun _ => ⟨_, _, ?_, rfl⟩, nofun⟩
      simpa [Answers.notes] using hnoted
    · obtain ⟨hadds, hfails, hopen⟩ := adds_produce (c.noted notes conn) (some waker)
      rw [produced_noted] at hfails
      constructor
      · exact hfails
      · nofun
      · intro _
        constructor
        · have hquiet : eventsOf c.self (c.produced conn).notes = [] := eventsOf_produceAll ..
          simpa [Answers.notes, eventsOf_append, hquiet] using hnoted.trans hadds
        · intro hnot
          have hnone : ((c.noted notes conn).produce (some waker)).1.isSome = false := hfails.trans hnot
          exact hopen (by simpa using hnone)
    · refine ⟨rfl, fun _ => ⟨_, _, ?_, rfl⟩, nofun⟩
      simpa [Answers.notes] using hnoted
    · refine ⟨rfl, fun _ => ⟨_, _, ?_, rfl⟩, nofun⟩
      simpa [Answers.notes] using hnoted

theorem answersAfter_reading (c : Connection κ) {reading : Reading κ} (hdry : reading.verdict = .dry) :
    (c.answersAfter reading).notes = reading.notes ++ (c.answersAfter ⟨.dry, [], [], reading.conn⟩).notes ∧
    (c.answersAfter reading).isEnding = (c.answersAfter ⟨.dry, [], [], reading.conn⟩).isEnding ∧
    (c.answersAfter reading).isFailing = (c.answersAfter ⟨.dry, [], [], reading.conn⟩).isFailing := by
  simp only [Connection.answersAfter]
  split <;> simp [Answers.notes, Answers.isEnding, Answers.isFailing, hdry]

theorem pumps_pump (c : Connection κ) (waker : Waker) : Pumps c c.answers (c.pump waker) := by
  let reading := readAll c.now c.shared.inbound c.conn
  let c₀ : Connection κ := { c with
    wakers := registered c.wakers waker
    shared := { c.shared with inbound := reading.rest } }
  let c₁ := c₀.noted reading.notes reading.conn
  have hread : Adds c c₁ (eventsOf c.self reading.notes) :=
    (adds_of_eq rfl rfl rfl rfl (fun hclosed => hclosed) rfl rfl : Adds c c₀ []).behind (adds_noted c₀ reading.notes reading.conn)
  cases hverdict : reading.verdict with
  | failed error =>
    have hanswers : c.answers = ⟨reading, none, none⟩ := by simp [Connection.answers, reading, hverdict]
    have hpump : c.pump waker = (some (.ofTransport error), c₁.recordConnectionClosed none) := by
      simp [Connection.pump, reading, hverdict, c₁, c₀]
    rw [hanswers, hpump]
    refine ⟨by simp [Answers.isFailing, hverdict], fun _ => ⟨c₁, none, ?_, rfl⟩, ?_⟩
    · simpa [Answers.notes] using hread
    · simp [Answers.isEnding, hverdict]
  | ended =>
    have hanswers : c.answers = ⟨reading, none, none⟩ := by simp [Connection.answers, reading, hverdict]
    have hpump : c.pump waker =
        (none, c₁.recordConnectionClosed (applicationCode (Transport.closeError c₁.conn))) := by
      simp [Connection.pump, reading, hverdict, c₁, c₀]
    rw [hanswers, hpump]
    refine ⟨by simp [Answers.isFailing, hverdict], fun _ => ⟨c₁, _, ?_, rfl⟩, ?_⟩
    · simpa [Answers.notes] using hread
    · simp [Answers.isEnding, hverdict]
  | dry =>
    cases hclosed : c.closed with
    | true =>
      have hanswers : c.answers = ⟨reading, none, none⟩ := by simp [Connection.answers, reading, hclosed]
      have hpump : c.pump waker = (none, c₁) := by
        simp [Connection.pump, reading, hverdict, c₁, c₀, Connection.noted, hclosed]
      rw [hanswers, hpump]
      refine ⟨by simp [Answers.isFailing, hverdict], by simp [Answers.isEnding, hverdict], fun _ => ⟨?_, fun _ => rfl⟩⟩
      simpa [Answers.notes] using hread
    | false =>
      have hanswers : c.answers = c.answersAfter reading := by simp [Connection.answers, reading, hverdict, hclosed]
      have hafter : c₁.answersAfter ⟨.dry, [], [], c₁.conn⟩ = c.answersAfter ⟨.dry, [], [], reading.conn⟩ := by
        simp only [Connection.answersAfter, c₁, produced_noted]
        rfl
      have hpump : c.pump waker = c₁.expire waker := by
        simp [Connection.pump, reading, hverdict, c₁, c₀, Connection.noted, hclosed]
      obtain ⟨hnotes, hending, hfailing⟩ := answersAfter_reading c hverdict
      obtain ⟨hfails, hends, hadds⟩ := pumps_expire c₁ waker
      rw [hafter] at hfails hends hadds
      rw [hanswers, hpump]
      constructor
      · exact hfails.trans hfailing.symm
      · intro hand
        obtain ⟨c', code, hadds', heq⟩ := hends (hending.symm.trans hand)
        refine ⟨c', code, ?_, heq⟩
        rw [hnotes, eventsOf_append]
        exact hread.trans hadds'
      · intro hnot
        obtain ⟨hadds', hopen⟩ := hadds (hending.symm.trans hnot)
        rw [hnotes, eventsOf_append, hfailing]
        exact ⟨hread.trans hadds', hopen⟩

end Adding

/-! ## Pumps -/

section Pumping
variable {κ : Type} {c c' : Connection κ} {events : List QuicEvent}

theorem queued_of_adds (h : Adds c c' events) : c'.queued = c.queued := by
  rw [Connection.queued, h.pending, h.self]
  rfl

theorem hasEnded_of_adds (h : Adds c c' events) : c'.HasEnded ↔ c.HasEnded := by
  simp [Connection.HasEnded, h.reported, h.pending]

theorem Sound.closed (h : Sound c) (hended : c.HasEnded) : c.closed = true := by
  rcases hended with hreported | ⟨code, hmem⟩
  · exact (h.reported hreported).2.2
  · obtain ⟨before, after, heq⟩ := List.append_of_mem hmem
    exact (h.last code before after heq).2.2.1

theorem Sound.adds (h : Sound c) (hadds : Adds c c' events) (hended : c.HasEnded → events = []) : Sound c' where
  placed := by
    rw [hadds.history]
    exact placed_recorded h.placed events
  balance := by
    rw [hadds.history, queued_of_adds hadds, hadds.uncollected]
    simp only [returned_append, returned_map, recorded_append, recorded_map, List.append_nil]
    rw [← h.balance]
    simp
  last code before after heq := by
    rw [hadds.pending] at heq
    obtain ⟨hafter, hnone, hclosed, hreported⟩ := h.last code before after heq
    have hevents := hended (.inr ⟨code, by simp [heq]⟩)
    rw [hadds.self]
    exact ⟨hafter, by simp [hadds.uncollected, hnone, hevents], hadds.closed hclosed, hadds.reported.trans hreported⟩
  reported hreported := by
    rw [hadds.reported] at hreported
    obtain ⟨hqueued, hnone, hclosed⟩ := h.reported hreported
    have hevents := hended (.inl hreported)
    exact ⟨(queued_of_adds hadds).trans hqueued, by simp [hadds.uncollected, hnone, hevents], hadds.closed hclosed⟩
  told code hmem := by
    rw [hadds.history, List.mem_append] at hmem
    rw [hadds.reported]
    exact h.told code (hmem.resolve_right (by simp))
  batch hemitted last hlast := by
    rw [hadds.history, lastResult_map] at hlast
    exact h.batch (hadds.emitted ▸ hemitted) last hlast

theorem queued_recordConnectionClosed (c : Connection κ) (code : Option ℕ) :
    (c.recordConnectionClosed code).queued = c.queued := by
  simp [Connection.queued, Connection.recordConnectionClosed, Connection.streamEvent]

theorem Sound.ends (h : Sound c) (hended : ¬ c.HasEnded) (hnone : c.uncollected = []) (code : Option ℕ) :
    Sound (c.recordConnectionClosed code) := by
  have hreported : c.reportedClosed = false := by
    by_contra hreported
    exact hended (.inl (by simpa using hreported))
  constructor
  case placed => exact h.placed
  case balance =>
    rw [queued_recordConnectionClosed]
    exact h.balance
  case last =>
    intro code' before after heq
    have hfront : ∀ code, .connectionClosed code ∉ c.pending := fun code hmem => hended (.inr ⟨code, hmem⟩)
    simp only [Connection.recordConnectionClosed] at heq
    induction after using List.reverseRecOn with
    | nil => exact ⟨nofun, hnone, rfl, hreported⟩
    | append_singleton after record _ =>
      rw [← List.cons_append, ← List.append_assoc] at heq
      obtain ⟨hpending, -⟩ := List.append_inj' heq rfl
      exact absurd (by simp [hpending]) (hfront code')
  case reported =>
    intro htrue
    exact absurd (.inl htrue) hended
  case told => exact h.told
  case batch => exact h.batch

variable [Detachable κ]

theorem sound_pump (h : Sound c) (hcalm : Calm c) (waker : Waker) : Sound (c.pump waker).2 := by
  have hpump := pumps_pump c waker
  cases hending : c.answers.isEnding with
  | true =>
    obtain ⟨c', code, hadds, heq⟩ := hpump.ends hending
    obtain ⟨hnone, hevents⟩ := hcalm.ending hending
    have hended : ¬ c.HasEnded := by
      intro hended
      rw [(hcalm.ended hended).1] at hending
      cases hending
    have hsound := h.adds hadds fun hended' => absurd hended' hended
    rw [heq]
    exact hsound.ends (by rwa [hasEnded_of_adds hadds]) (by simp [hadds.uncollected, hnone, hevents]) code
  | false => exact h.adds (hpump.adds hending).1 fun hended => (hcalm.ended hended).2

theorem not_failing (h : Sound c) (hcalm : Calm c) (hended : c.HasEnded) : c.answers.isFailing = false := by
  have hnot := (hcalm.ended hended).1
  have hclosed := h.closed hended
  have hanswers : c.answers = ⟨readAll c.now c.shared.inbound c.conn, none, none⟩ := by
    simp [Connection.answers, hclosed]
  rw [hanswers] at hnot ⊢
  simp only [Answers.isEnding] at hnot
  split at hnot
  · rename_i hdry
    simp [Answers.isFailing, hdry]
  · cases hnot

end Pumping

/-! ## Collecting -/

section Collecting
variable {κ : Type} [Detachable κ] {c : Connection κ}

/-- What collecting these observations does. -/
structure Collects (c c' : Connection κ) (observed : List Observed) : Prop where
  self : c'.self = c.self
  pending : c'.pending = c.pending ++ observed.filterMap Recorded.ofObserved
  closed : c'.closed = c.closed
  reported : c'.reportedClosed = c.reportedClosed
  emitted : c'.emittedSincePending = c.emittedSincePending
  history : c'.history = c.history
  shared : c'.shared = c.shared

theorem collects_one (c : Connection κ) (event : Observed) : Collects c (c.collectOne event) [event] := by
  cases event <;> simp only [Connection.collectOne] <;>
    constructor <;> simp [Recorded.ofObserved, Connection.wake]

theorem collects_all (observed : List Observed) (c : Connection κ) :
    Collects c (observed.foldl Connection.collectOne c) observed := by
  induction observed generalizing c with
  | nil => exact ⟨rfl, by simp, rfl, rfl, rfl, rfl, rfl⟩
  | cons event observed ih =>
    have hone := collects_one c event
    have hall := ih (c.collectOne event)
    rw [List.foldl_cons]
    constructor
    · exact hall.self.trans hone.self
    · rw [hall.pending, hone.pending, List.append_assoc, ← List.filterMap_append]
      rfl
    · exact hall.closed.trans hone.closed
    · exact hall.reported.trans hone.reported
    · exact hall.emitted.trans hone.emitted
    · exact hall.history.trans hone.history
    · exact hall.shared.trans hone.shared

theorem collects (c : Connection κ) :
    Collects { c with shared := { c.shared with observed := [] } } c.collect c.shared.observed :=
  collects_all ..

theorem queued_collect (c : Connection κ) : c.collect.queued = c.queued ++ c.uncollected := by
  have h := collects c
  rw [Connection.queued, h.pending, h.self, List.filterMap_append, List.filterMap_filterMap]
  congr 1
  refine List.filterMap_congr fun event _ => ?_
  cases event <;> rfl

theorem uncollected_collect (c : Connection κ) : c.collect.uncollected = [] := by
  rw [Connection.uncollected, (collects c).shared]
  rfl

theorem connectionClosed_collect (code : Option ℕ) :
    .connectionClosed code ∈ c.collect.pending ↔ .connectionClosed code ∈ c.pending := by
  rw [(collects c).pending, List.mem_append]
  constructor
  · rintro (hmem | hmem)
    · exact hmem
    · obtain ⟨event, -, hrecord⟩ := List.mem_filterMap.mp hmem
      cases event <;> simp [Recorded.ofObserved] at hrecord
  · exact .inl

theorem sound_collect (h : Sound c) : Sound c.collect := by
  have hcollects := collects c
  constructor
  case placed =>
    rw [hcollects.history]
    exact h.placed
  case balance =>
    rw [hcollects.history, queued_collect, uncollected_collect, List.append_nil]
    exact h.balance
  case last =>
    intro code before after heq
    have hnew : .connectionClosed code ∉ c.shared.observed.filterMap Recorded.ofObserved := by
      intro hmem
      obtain ⟨event, -, hrecord⟩ := List.mem_filterMap.mp hmem
      cases event <;> simp [Recorded.ofObserved] at hrecord
    rw [hcollects.pending] at heq
    rcases List.append_eq_append_iff.mp heq with ⟨front, -, hobserved⟩ | ⟨front, hpending, hrest⟩
    · exact absurd (by simp [hobserved]) hnew
    · cases front with
      | nil =>
        rw [List.nil_append] at hrest
        exact absurd (by simp [← hrest]) hnew
      | cons record after' =>
        obtain ⟨rfl, rfl⟩ := List.cons.inj hrest
        obtain ⟨hafter, hnone, hclosed, hreported⟩ := h.last code before after' hpending
        refine ⟨?_, uncollected_collect c, hcollects.closed.trans hclosed, hcollects.reported.trans hreported⟩
        intro record hrecord
        rw [hcollects.self]
        rcases List.mem_append.mp hrecord with hrecord | hrecord
        · exact hafter record hrecord
        · obtain ⟨event, hevent, hof⟩ := List.mem_filterMap.mp hrecord
          have := List.filterMap_eq_nil_iff.mp hnone event hevent
          simpa [eventOf, hof] using this
  case reported =>
    intro hreported
    rw [hcollects.reported] at hreported
    obtain ⟨hqueued, hnone, hclosed⟩ := h.reported hreported
    exact ⟨by rw [queued_collect, hqueued, hnone]; rfl, uncollected_collect c, hcollects.closed.trans hclosed⟩
  case told =>
    rw [hcollects.history, hcollects.reported]
    exact h.told
  case batch =>
    rw [hcollects.history, hcollects.emitted]
    exact h.batch

end Collecting

/-! ## Telling -/

section Telling
variable {κ : Type} {c : Connection κ}

/-- How `poll_event` goes through the records. Those it skips are no events. -/
inductive Takes (c : Connection κ) (waker : Waker) (pending : List Recorded) :
    Option (Poll QuicEvent) × Connection κ → Prop
  | none (hskipped : ∀ record ∈ pending, record.intoEvent c.self = none) : Takes c waker pending (none, { c with pending := [] })
  | waits {skipped rest : List Recorded} {record : Recorded} (heq : pending = skipped ++ record :: rest)
      (hskipped : ∀ record ∈ skipped, record.intoEvent c.self = none) (hemitted : c.emittedSincePending = true) :
      Takes c waker pending
        (some .pending, { c.wake [waker] with pending := record :: rest, emittedSincePending := false })
  | event {skipped rest : List Recorded} {record : Recorded} {event : QuicEvent}
      (heq : pending = skipped ++ record :: rest) (hskipped : ∀ record ∈ skipped, record.intoEvent c.self = none)
      (hevent : record.intoEvent c.self = some event)
      (hfirst : record.endsAStream = true → c.emittedSincePending = false) :
      Takes c waker pending (some (.ready event), { c with
        pending := rest
        reportedClosed := c.reportedClosed || isEnd event
        emittedSincePending := true })

theorem takes (waker : Waker) (pending : List Recorded) (c : Connection κ) :
    Takes c waker pending (Connection.takeEvent waker pending c) := by
  induction pending with
  | nil => exact .none nofun
  | cons record pending ih =>
    simp only [Connection.takeEvent]
    split
    · rename_i hwaits
      exact .waits (List.nil_append _).symm nofun (by simp_all)
    · rename_i hgoes
      split
      · rename_i event hevent
        exact .event (List.nil_append _).symm nofun hevent (by simpa using hgoes)
      · rename_i hnone
        generalize Connection.takeEvent waker pending c = taken at ih
        cases ih with
        | none hskipped => exact .none (by simp_all)
        | waits heq hskipped hemitted => exact .waits (by rw [heq]; rfl) (List.forall_mem_cons.mpr ⟨hnone, hskipped⟩) hemitted
        | event heq hskipped hevent hfirst => 
          exact .event (by rw [heq]; rfl) (List.forall_mem_cons.mpr ⟨hnone, hskipped⟩) hevent hfirst

theorem placed_pending (history : List Moment) : Placed history .pending := by
  constructor <;> simp [Moment.isReady, Moment.isEnding]

theorem Sound.skip (h : Sound c) (hrecord : ∀ record ∈ c.pending, record.intoEvent c.self = none) :
    Sound { c with pending := [] } := by
  have hqueued : c.queued = [] := by
    rw [Connection.queued, List.filterMap_eq_nil_iff]
    intro record hmem
    have := hrecord record hmem
    cases record <;> simp_all [Connection.streamEvent, Recorded.intoEvent]
  constructor
  case placed => exact h.placed
  case balance =>
    have := h.balance
    rw [hqueued] at this
    exact this
  case last => exact fun code before after heq => by simp at heq
  case reported => exact fun hreported => ⟨rfl, (h.reported hreported).2⟩
  case told => exact h.told
  case batch => exact h.batch

theorem queued_skipped {pending skipped : List Recorded} {self : Initiator} (rest : List Recorded)
    (heq : pending = skipped ++ rest) (hskipped : ∀ record ∈ skipped, record.intoEvent self = none) :
    pending.filterMap (Connection.streamEvent self) = rest.filterMap (Connection.streamEvent self) := by
  have hnone : skipped.filterMap (Connection.streamEvent self) = [] := by
    rw [List.filterMap_eq_nil_iff]
    intro record hrecord
    have := hskipped record hrecord
    cases record <;> simp_all [Connection.streamEvent, Recorded.intoEvent]
  rw [heq, List.filterMap_append, hnone, List.nil_append]

theorem Sound.pends (h : Sound c) {c' : Connection κ} {skipped : List Recorded}
    (hpending : c.pending = skipped ++ c'.pending) (hskipped : ∀ record ∈ skipped, record.intoEvent c.self = none)
    (hself : c'.self = c.self) (hclosed : c'.closed = c.closed) (hreported : c'.reportedClosed = c.reportedClosed)
    (hhistory : c'.history = c.history ++ [.pending]) (hobserved : c'.shared.observed = c.shared.observed) :
    Sound c' := by
  have hqueued : c'.queued = c.queued := by
    rw [Connection.queued, Connection.queued, hself, queued_skipped _ hpending hskipped]
  have huncollected : c'.uncollected = c.uncollected := by
    rw [Connection.uncollected, Connection.uncollected, hself, hobserved]
  constructor
  case placed =>
    rw [hhistory]
    exact atEach_concat.mpr ⟨h.placed, placed_pending _⟩
  case balance =>
    rw [hhistory, hqueued, huncollected]
    simpa using h.balance
  case last =>
    intro code before after heq
    rw [hself, huncollected, hclosed, hreported]
    exact h.last code (skipped ++ before) after (by rw [hpending, heq, List.append_assoc])
  case reported =>
    rw [hqueued, huncollected, hclosed, hreported]
    exact h.reported
  case told =>
    intro code hmem
    rw [hreported]
    exact h.told code (by simpa [hhistory] using hmem)
  case batch =>
    intro _ last hlast hready
    rw [hhistory, lastResult_concat rfl] at hlast
    cases hlast
    cases hready

theorem Sound.fits (h : Sound c) {event : QuicEvent} (hreported : c.reportedClosed = false)
    (htold : isEnd event = false → [event] <+: c.queued ++ c.uncollected)
    (hend : isEnd event = true → c.queued = [] ∧ c.uncollected = [])
    (hfirst : endsAStream event = true → ∀ last, lastResult c.history = some last → last.isReady = false) :
    Placed c.history (.ready (.ok event)) := by
  constructor
  case inOrder =>
    intro _
    rw [← h.balance, returned_append]
    apply (List.prefix_append_right_inj _).mpr
    rw [returned_event]
    split
    · exact List.nil_prefix
    · rename_i hnot
      exact htold (by simpa using hnot)
  case complete =>
    intro hending _
    obtain ⟨hqueued, hnone⟩ := hend hending
    rw [← h.balance, hqueued, hnone]
    simp
  case once =>
    intro _ code hmem
    rw [h.told code hmem] at hreported
    cases hreported
  case fresh =>
    intro event' heq hends
    cases heq
    exact hfirst hends

theorem intoEvent_cases {record : Recorded} {self : Initiator} {event : QuicEvent}
    (h : record.intoEvent self = some event) : record.endsAStream = endsAStream event ∧
      ((∃ code, record = .connectionClosed code ∧ event = .closed code) ∨
        isEnd event = false ∧ Connection.streamEvent self record = some event) := by
  cases record with
  | peerOpened stream =>
    simp only [Recorded.intoEvent] at h
    split at h
    · rename_i hannounces
      cases h
      exact ⟨rfl, .inr ⟨rfl, by simp [Connection.streamEvent, Recorded.intoEvent, hannounces]⟩⟩
    · cases h
  | connectionClosed code =>
    cases h
    exact ⟨rfl, .inl ⟨code, rfl, rfl⟩⟩
  | _ =>
    cases h
    exact ⟨rfl, .inr ⟨rfl, rfl⟩⟩

theorem Sound.tells (h : Sound c) {skipped rest : List Recorded} {record : Recorded} {event : QuicEvent}
    (hpending : c.pending = skipped ++ record :: rest) (hskipped : ∀ record ∈ skipped, record.intoEvent c.self = none)
    (hevent : record.intoEvent c.self = some event) (hnone : c.uncollected = [])
    (hfirst : record.endsAStream = true → c.emittedSincePending = false)
    (hretry : c.emittedSincePending = false → ∀ last, lastResult c.history = some last → last.isError = false) :
    Sound { c with
      pending := rest
      reportedClosed := c.reportedClosed || isEnd event
      emittedSincePending := true
      history := c.history ++ [.ready (.ok event)] } := by
  have hqueued : c.queued = (record :: rest).filterMap (Connection.streamEvent c.self) :=
    queued_skipped _ hpending hskipped
  obtain ⟨hends, hcases⟩ := intoEvent_cases hevent
  have hfresh : endsAStream event = true → ∀ last, lastResult c.history = some last → last.isReady = false := by
    intro hending last hlast
    have hemitted := hfirst (hends.trans hending)
    by_contra hready
    have := h.batch hemitted last hlast (by simpa using hready)
    rw [hretry hemitted last hlast] at this
    cases this
  rcases hcases with ⟨code, rfl, rfl⟩ | ⟨hstream, hrecord⟩
  · obtain ⟨hafter, -, hclosed, hreported⟩ := h.last code skipped rest hpending
    have hrest : rest.filterMap (Connection.streamEvent c.self) = [] := by
      have := queued_skipped [] (List.append_nil rest).symm hafter
      simpa using this
    have hqueued' : c.queued = [] := by simpa [hqueued, Connection.streamEvent] using hrest
    constructor
    case placed =>
      refine atEach_concat.mpr ⟨h.placed, h.fits hreported nofun (fun _ => ⟨hqueued', hnone⟩) hfresh⟩
    case balance =>
      have hbalance := h.balance
      rw [hqueued', hnone] at hbalance
      show returned (c.history ++ _) ++ (rest.filterMap (Connection.streamEvent c.self) ++ c.uncollected) =
        recorded (c.history ++ _)
      rw [hrest, hnone]
      simpa [isEnd] using hbalance
    case last =>
      intro code' before after heq
      have := hafter (.connectionClosed code') (by simp [show rest = _ from heq])
      cases this
    case reported => exact fun _ => ⟨hrest, hnone, hclosed⟩
    case told => exact fun _ _ => by simp [isEnd]
    case batch => nofun
  · have hreported : c.reportedClosed = false := by
      by_contra hreported
      have := (h.reported (by simpa using hreported)).1
      rw [hqueued, List.filterMap_cons, hrecord] at this
      cases this
    have hqueued' : c.queued = event :: rest.filterMap (Connection.streamEvent c.self) := by
      rw [hqueued, List.filterMap_cons, hrecord]
    have hfits : Placed c.history (.ready (.ok event)) := by
      apply h.fits hreported
      · intro _
        rw [hqueued']
        simp
      · rw [hstream]
        nofun
      · exact hfresh
    constructor
    case placed => exact atEach_concat.mpr ⟨h.placed, hfits⟩
    case balance =>
      have hbalance := h.balance
      rw [hqueued'] at hbalance
      simpa [Connection.queued, Connection.uncollected, hstream] using hbalance
    case last =>
      intro code before after heq
      have hback : c.pending = (skipped ++ record :: before) ++ .connectionClosed code :: after := by
        rw [hpending, show rest = _ from heq]
        simp
      obtain ⟨hafter, hnone, hclosed, -⟩ := h.last code _ after hback
      exact ⟨hafter, hnone, hclosed, by simp [hreported, hstream]⟩
    case reported => simp [hreported, hstream]
    case told =>
      intro code hmem
      rcases List.mem_append.mp hmem with hmem | hmem
      · rw [h.told code hmem] at hreported
        cases hreported
      · simp only [List.mem_singleton, Moment.ready.injEq, Except.ok.injEq] at hmem
        subst hmem
        cases hstream
    case batch => nofun

theorem Sound.fails (h : Sound c) (hqueued : c.queued = []) (hnone : c.uncollected = [])
    (hreported : c.reportedClosed = false) (error : JoinError) :
    Sound { c with history := c.history ++ [.ready (.error error)] } := by
  have hbalance := h.balance
  rw [hqueued, hnone, List.append_nil, List.append_nil] at hbalance
  constructor
  case placed =>
    refine atEach_concat.mpr ⟨h.placed, ?_⟩
    constructor
    case inOrder => simp [hbalance]
    case complete => exact fun _ _ => hbalance
    case once =>
      intro _ code hmem
      rw [h.told code hmem] at hreported
      cases hreported
    case fresh => nofun
  case balance =>
    show returned (c.history ++ _) ++ (c.queued ++ c.uncollected) = recorded (c.history ++ _)
    rw [hqueued, hnone]
    simpa using hbalance
  case last => exact h.last
  case reported => exact h.reported
  case told =>
    intro code hmem
    exact h.told code (by simpa using hmem)
  case batch =>
    intro _ last hlast _
    rw [lastResult_concat rfl] at hlast
    cases hlast
    rfl

theorem Sound.bare (h : Sound c) (hqueued : c.queued = []) (hnone : c.uncollected = [])
    (hrecord : ∀ record ∈ c.pending, record.intoEvent c.self = none) (hclosed : c.closed = true)
    (hreported : c.reportedClosed = false)
    (hfresh : ∀ last, lastResult c.history = some last → last.isReady = false) :
    Sound { c with
      reportedClosed := true
      emittedSincePending := true
      history := c.history ++ [.ready (.ok (.closed none))] } := by
  have hbalance := h.balance
  rw [hqueued, hnone, List.append_nil, List.append_nil] at hbalance
  constructor
  case placed =>
    exact atEach_concat.mpr ⟨h.placed, h.fits hreported nofun (fun _ => ⟨hqueued, hnone⟩) fun _ => hfresh⟩
  case balance =>
    show returned (c.history ++ _) ++ (c.queued ++ c.uncollected) = recorded (c.history ++ _)
    rw [hqueued, hnone]
    simpa [isEnd] using hbalance
  case last =>
    intro code before after heq
    have := hrecord (.connectionClosed code) (by simp [show c.pending = _ from heq])
    cases this
  case reported => exact fun _ => ⟨hqueued, hnone, hclosed⟩
  case told => exact fun _ _ => rfl
  case batch => nofun

end Telling

/-! ## Steps -/

section Steps
variable {κ σ : Type} [Detachable κ] [StreamSource σ] {c c' : Connection κ} {events : List QuicEvent}

theorem pump_keeps (c : Connection κ) (waker : Waker) : (c.pump waker).2.queued = c.queued ∧
    (c.pump waker).2.uncollected = c.uncollected ++ eventsOf c.self c.answers.notes ∧
    (c.pump waker).2.reportedClosed = c.reportedClosed ∧
    (c.pump waker).2.emittedSincePending = c.emittedSincePending ∧
    (c.pump waker).2.history = c.history ++ (eventsOf c.self c.answers.notes).map .recorded := by
  have hpump := pumps_pump c waker
  cases hending : c.answers.isEnding with
  | true =>
    obtain ⟨c', code, hadds, heq⟩ := hpump.ends hending
    rw [heq, queued_recordConnectionClosed]
    exact ⟨queued_of_adds hadds, hadds.uncollected, hadds.reported, hadds.emitted, hadds.history⟩
  | false =>
    obtain ⟨hadds, -⟩ := hpump.adds hending
    exact ⟨queued_of_adds hadds, hadds.uncollected, hadds.reported, hadds.emitted, hadds.history⟩

omit [Detachable κ] in
theorem pollArmed_eq (c : Connection κ) (waker : Waker) (preservedReady : Bool) : ∃ sleeping sleepingUntil,
    (c.pollArmed waker preservedReady).2 = { c with sleeping, sleepingUntil } := by
  rw [Connection.pollArmed]
  split
  · exact ⟨_, _, rfl⟩
  · split <;> exact ⟨_, _, rfl⟩

theorem pollTimer_eq (c : Connection κ) (waker : Waker) : ∃ sleeping sleepingUntil,
    (c.pollTimer waker).2 = { c with sleeping, sleepingUntil } := by
  have harmed : ∀ deadline preservedReady, ∃ sleeping sleepingUntil,
      ((c.arm deadline).pollArmed waker preservedReady).2 = { c with sleeping, sleepingUntil } :=
    fun deadline preservedReady => pollArmed_eq (c.arm deadline) waker preservedReady
  rw [Connection.pollTimer]
  repeat' split
  · exact ⟨_, _, rfl⟩
  · exact pollArmed_eq c waker false
  · exact harmed _ true
  · exact ⟨_, _, rfl⟩
  · exact harmed _ false
  · exact harmed _ false

theorem sound_quiet (h : Sound c) (waker : Waker) (hqueued : c.queued = []) (hnone : c.uncollected = [])
    (hrecord : ∀ record ∈ c.pending, record.intoEvent c.self = none)
    (hfresh : c.closed = true → c.reportedClosed = false →
      ∀ last, lastResult c.history = some last → last.isReady = false) :
    Sound { (c.pollQuiet waker).2 with
      history := (c.pollQuiet waker).2.history ++ [Connection.momentOf (c.pollQuiet waker).1] } := by
  simp only [Connection.pollQuiet]
  split
  · rename_i hbare
    simp only [Bool.and_eq_true, Bool.not_eq_true'] at hbare
    exact h.bare hqueued hnone hrecord hbare.1 hbare.2 (hfresh hbare.1 hbare.2)
  · obtain ⟨sleeping, sleepingUntil, htimer⟩ := pollTimer_eq c waker
    rw [htimer]
    split
    · exact h.pends (List.nil_append _).symm nofun rfl rfl rfl rfl rfl
    · exact h.pends (List.nil_append _).symm nofun rfl rfl rfl rfl rfl

theorem sound_pollEvent (h : Sound c) (hprepared : Prepared c) (waker : Waker) : Sound (c.pollEvent waker).2 := by
  have hpump := pumps_pump c waker
  have hsound := sound_pump h hprepared.toCalm waker
  obtain ⟨hqueued, huncollected, hreported, hemitted, hhistory⟩ := pump_keeps c waker
  simp only [Connection.pollEvent, Connection.answerEvent]
  generalize c.pump waker = result at *
  obtain ⟨error, c₁⟩ := result
  cases error with
  | some error =>
    have hfailing : c.answers.isFailing = true := hpump.fails.symm
    obtain ⟨hq, hu, hevents⟩ := hprepared.failing hfailing
    have hnot : c.reportedClosed = false := by
      by_contra hreported
      have := not_failing h hprepared.toCalm (.inl (by simpa using hreported))
      rw [this] at hfailing
      cases hfailing
    exact hsound.fails (hqueued.trans hq) (by rw [huncollected, hu, hevents]; rfl) (hreported.trans hnot) error
  | none =>
    have hcollects := collects c₁
    have hcollected := sound_collect hsound
    have hretry : c₁.collect.emittedSincePending = false → ∀ last, lastResult c₁.collect.history = some last →
        last.isError = false := by
      rw [hcollects.emitted, hcollects.history, show c₁.history = _ from hhistory, lastResult_map,
        show c₁.emittedSincePending = _ from hemitted]
      exact hprepared.retry
    have htakes := takes waker c₁.collect.pending c₁.collect
    dsimp only
    generalize Connection.takeEvent waker c₁.collect.pending c₁.collect = taken at htakes
    cases htakes with
    | none hskipped =>
      have hqueued' : c.queued ++ (c.uncollected ++ eventsOf c.self c.answers.notes) = [] := by
        have hnone : c₁.collect.queued = [] := by
          have := queued_skipped [] (List.append_nil _).symm hskipped
          exact this
        rw [queued_collect] at hnone
        rwa [show c₁.queued = _ from hqueued, show c₁.uncollected = _ from huncollected] at hnone
      simp only [List.append_eq_nil_iff] at hqueued'
      have hunended : ∀ code, .connectionClosed code ∉ c₁.pending := by
        intro code hmem
        have := hskipped _ (connectionClosed_collect code |>.mpr hmem)
        cases this
      have hending : c.answers.isEnding = false := by
        by_contra hending
        obtain ⟨c', code, -, heq⟩ := hpump.ends (by simpa using hending)
        exact hunended code (by simp [show c₁ = _ from heq, Connection.recordConnectionClosed])
      obtain ⟨hadds, hopen⟩ := hpump.adds hending
      refine sound_quiet (hcollected.skip hskipped) waker rfl (uncollected_collect c₁) nofun fun hclosed hnot => ?_
      have hclosed' : c.closed = true := by
        rw [← show c₁.closed = _ from hopen hpump.fails.symm, ← hcollects.closed]
        exact hclosed
      have hnot' : c.reportedClosed = false := by
        rw [← show c₁.reportedClosed = _ from hreported, ← hcollects.reported]
        exact hnot
      have hended : ¬ c.HasEnded := by
        rintro (hended | ⟨code, hmem⟩)
        · rw [hnot'] at hended
          cases hended
        · exact hunended code (by rwa [show c₁.pending = _ from hadds.pending])
      have hfirst := hprepared.bare hclosed' hended hending hqueued'.1 hqueued'.2.1 hqueued'.2.2
      intro last hlast
      have hlast' : lastResult c.history = some last := by
        rwa [show lastResult c₁.collect.history = _ from by
          rw [hcollects.history, show c₁.history = _ from hhistory, lastResult_map]] at hlast
      by_contra hready
      have := h.batch hfirst last hlast' (by simpa using hready)
      rw [hprepared.retry hfirst last hlast'] at this
      cases this
    | waits heq hskipped hwaits =>
      exact hcollected.pends heq hskipped rfl rfl rfl rfl rfl
    | event heq hskipped hevent hfirst =>
      exact hcollected.tells heq hskipped hevent (uncollected_collect c₁) hfirst hretry

omit [Detachable κ] in
theorem Sound.quiet (h : Sound c) (hadds : Adds c c' []) : Sound c' := h.adds hadds fun _ => rfl

theorem adds_call {α : Type} (c : Connection κ) (op : ConnCall α) (conn conn' : κ) (hop : hears op = false) :
    Adds c (c.noted (Transport.call op conn).2.1 conn') [] := by
  have := adds_noted c (Transport.call op conn).2.1 conn'
  rwa [eventsOf_call c.self op conn hop] at this

omit [Detachable κ] in
theorem adds_wake (c : Connection κ) (wakers : List Waker) : Adds c (c.wake wakers) [] :=
  adds_of_eq rfl rfl rfl rfl (fun hclosed => hclosed) rfl rfl

theorem adds_pollTimer (c : Connection κ) (waker : Waker) : Adds c (c.pollTimer waker).2 [] := by
  obtain ⟨sleeping, sleepingUntil, htimer⟩ := pollTimer_eq c waker
  rw [htimer]
  exact adds_of_eq rfl rfl rfl rfl (fun hclosed => hclosed) rfl rfl

theorem sound_pollOpen (h : Sound c) (hcalm : Calm c) (bidi : Bool) (waker : Waker) :
    Sound (c.pollOpen bidi waker).2 := by
  have hsound := sound_pump h hcalm waker
  simp only [Connection.pollOpen]
  generalize c.pump waker = result at *
  obtain ⟨_ | error, c₁⟩ := result
  · have hcollected := sound_collect hsound
    dsimp only
    split
    · exact hcollected
    · have hcall := adds_call c₁.collect (if bidi then .openBidiStream else .openUniStream) c₁.collect.conn
        (Transport.call (if bidi then .openBidiStream else .openUniStream) c₁.collect.conn).2.2
        (by cases bidi <;> rfl)
      split
      · have hproduce := (adds_produce (c₁.collect.noted
          (Transport.call (if bidi then .openBidiStream else .openUniStream) c₁.collect.conn).2.1
          (Transport.call (if bidi then .openBidiStream else .openUniStream) c₁.collect.conn).2.2) (some waker)).1
        have hsound' := hcollected.quiet (hcall.trans hproduce)
        split
        · rename_i heq
          rw [heq] at hsound'
          exact hsound'
        · rename_i heq
          rw [heq] at hsound'
          exact hsound'
      · split
        · exact hcollected.quiet
            (hcall.trans (adds_of_eq rfl rfl rfl rfl (fun hclosed => hclosed) rfl rfl))
        · exact hcollected.quiet hcall
  · exact hsound

omit [Detachable κ] in
theorem Sound.releases (h : Sound c) (hclosed : c.closed = false) (stream : StreamId) (bytes : ℕ)
    (hnone : c.uncollected = []) : Sound (c.recordReleased stream bytes) := by
  have hended : ¬ c.HasEnded := by
    intro hended
    rw [h.closed hended] at hclosed
    cases hclosed
  have hqueued : (c.recordReleased stream bytes).queued = c.queued ++ [.released stream bytes true] := by
    simp [Connection.queued, Connection.recordReleased, Connection.streamEvent, Recorded.intoEvent]
  have hrecorded : ∀ history : List Moment,
      recorded (history ++ [.recorded (.released stream bytes true)]) =
        recorded history ++ [.released stream bytes true] := by
    intro history
    rw [recorded_append]
    rfl
  constructor
  case placed =>
    have := placed_recorded h.placed [.released stream bytes true]
    exact this
  case balance =>
    have hbalance := h.balance
    rw [hqueued, show (c.recordReleased stream bytes).uncollected = c.uncollected from rfl, hnone,
      show (c.recordReleased stream bytes).history = c.history ++ [.recorded (.released stream bytes true)] from rfl,
      hrecorded, ← hbalance, hnone]
    simp [returned, Moment.returnedOf, List.filterMap_cons]
  case last =>
    intro code before after heq
    have hmem : .connectionClosed code ∈ c.pending ++ [.released stream bytes] := by
      rw [show c.pending ++ [Recorded.released stream bytes] = _ from heq]
      simp
    exact absurd (.inr ⟨code, by simpa using hmem⟩) hended
  case reported => exact fun hreported => absurd (.inl hreported) hended
  case told =>
    intro code hmem
    exact h.told code (by simpa [Connection.recordReleased] using hmem)
  case batch =>
    intro hemitted last hlast
    refine h.batch hemitted last ?_
    rw [← hlast]
    exact (lastResult_map c.history [.released stream bytes true]).symm

theorem eventsOf_offerAll (self : Initiator) (now offers room : ℕ) (source : σ) (conn : κ) :
    eventsOf self (offerAll now offers room source conn).notes = [] := by
  induction offers generalizing room source conn with
  | zero => rfl
  | succ offers ih =>
    cases room with
    | zero => rfl
    | succ room =>
      simp only [offerAll]
      split
      · rfl
      · rename_i stream slices fin apply _
        have hcall := eventsOf_call self (.writeStream stream slices.flatten fin now) conn rfl
        generalize Transport.call (.writeStream stream slices.flatten fin now) conn = answer at hcall
        obtain ⟨⟨answer, buffer⟩, notes, conn⟩ := answer
        dsimp only at hcall ⊢
        repeat' split
        all_goals simp only [Pass.behind, eventsOf_append, hcall, ih, List.nil_append]
        all_goals rfl

omit [Detachable κ] in
theorem sound_releases (accepted : List (StreamId × ℕ)) (c : Connection κ) (h : Sound c) (hclosed : c.closed = false)
    (hnone : c.uncollected = []) :
    Sound (accepted.foldl (fun c released => c.recordReleased released.1 released.2) c) := by
  induction accepted generalizing c with
  | nil => exact h
  | cons released accepted ih => exact ih _ (h.releases hclosed released.1 released.2 hnone) hclosed hnone

theorem sound_drain (h : Sound c) (hclosed : c.closed = false) (hnone : c.uncollected = []) (waker : Waker)
    (source : σ) : Sound (c.drain waker source) := by
  have hnoted := adds_noted c (c.pass source).notes (c.pass source).conn
  rw [Connection.pass, eventsOf_offerAll] at hnoted
  have hsent := hnoted.trans (adds_send _ (c.pass source).datagrams)
  have hreleased := sound_releases (c.pass source).accepted _ (h.quiet hsent) hclosed
    (by rw [hsent.uncollected, hnone]; rfl)
  simp only [Connection.drain]
  split
  · exact hreleased.quiet (adds_of_eq rfl rfl rfl rfl (fun hclosed => hclosed) rfl rfl)
  · exact hreleased

theorem sound_pollTransmit (h : Sound c) (hcalm : Calm c) (waker : Waker) (source : σ) :
    Sound (c.pollTransmit waker source).2.2 := by
  have hsound := sound_pump h hcalm waker
  simp only [Connection.pollTransmit]
  generalize c.pump waker = result at *
  obtain ⟨_ | error, c₁⟩ := result
  · have hcollected := sound_collect hsound
    dsimp only
    split
    · exact hcollected
    · rename_i hopen
      have hdrained := sound_drain hcollected (by simpa using hopen) (uncollected_collect c₁) waker source
      have htimer := adds_pollTimer (c₁.collect.drain waker source) waker
      split
      · exact hdrained.quiet (adds_of_eq rfl rfl rfl rfl (fun _ => rfl) rfl rfl)
      · split
        · exact hdrained.quiet (htimer.trans (adds_wake _ _))
        · exact hdrained.quiet htimer
  · exact hsound

omit [Detachable κ] in
theorem adds_shared (c : Connection κ) {shared : ConnectionShared} (h : shared.observed = c.shared.observed) :
    Adds c { c with shared } [] := adds_of_eq rfl rfl rfl rfl (fun hclosed => hclosed) rfl h

theorem adds_entry {α : Type} (c : Connection κ) (op : ConnCall α) (hop : hears op = false) :
    Adds c (c.noted (Transport.call op c.conn).2.1 (Transport.call op c.conn).2.2) [] := adds_call c op c.conn _ hop

theorem adds_reset (c : Connection κ) (stream : StreamId) (code : ℕ) : Adds c (c.reset stream code).2 [] := by
  have hentry := adds_entry c (.resetStream stream code) rfl
  simp only [Connection.reset]
  split
  · exact hentry.trans (adds_produce _ none).1
  · exact hentry

theorem adds_stopSending (c : Connection κ) (stream : StreamId) (code : ℕ) :
    Adds c (c.stopSending stream code).2 [] := by
  have hentry := adds_entry c (.stopSending stream code) rfl
  simp only [Connection.stopSending]
  split
  · exact hentry.trans (adds_produce _ none).1
  · exact hentry

theorem adds_extendCredit (c : Connection κ) (stream : Option StreamId) (bytes : ℕ) :
    Adds c (c.extendCredit stream bytes).2 [] := by
  cases stream with
  | none => exact adds_entry c (.extendMaxOffset bytes) rfl
  | some stream =>
    have hentry := adds_entry c (.extendMaxStreamOffset stream bytes) rfl
    simp only [Connection.extendCredit]
    split <;> exact hentry

theorem adds_close (c : Connection κ) (code : ℕ) (reason : Bytes) : Adds c (c.close code reason).2 [] := by
  have hentry := adds_entry c (.writeConnectionClose code reason c.now) rfl
  simp only [Connection.close]
  split
  · exact adds_shared c rfl
  · split
    · refine hentry.trans (adds_of_eq rfl rfl rfl rfl (fun _ => rfl) rfl ?_)
      split
      · simp only [Connection.release, ConnectionShared.markTerminal, ConnectionShared.queueCloseOutbound]
        split <;> rfl
      · rfl
    · exact hentry

omit [Detachable κ] in
theorem adds_deliver (c : Connection κ) (datagram : Bytes) : Adds c (c.deliver datagram) [] := by
  have hobserved : (c.shared.deliverInbound datagram).observed = c.shared.observed := by
    rw [ConnectionShared.deliverInbound]
    split <;> rfl
  simp only [Connection.deliver]
  split
  · exact adds_shared c hobserved
  · exact adds_of_eq rfl rfl rfl rfl (fun hclosed => hclosed) rfl hobserved

omit [Detachable κ] in
theorem adds_takeOutbound (c : Connection κ) : Adds c c.takeOutbound [] := by
  have hobserved : c.shared.takeOutbound.2.observed = c.shared.observed := by
    rw [ConnectionShared.takeOutbound]
    split <;> rfl
  simp only [Connection.takeOutbound]
  split
  · exact adds_of_eq rfl rfl rfl rfl (fun hclosed => hclosed) rfl hobserved
  · exact adds_shared c hobserved

omit [Detachable κ] in
theorem adds_advance (c : Connection κ) (nanos : ℕ) : Adds c (c.advance nanos) [] := by
  simp only [Connection.advance]
  repeat' split
  all_goals exact adds_of_eq rfl rfl rfl rfl (fun hclosed => hclosed) rfl rfl

theorem sound_step (h : Sound c) (action : Action σ) (hcareful : Careful c action) : Sound (step c action) := by
  cases action with
  | pollEvent waker => exact sound_pollEvent h hcareful waker
  | pollTransmit waker source => exact sound_pollTransmit h hcareful waker source
  | pollOpen bidi waker => exact sound_pollOpen h hcareful bidi waker
  | reset stream code => exact h.quiet (adds_reset c stream code)
  | stopSending stream code => exact h.quiet (adds_stopSending c stream code)
  | extendCredit stream bytes => exact h.quiet (adds_extendCredit c stream bytes)
  | close code reason => exact h.quiet (adds_close c code reason)
  | deliver datagram => exact h.quiet (adds_deliver c datagram)
  | takeOutbound => exact h.quiet (adds_takeOutbound c)
  | advance nanos => exact h.quiet (adds_advance c nanos)

end Steps

/-! ## Runs -/

section Runs
variable {κ σ : Type} [Detachable κ] [StreamSource σ]

omit [Detachable κ] in
theorem sound_new (conn : κ) (self : Initiator) (shared : ConnectionShared) (now : ℕ) :
    Sound (newConnection conn self shared now) := by
  have hlast : lastResult (newConnection conn self shared now).history = none :=
    lastResult_map [] _
  constructor
  case placed => exact placed_recorded atEach_nil _
  case balance => simp [newConnection, Connection.queued, Connection.uncollected]
  case last => simp [newConnection]
  case reported => nofun
  case told => simp [newConnection]
  case batch =>
    rw [hlast]
    nofun

theorem sound_reached {c : Connection κ} (h : Sound c) {actions : List (Action σ)} (hrun : CarefulRun c actions) :
    Sound (reached c actions) := by
  induction actions generalizing c with
  | nil => exact h
  | cons action actions ih => exact ih (sound_step h action hrun.1) hrun.2

/-- In a run whose steps are all careful, a native QUIC connection tells of its streams in the order of the records,
of its end or of an error only when all that was recorded is told, of nothing behind its end, and of the end of a
stream or its own only at the beginning of a batch. -/
theorem ending_reached (conn : κ) (self : Initiator) (shared : ConnectionShared) (now : ℕ) (actions : List (Action σ))
    (hrun : CarefulRun (newConnection conn self shared now) actions) :
    AtEach Placed (reached (newConnection conn self shared now) actions).history :=
  (sound_reached (sound_new conn self shared now) hrun).placed

end Runs

/-- A request arrives, and then the close of the connection. -/
def requestThenClose : Connection ScriptedConnection :=
  newConnection ⟨{ reads := [(.ok .processed, [.observe (.data ⟨0, zero_le_maxVarint⟩ [7] true)]), (.ok .draining, [])] }⟩
    .server {} 0

def pollThrough : List (Action QmuxHttp3Join.ScriptedSource) :=
  [.deliver [1], .pollEvent 0, .pollEvent 0, .deliver [2], .pollEvent 0]

theorem ending_requestThenClose : AtEach Placed (reached requestThenClose pollThrough).history := by
  refine ending_reached _ _ _ _ pollThrough ⟨trivial, ?_, ?_, trivial, ?_, trivial⟩
  · refine ⟨⟨fun hended => ?_, fun hending => ?_⟩, fun hfailing => ?_, fun hclosed => ?_, fun _ last hlast => ?_⟩
    · exact absurd hended (Connection.not_hasEnded (by decide) (by decide))
    · exact absurd hending (by decide)
    · exact absurd hfailing (by decide)
    · exact absurd hclosed (by decide)
    · exact nomatch (show (none : Option Moment) = some last from hlast)
  · refine ⟨⟨fun hended => ?_, fun hending => ?_⟩, fun hfailing => ?_, fun hclosed => ?_, fun hemitted => ?_⟩
    · exact absurd hended (Connection.not_hasEnded (by decide) (by decide))
    · exact absurd hending (by decide)
    · exact absurd hfailing (by decide)
    · exact absurd hclosed (by decide)
    · exact absurd hemitted (by decide)
  · refine ⟨⟨fun hended => ?_, fun _ => ?_⟩, fun hfailing => ?_, fun hclosed => ?_, fun _ last hlast => ?_⟩
    · exact absurd hended (Connection.not_hasEnded (by decide) (by decide))
    · exact ⟨by decide, by decide⟩
    · exact absurd hfailing (by decide)
    · exact absurd hclosed (by decide)
    · obtain rfl : Moment.pending = last := Option.some.inj hlast
      rfl

/-- The last request arrives in the datagram that closes the connection, and is told behind the end. -/
theorem request_behind_end : ∃ (conn : ScriptedConnection) (actions : List (Action QmuxHttp3Join.ScriptedSource)),
    ¬ AtEach Placed (reached (newConnection conn .server {} 0) actions).history := by
  refine ⟨⟨{ reads := [(.ok .draining, [.observe (.data ⟨0, by decide⟩ [7] true)])] }⟩,
    [.deliver [1], .pollEvent 0], fun hall => ?_⟩
  have hplaced := hall [.recorded (.data ⟨0, by decide⟩ [7] true)] (.ready (.ok (.closed none))) [] (by decide)
  exact absurd (hplaced.complete rfl (by decide)) (by decide)

end Ngnet.QuicHttp3Join
