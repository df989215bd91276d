import Ngnet.QuicEndpointDriver
import Ngnet.WakerLists

/-!
# What the futures of a QUIC handle do, access by access

The polls of `Connecting`, `OpenStream`, `ReadStream`, `AcceptStream`, `Accepting` and `Detaching`, as programs
whose operations take one lock or read one atomic each, or change what belongs to the handle alone. The driver
and the other futures act in between: an event of the driver owes a wake to those who wait for it, which the
driver pays in later steps.

What a connection is to the endpoint, and what its owner does with it once it is handed over, is not modelled
here: the handle of a connection is its number, and a connection that was handed over is of any type.
-/

namespace Ngnet.QuicHandlePolls
open QmuxVarints QmuxStreams InterleavedPrograms QuicEndpoint
open QmuxRecordWriter (Waker)
open QmuxConnection (Poll)

variable {δ α β : Type}

/-- Who waits: for a connection, for an endpoint, or for a connection that is handed over. -/
inductive Waiters
  | connection (c : ℕ)
  | endpoint
  | queue
  deriving DecidableEq, Repr

structure Chunk where
  bytes : Bytes
  fin : Bool
  deriving DecidableEq, Repr

/-- What the handles and the driver share, with what each connection's handle has taken from it, and what the
driver is working on. `polling` is the waker that the future was polled with last; `recorded` is what the
handlers of a connection have recorded, `absorbed` what its handle has taken in, and `returned` the chunks that
were read, by stream. -/
structure State (δ : Type) where
  shareds : ℕ → ConnectionShared := fun _ => {}
  endpoint : EndpointShared := {}
  ready : List (Option ℕ × δ) := []
  wakers : WakerLists Waiters Waker := {}
  handles : ℕ → Handle := fun _ => {}
  /-- What the driver has taken from a connection to look at, and not put back yet. -/
  held : ℕ → List Observed := fun _ => []
  polling : Option Waker := none
  recorded : ℕ → List Observed := fun _ => []
  absorbed : ℕ → List Observed := fun _ => []
  returned : List (StreamId × Chunk) := []

inductive Op (δ : Type) : Type → Type
  /-- The future was not polled yet, or has returned `Pending`; it is polled with this waker. -/
  | await (waker : Waker) : Op δ Unit
  | isEstablished (c : ℕ) : Op δ Bool
  | isClosed (c : ℕ) : Op δ Bool
  | failure (c : ℕ) : Op δ Error
  | isGone : Op δ Bool
  | register (waiters : Waiters) (waker : Waker) : Op δ Unit
  | takeOpened (c : ℕ) (bidi : Bool) : Op δ (Option StreamId)
  | absorb (c : ℕ) : Op δ Unit
  /-- What a handle has of a stream, if it has anything for a reader; whether it is looked for again. -/
  | readable (again : Bool) (c : ℕ) (stream : StreamId) : Op δ (Option Incoming)
  | takeBytes (c : ℕ) (stream : StreamId) : Op δ Unit
  | push (c : ℕ) (command : Command) : Op δ Unit
  | takePending (c : ℕ) : Op δ (Option StreamId)
  | takeReady : Op δ (Option ℕ)
  | takeDetached (key : Option ℕ) : Op δ (Option δ)
  /-- A poll of a `ReadStream` has returned. -/
  | polled (stream : StreamId) (result : Poll (Except Error Chunk)) : Op δ Unit

end Ngnet.QuicHandlePolls

namespace Ngnet.QuicEndpoint
open QmuxStreams

namespace Handle
variable {h : Handle} {stream : StreamId}

/-- The slot of a stream that has bytes, or has ended. -/
def readable (h : Handle) (stream : StreamId) : Option Incoming :=
  match h.incoming.find? (·.1 = stream) with
  | some (_, slot) => if !slot.bytes.isEmpty || slot.finished then some slot else none
  | none => none

/-- The slot of a stream, which is empty where there is none yet. -/
def slotOf (h : Handle) (stream : StreamId) : Incoming := ((h.incoming.find? (·.1 = stream)).map (·.2)).getD {}

theorem readable_eq_some {slot : Incoming} : h.readable stream = some slot ↔
    h.slotOf stream = slot ∧ (slot.bytes ≠ [] ∨ slot.finished = true) := by
  rw [readable, slotOf]
  cases h.incoming.find? (·.1 = stream) with
  | none =>
    simp only [Option.map_none, Option.getD_none, reduceCtorEq, false_iff, not_and]
    rintro rfl
    simp
  | some entry =>
    simp only [Option.map_some, Option.getD_some]
    split
    · rename_i hready
      simp only [Option.some.injEq, Bool.or_eq_true, Bool.not_eq_true', List.isEmpty_eq_false_iff] at hready ⊢
      constructor
      · rintro rfl
        exact ⟨rfl, hready⟩
      · exact And.left
    · rename_i hready
      simp only [Bool.or_eq_true, Bool.not_eq_true', List.isEmpty_eq_false_iff, not_or] at hready
      simp only [reduceCtorEq, false_iff, not_and, not_or]
      rintro rfl
      exact hready

theorem readable_eq_none : h.readable stream = none ↔ (h.slotOf stream).bytes = [] ∧ (h.slotOf stream).finished = false := by
  cases hreadable : h.readable stream with
  | none =>
    simp only [true_iff]
    by_contra hready
    rw [not_and_or, Bool.not_eq_false] at hready
    have hsome := readable_eq_some.mpr ⟨rfl, hready⟩
    rw [hreadable] at hsome
    cases hsome
  | some slot =>
    obtain ⟨rfl, hready⟩ := readable_eq_some.mp hreadable
    simp only [reduceCtorEq, false_iff, not_and_or, Bool.not_eq_false]
    exact hready

theorem find_modifyEntry {α β : Type} [DecidableEq α] (entries : List (α × β)) (key key' : α) (default : β) (f : β → β) :
    (modifyEntry entries key default f).find? (·.1 = key') =
      if key' = key then some (key, f (((entries.find? (·.1 = key)).map (·.2)).getD default))
      else entries.find? (·.1 = key') := by
  have hothers : ∀ l : List (α × β), key' ≠ key → (l.filter (·.1 ≠ key)).find? (·.1 = key') = l.find? (·.1 = key') := by
    intro l hne
    rw [List.find?_filter]
    congr 1
    funext entry
    by_cases hentry : entry.1 = key'
    · simp [hentry, hne]
    · simp [hentry]
  rw [modifyEntry]
  by_cases hkey : key' = key
  · subst hkey
    split
    · rename_i old value hfind
      simp [hfind]
    · rename_i hfind
      simp [hfind]
  · rw [if_neg hkey]
    split
    all_goals
      rw [List.find?_cons_of_neg (by simpa using Ne.symm hkey)]
    · exact hothers entries hkey

end Handle

/-- What a slot becomes once its handle has taken in an event. -/
def Incoming.see (stream : StreamId) (slot : Incoming) : Observed → Incoming
  | .data s bytes fin =>
    if s = stream then { slot with bytes := slot.bytes ++ bytes, finished := slot.finished || fin } else slot
  | .closed s receiving _ =>
    if s = stream then { slot with finished := true, reset := slot.reset.or receiving } else slot
  | .reset s code =>
    if s = stream then { slot with finished := true, reset := some (slot.reset.getD code) } else slot
  | _ => slot

namespace Handle
variable {h : Handle} {stream : StreamId}

theorem slotOf_modify (h : Handle) (other stream : StreamId) (f : Incoming → Incoming) :
    slotOf { h with incoming := modifyEntry h.incoming other {} f } stream =
      if other = stream then f (h.slotOf stream) else h.slotOf stream := by
  rw [slotOf, find_modifyEntry]
  by_cases hother : other = stream
  · subst hother
    simp [slotOf]
  · simp [slotOf, hother, Ne.symm hother]

theorem slotOf_absorbOne (h : Handle) (event : Observed) : (h.absorbOne event).slotOf stream = (h.slotOf stream).see stream event := by
  cases event
  case data => exact slotOf_modify h _ stream _
  case closed => exact slotOf_modify h _ stream _
  case reset => exact slotOf_modify h _ stream _
  all_goals rfl

theorem slotOf_absorb (h : Handle) (events : List Observed) :
    (h.absorb events).slotOf stream = events.foldl (·.see stream ·) (h.slotOf stream) := by
  induction events generalizing h with
  | nil => rfl
  | cons event events ih =>
    rw [absorb, List.foldl_cons, List.foldl_cons, ← slotOf_absorbOne]
    exact ih _

def opening : Observed → Option StreamId
  | .opened stream => some stream
  | _ => none

theorem pendingStreams_absorb (h : Handle) (events : List Observed) :
    (h.absorb events).pendingStreams = h.pendingStreams ++ events.filterMap opening := by
  induction events generalizing h with
  | nil => simp [absorb]
  | cons event events ih =>
    rw [absorb, List.foldl_cons]
    refine (ih _).trans ?_
    cases event
    case opened stream => simp [absorbOne, opening, List.append_assoc]
    all_goals rfl

end Handle

end Ngnet.QuicEndpoint

namespace Ngnet.QuicHandlePolls
open QmuxVarints QmuxStreams InterleavedPrograms QuicEndpoint
open QmuxRecordWriter (Waker)
open QmuxConnection (Poll)

variable {δ α β : Type}

/-! ## Polls -/

abbrev PollM (δ : Type) := Prog (Op δ) Error

def ended (c : ℕ) : PollM δ (Poll (Except Error α)) := do
  pure (.ready (.error (← perform (.failure c))))

/-- `Connecting::poll`. -/
def pollConnecting (c : ℕ) (waker : Waker) : PollM δ (Poll (Except Error ℕ)) := do
  if ← perform (.isEstablished c) then pure (.ready (.ok c))
  else if ← perform (.isClosed c) then ended c
  else do
    perform (.register (.connection c) waker)
    if ← perform (.isEstablished c) then pure (.ready (.ok c))
    else if ← perform (.isClosed c) then ended c
    else pure .pending

/-- `OpenStream::poll`. -/
def pollOpenStream (c : ℕ) (bidi : Bool) (waker : Waker) : PollM δ (Poll (Except Error StreamId)) := do
  match ← perform (.takeOpened c bidi) with
  | some stream => pure (.ready (.ok stream))
  | none =>
    if ← perform (.isClosed c) then ended c
    else do
      perform (.register (.connection c) waker)
      match ← perform (.takeOpened c bidi) with
      | some stream => pure (.ready (.ok stream))
      | none => if ← perform (.isClosed c) then ended c else pure .pending

def streamReset (code : ℕ) : Error := ⟨.streamReset, "the peer reset this stream", none, some code⟩

/-- Hands over what a slot has. -/
def takeChunk (c : ℕ) (stream : StreamId) (slot : Incoming) : PollM δ (Poll (Except Error Chunk)) := do
  perform (.takeBytes c stream)
  if slot.bytes.isEmpty then pure (.ready (.ok ⟨slot.bytes, slot.finished⟩))
  else do
    perform (.push c (.extendCredit stream slot.bytes.length))
    pure (.ready (.ok ⟨slot.bytes, slot.finished⟩))

/-- `ReadStream::poll`. Only the first of its checks looks for a reset. -/
def pollReadStream (c : ℕ) (stream : StreamId) (waker : Waker) : PollM δ (Poll (Except Error Chunk)) := do
  perform (.absorb c)
  match ← perform (.readable false c stream) with
  | some slot =>
    match slot.bytes, slot.reset with
    | [], some code => pure (.ready (.error (streamReset code)))
    | _, _ => takeChunk c stream slot
  | none =>
    if ← perform (.isClosed c) then ended c
    else do
      perform (.register (.connection c) waker)
      perform (.absorb c)
      match ← perform (.readable true c stream) with
      | some slot => takeChunk c stream slot
      | none => pure .pending

def notAccepted : Error := ⟨.locallyClosed, "the connection ended before a stream was accepted", none, none⟩

/-- `AcceptStream::poll`. -/
def pollAcceptStream (c : ℕ) (waker : Waker) : PollM δ (Poll (Except Error StreamId)) := do
  perform (.absorb c)
  match ← perform (.takePending c) with
  | some stream => pure (.ready (.ok stream))
  | none =>
    if ← perform (.isClosed c) then pure (.ready (.error notAccepted))
    else do
      perform (.register (.connection c) waker)
      perform (.absorb c)
      match ← perform (.takePending c) with
      | some stream => pure (.ready (.ok stream))
      | none => pure .pending

/-- `Accepting::poll`. -/
def pollAccepting (waker : Waker) : PollM δ (Poll (Except Error ℕ)) := do
  match ← perform .takeReady with
  | some c => pure (.ready (.ok c))
  | none =>
    if ← perform .isGone then pure (.ready (.error notRunning))
    else do
      perform (.register .endpoint waker)
      match ← perform .takeReady with
      | some c => pure (.ready (.ok c))
      | none => pure .pending

/-- The error that the connection ended with that a `Detaching` waits for, if it waits for one. -/
def endingOf : Option ℕ → PollM δ (Option Error)
  | none => pure none
  | some c => do
    if ← perform (.isClosed c) then pure (some (← perform (.failure c))) else pure none

def registerOn : Option ℕ → Waker → PollM δ Unit
  | none, _ => pure ()
  | some c, waker => perform (.register (.connection c) waker)

/-- `Detaching::poll`. An acceptor takes any connection that was accepted. -/
def pollDetaching (key : Option ℕ) (waker : Waker) : PollM δ (Poll (Except Error δ)) := do
  match ← perform (.takeDetached key) with
  | some connection => pure (.ready (.ok connection))
  | none =>
    match ← endingOf key with
    | some error => pure (.ready (.error error))
    | none =>
      if ← perform .isGone then pure (.ready (.error notRunning))
      else do
        perform (.register .queue waker)
        registerOn key waker
        perform (.register .endpoint waker)
        pure .pending

inductive Awaited
  | connecting (c : ℕ)
  | openStream (c : ℕ) (bidi : Bool)
  | readStream (c : ℕ) (stream : StreamId)
  | acceptStream (c : ℕ)
  | accepting
  | detaching (key : Option ℕ)
  deriving DecidableEq, Repr

/-- What it resolves to. -/
abbrev Awaited.Output (δ : Type) : Awaited → Type
  | .connecting _ | .accepting => ℕ
  | .openStream _ _ | .acceptStream _ => StreamId
  | .readStream _ _ => Chunk
  | .detaching _ => δ

def Awaited.poll : (awaited : Awaited) → Waker → PollM δ (Poll (Except Error (awaited.Output δ)))
  | .connecting c, waker => pollConnecting c waker
  | .openStream c bidi, waker => pollOpenStream c bidi waker
  | .readStream c stream, waker => pollReadStream c stream waker
  | .acceptStream c, waker => pollAcceptStream c waker
  | .accepting, waker => pollAccepting waker
  | .detaching key, waker => pollDetaching key waker

/-- A future that is polled with one waker after the other, until it resolves. -/
def Awaited.task (awaited : Awaited) : List Waker → PollM δ (awaited.Output δ)
  | [] => Prog.outOfFuel
  | waker :: wakers => do
    perform (.await waker)
    match ← awaited.poll waker with
    | .ready (.ok output) => pure output
    | .ready (.error error) => Prog.fail error
    | .pending => awaited.task wakers

/-- What the owner of a handle does next: it polls a `ReadStream`, or makes another call that takes in what was
observed. -/
inductive Call
  | read (waker : Waker)
  | other
  deriving DecidableEq, Repr

/-- One `ReadStream` of a stream after the other, and other calls in between. -/
def reads (c : ℕ) (stream : StreamId) : List Call → PollM δ Unit
  | [] => pure ()
  | .read waker :: calls => do
    perform (.await waker)
    perform (.polled stream (← pollReadStream c stream waker))
    reads c stream calls
  | .other :: calls => do
    perform (.absorb c)
    reads c stream calls

/-! ## Operations -/

namespace State

def modifyShared (s : State δ) (c : ℕ) (f : ConnectionShared → ConnectionShared) : State δ :=
  { s with shareds := Function.update s.shareds c (f (s.shareds c)) }

def modifyHandle (s : State δ) (c : ℕ) (f : Handle → Handle) : State δ :=
  { s with handles := Function.update s.handles c (f (s.handles c)) }

def onWakers (s : State δ) (f : WakerLists Waiters Waker → WakerLists Waiters Waker) : State δ :=
  { s with wakers := f s.wakers }

/-- A stream that this endpoint has opened, of the directionality asked for. -/
def openedAs (bidi : Bool) : Observed → Option StreamId
  | .locallyOpened stream =>
    if stream.directionality = (if bidi then .bidirectional else .unidirectional) then some stream else none
  | _ => none

/-- `OpenStream::take`. -/
def takeOpened (s : State δ) (c : ℕ) (bidi : Bool) : Option StreamId × State δ :=
  ((s.shareds c).observed.findSome? (openedAs bidi),
    s.modifyShared c fun shared => { shared with observed := shared.observed.eraseP fun event => (openedAs bidi event).isSome })

/-- `Connection::absorb`. -/
def absorb (s : State δ) (c : ℕ) : State δ :=
  { (s.modifyHandle c (·.absorb (s.shareds c).observed)).modifyShared c ({ · with observed := [] }) with
    absorbed := Function.update s.absorbed c (s.absorbed c ++ (s.shareds c).observed) }

def takeBytes (s : State δ) (c : ℕ) (stream : StreamId) : State δ :=
  s.modifyHandle c fun handle => { handle with
    incoming := Handle.modifyEntry handle.incoming stream {} ({ · with bytes := [] }) }

/-- `Accepting::take_ready`. -/
def takeReady (s : State δ) : Option ℕ × State δ :=
  let (found, accepted) := World.takeReady s.shareds s.endpoint.accepted.length s.endpoint.accepted
  (found, { s with endpoint := { s.endpoint with accepted } })

/-- `DetachQueue::take`. -/
def takeDetached (s : State δ) (key : Option ℕ) : Option δ × State δ :=
  ((s.ready.find? (·.1 = key)).map (·.2), { s with ready := s.ready.eraseP (·.1 = key) })

def applyOp (s : State δ) : Op δ β → β × State δ
  | .await waker => ((), { s.onWakers (·.forget waker) with polling := some waker })
  | .isEstablished c => ((s.shareds c).established, s)
  | .isClosed c => ((s.shareds c).closed, s)
  | .failure c => ((s.shareds c).failureError, s)
  | .isGone => (s.endpoint.gone, s)
  | .register waiters waker => ((), s.onWakers (·.register waiters waker))
  | .takeOpened c bidi => s.takeOpened c bidi
  | .absorb c => ((), s.absorb c)
  | .readable _ c stream => ((s.handles c).readable stream, s)
  | .takeBytes c stream => ((), s.takeBytes c stream)
  | .push c command => ((), s.modifyShared c (·.push command))
  | .takePending c => ((s.handles c).pendingStreams.head?,
    s.modifyHandle c fun handle => { handle with pendingStreams := handle.pendingStreams.tail })
  | .takeReady => s.takeReady
  | .takeDetached key => s.takeDetached key
  | .polled stream result =>
    match result with
    | .ready (.ok chunk) => ((), { s with returned := s.returned ++ [(stream, chunk)] })
    | _ => ((), s)

instance : Atomic (Op δ) (State δ) where
  apply op s := s.applyOp op

end State

/-! ## What happens in between -/

/-- What the driver does, and the futures of others. -/
inductive Action (δ : Type)
  | observe (c : ℕ) (event : Observed)
  /-- The driver's `absorb` takes what was observed, and puts it back. -/
  | takeObserved (c : ℕ)
  | putBack (c : ℕ)
  | markEstablished (c : ℕ)
  /-- `fail`, up to its store, and the store. -/
  | recordFailure (c : ℕ) (error : Error)
  | markClosed (c : ℕ)
  | accept (c : ℕ)
  | deliver (key : Option ℕ) (connection : δ)
  | markGone
  /-- Those who wait are taken, and woken one after the other. -/
  | takeWakers (waiters : Waiters)
  | wakeNext
  -- other futures
  | register (waiters : Waiters) (waker : Waker)
  | takeOpened (c : ℕ) (bidi : Bool)
  | absorb (c : ℕ)
  | takeReady
  | takeDetached (key : Option ℕ)
  deriving DecidableEq

namespace State

def record (s : State δ) (c : ℕ) (event : Observed) : State δ :=
  { s.modifyShared c (·.observe event) with recorded := Function.update s.recorded c (s.recorded c ++ [event]) }

/-- The driver does one thing at a time: while it looks at what a connection has observed, nothing is
recorded. -/
def act (s : State δ) : Action δ → State δ
  | .observe c event => if s.held c = [] then (s.record c event).onWakers (·.owe (.connection c)) else s
  | .takeObserved c =>
    if s.held c = [] then
      { s.modifyShared c ({ · with observed := [] }) with
        held := Function.update s.held c (s.shareds c).observed }
    else s
  | .putBack c =>
    ({ s.modifyShared c fun shared => { shared with observed := shared.observed ++ s.held c } with
      held := Function.update s.held c [] } : State δ).onWakers (·.owe (.connection c))
  | .markEstablished c =>
    let established := (s.modifyShared c ({ · with established := true })).onWakers (·.owe (.connection c))
    if c ∈ s.endpoint.accepted then established.onWakers (·.owe .endpoint) else established
  | .recordFailure c error => s.modifyShared c fun shared => { shared with failure := some (shared.failure.getD error) }
  | .markClosed c =>
    if (s.shareds c).failure.isSome then
      (s.modifyShared c ({ · with closed := true })).onWakers (·.owe (.connection c))
    else s
  | .accept c =>
    ({ s with endpoint := { s.endpoint with accepted := s.endpoint.accepted ++ [c] } } : State δ).onWakers (·.owe .endpoint)
  | .deliver key connection => ({ s with ready := s.ready ++ [(key, connection)] } : State δ).onWakers (·.owe .queue)
  | .markGone => ({ s with endpoint := { s.endpoint with gone := true } } : State δ).onWakers (·.owe .endpoint)
  | .takeWakers waiters => s.onWakers (·.take waiters)
  | .wakeNext => s.onWakers (·.wakeNext)
  | .register waiters waker => s.onWakers (·.register waiters waker)
  | .takeOpened c bidi => (s.takeOpened c bidi).2
  | .absorb c => s.absorb c
  | .takeReady => s.takeReady.2
  | .takeDetached key => (s.takeDetached key).2

end State

/-- A future that awaits, and may be dropped where it does. -/
def yields : {β : Type} → Op δ β → Bool
  | _, .await _ => true
  | _, _ => false

/-- A task and what goes on around it. -/
def system (program : PollM δ α) : System (Op δ) Error α (State δ) (Action δ) where
  program
  cleanup := pure ()
  yields := yields
  act action s := s.act action

end Ngnet.QuicHandlePolls
