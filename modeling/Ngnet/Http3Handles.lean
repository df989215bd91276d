import Mathlib.Logic.Function.Basic
import Ngnet.QmuxStreams
import Ngnet.QmuxHttp3Join
import Ngnet.Http3Heads

/-!
# What handles and the driver of an HTTP/3 connection share

The crate `ngnet-h3`: `http/shared.rs`, with the handles of `http/client.rs` and
`http/body/incoming.rs`. A handle and the driver live on different tasks. Every call of a handle is
cut into its atomic steps, one for each lock taken and each atomic load or store, and any number of
calls is under way at once.

The slot and the receiving side of a request are made together and shared by its future, its
command and its entry in the registry; they are one `Exchange` here. A caller's waker is kept as
whether there is one; the driver's is the task that polls it. A hash map is a list of its entries.
Beside the fields of the source an exchange carries what has happened to it: the outcomes recorded
in its slot, what was observed for it and what its body has yielded.
-/

namespace Ngnet.Http3Handles
open QmuxVarints QmuxStreams Http3Heads

/-! ## Shared work -/

inductive TransportAction
  | reset (stream : StreamId) (code : ℕ)
  | stopSending (stream : StreamId) (code : ℕ)
  deriving DecidableEq, Repr

structure Inner where
  driver : Bool := false
  ready : List StreamId := []
  resets : List (StreamId × ℕ) := []
  credit : List (StreamId × ℕ) := []
  shutdown : Bool := false
  actions : List TransportAction := []
  deriving DecidableEq, Repr

namespace Inner

def markReady (inner : Inner) (stream : StreamId) : Bool × Inner :=
  if stream ∈ inner.ready then (false, inner)
  else (true, { inner with ready := inner.ready ++ [stream] })

def reset (inner : Inner) (stream : StreamId) (code : ℕ) : Inner :=
  if inner.resets.any (·.1 = stream) then inner
  else { inner with resets := inner.resets ++ [(stream, code)] }

def addCredit (inner : Inner) (stream : StreamId) (bytes : ℕ) : Inner :=
  { inner with credit := QmuxHttp3Join.addTo stream bytes inner.credit }

def pushAction (inner : Inner) (action : TransportAction) : Inner :=
  { inner with actions := inner.actions ++ [action] }

def hasWork (inner : Inner) : Bool :=
  !inner.ready.isEmpty || !inner.resets.isEmpty || !inner.credit.isEmpty || !inner.actions.isEmpty || inner.shutdown

end Inner

/-! ## Slots -/

structure Slot where
  outcome : Option (Except Error ResponseParts) := none
  waker : Bool := false
  settled : Bool := false
  stream : Option StreamId := none
  record : List (Except Error ResponseParts) := []
  deriving DecidableEq, Repr

namespace Slot

/-- What `complete` and `fail` have in common. -/
def settle (slot : Slot) (outcome : Except Error ResponseParts) : Slot :=
  if slot.settled then slot
  else { slot with settled := true, outcome := some outcome, waker := false, record := slot.record ++ [outcome] }

def complete (slot : Slot) (response : ResponseParts) : Slot := slot.settle (.ok response)

def fail (slot : Slot) (error : Error) : Slot := slot.settle (.error error)

def bind (slot : Slot) (stream : StreamId) : Slot := { slot with stream := some stream }

def poll (slot : Slot) : Option (Except Error ResponseParts) × Slot :=
  match slot.outcome with
  | some outcome => (some outcome, { slot with outcome := none })
  | none => (none, { slot with waker := true })

end Slot

/-! ## The receiving side -/

inductive Received
  | data (chunk : Bytes)
  | trailers (fields : HeaderMap)
  | finished
  | failed (error : Error)
  | nothing
  deriving DecidableEq, Repr

structure Incoming where
  chunks : List Bytes := []
  trailers : Option HeaderMap := none
  finished : Bool := false
  failure : Option Error := none
  waker : Bool := false
  abandoned : Bool := false
  observed : List Bytes := []
  sections : List HeaderMap := []
  ended : Bool := false
  yielded : List Received := []
  deriving DecidableEq, Repr

namespace Incoming

def push (incoming : Incoming) (chunk : Bytes) : Incoming :=
  let incoming := { incoming with observed := incoming.observed ++ [chunk] }
  if incoming.abandoned || chunk.isEmpty then incoming
  else { incoming with chunks := incoming.chunks ++ [chunk], waker := false }

def setTrailers (incoming : Incoming) (fields : HeaderMap) : Incoming :=
  let incoming := { incoming with sections := incoming.sections ++ [fields] }
  if incoming.abandoned then incoming else { incoming with trailers := some fields, waker := false }

def finish (incoming : Incoming) : Incoming := { incoming with finished := true, waker := false }

/-- `finish`, on the end that the state machine reported. -/
def endOfMessage (incoming : Incoming) : Incoming := { incoming.finish with ended := true }

def fail (incoming : Incoming) (error : Error) : Incoming :=
  let incoming :=
    if incoming.failure.isNone && !incoming.finished then { incoming with failure := some error } else incoming
  { incoming with waker := false }

/-- `poll`, without the record of what it yields. -/
def take (incoming : Incoming) : Received × Incoming :=
  match incoming.chunks, incoming.trailers, incoming.failure with
  | chunk :: chunks, _, _ => (.data chunk, { incoming with chunks })
  | [], some fields, _ => (.trailers fields, { incoming with trailers := none })
  | [], none, some error => (.failed error, { incoming with failure := none })
  | [], none, none =>
    if incoming.finished then (.finished, incoming) else (.nothing, { incoming with waker := true })

def poll (incoming : Incoming) : Received × Incoming :=
  let (received, incoming) := incoming.take
  (received, { incoming with yielded := incoming.yielded ++ if received = .nothing then [] else [received] })

/-- The bytes that wait to be read. -/
def unread (incoming : Incoming) : ℕ := (incoming.chunks.map List.length).sum

def abandon (incoming : Incoming) : ℕ × Incoming :=
  (incoming.unread, { incoming with abandoned := true, chunks := [] })

end Incoming

/-! ## Exchanges -/

/-- Why one pull of a caller's body stopped. -/
inductive Stop
  | pending
  | clean
  | trailers (fields : HeaderMap)
  | failed
  deriving DecidableEq, Repr

/-- A caller's `http_body::Body`: what each pull gathers from it, and why it stops there. -/
structure CallerBody where
  pulls : ℕ → List Bytes × Stop
  isEndStream : Bool

structure Request where
  parts : RequestParts
  body : CallerBody

structure Response where
  parts : ResponseParts
  body : CallerBody

/-- Where a call of `send_request` and the future it returns have got to. -/
inductive FuturePhase
  | absent
  | checkingGone
  | checkingRefusing
  | failing (error : Error)
  | pushing
  | waking
  | pending
  | resolving (head : ResponseParts)
  | resolved
  | dropFailing
  | dropStream
  | dropReset (stream : StreamId)
  | dropWaking
  | gone
  deriving DecidableEq, Repr

/-- Where a body has got to: it is read, or one of its calls is under way. -/
inductive BodyPhase
  | held
  | crediting (bytes : ℕ)
  | waking
  | dropChecking
  | dropAbandoning (complete : Bool)
  | dropCrediting (complete : Bool) (unread : ℕ)
  | dropCreditWaking (complete : Bool)
  | dropResetting
  | dropWaking
  | gone
  deriving DecidableEq, Repr

structure IncomingBody where
  stream : StreamId
  abandonOnDrop : Bool
  phase : BodyPhase := .held
  deriving DecidableEq, Repr

structure Exchange where
  request : Option Request := none
  slot : Slot := {}
  incoming : Incoming := {}
  future : FuturePhase := .absent
  body : Option IncomingBody := none
  cancelled : Bool := false

structure Command where
  request : Request
  exchange : ℕ

/-- What handles and the driver share: `Shared`, the queue, the exchanges and the handles that are
left. `created` counts the exchanges; `refusalsOwed` and `wakesOwed` count the calls that are about
to store `refusing` and to wake the driver. -/
structure Common where
  inner : Inner := {}
  gone : Bool := false
  refusing : Bool := false
  woken : Bool := false
  queue : List Command := []
  queueLocked : Bool := false
  queueAbandoned : Bool := false
  exchanges : ℕ → Exchange := fun _ => {}
  created : ℕ := 0
  handles : ℕ := 1
  handlersWoken : List StreamId := []
  refusalsOwed : ℕ := 0
  wakesOwed : ℕ := 0

namespace Common

def modifyExchange (c : Common) (id : ℕ) (f : Exchange → Exchange) : Common :=
  { c with exchanges := Function.update c.exchanges id (f (c.exchanges id)) }

def setFuture (c : Common) (id : ℕ) (future : FuturePhase) : Common := c.modifyExchange id ({ · with future })

def setBody (c : Common) (id : ℕ) (body : IncomingBody) : Common :=
  c.modifyExchange id ({ · with body := some body })

def modifySlot (c : Common) (id : ℕ) (f : Slot → Slot) : Common :=
  c.modifyExchange id fun e => { e with slot := f e.slot }

def modifyIncoming (c : Common) (id : ℕ) (f : Incoming → Incoming) : Common :=
  c.modifyExchange id fun e => { e with incoming := f e.incoming }

/-- `Cancelled::trip`. -/
def trip (c : Common) (id : ℕ) : Common := c.modifyExchange id ({ · with cancelled := true })

def wakeDriver (c : Common) : Common := if c.inner.driver then { c with woken := true } else c

/-- `H3_REQUEST_CANCELLED`. -/
def requestCancelled : ℕ := 0x10c

/-! ## Requests and their futures -/

def connectionGone : Error := ⟨.closed, "the connection is gone", none⟩

def peerWentAway : Error := ⟨.refused, "the peer went away before this exchange began", none⟩

def callerAbandoned : Error := ⟨.stream, "the caller abandoned this exchange", none⟩

def pushCommand (c : Common) (command : Command) : Common := { c with queue := c.queue ++ [command] }

/-- `Shared::reset` and `Shared::credit`, each under the lock. -/
def modifyInner (c : Common) (f : Inner → Inner) : Common := { c with inner := f c.inner }

/-- `send_request` makes the slot and the receiving side. -/
def sendRequest (c : Common) (request : Request) : Common :=
  if c.handles = 0 then c
  else
    { c with
      created := c.created + 1
      exchanges := Function.update c.exchanges c.created { request := some request, future := .checkingGone } }

/-- The next step of the call that is under way on a future. -/
def stepFuture (c : Common) (id : ℕ) : Common :=
  match (c.exchanges id).future with
  | .checkingGone => c.setFuture id (if c.gone then .failing connectionGone else .checkingRefusing)
  | .checkingRefusing => c.setFuture id (if c.refusing then .failing peerWentAway else .pushing)
  | .failing error => (c.modifySlot id (·.fail error)).setFuture id .pending
  | .pushing =>
    match (c.exchanges id).request with
    | some request =>
      -- The lock is held for as long as `Queue::abandon` drains.
      if c.queueLocked then c else (c.pushCommand ⟨request, id⟩).setFuture id .waking
    | none => c
  | .waking => c.wakeDriver.setFuture id .pending
  | .resolving _ =>
    match (c.exchanges id).slot.stream with
    | some stream => (c.setBody id ⟨stream, true, .held⟩).setFuture id .resolved
    | none => c
  | .dropFailing => (c.modifySlot id (·.fail callerAbandoned)).setFuture id .dropStream
  | .dropStream =>
    c.setFuture id (match (c.exchanges id).slot.stream with
      | some stream => .dropReset stream
      | none => .gone)
  | .dropReset stream => (c.modifyInner (·.reset stream requestCancelled)).setFuture id .dropWaking
  | .dropWaking => c.wakeDriver.setFuture id .gone
  | .absent | .pending | .resolved | .gone => c

def pollFuture (c : Common) (id : ℕ) : Common :=
  match (c.exchanges id).future with
  | .pending =>
    let (outcome, slot) := (c.exchanges id).slot.poll
    (c.modifySlot id fun _ => slot).setFuture id (match outcome with
      | none => .pending
      | some (.error _) => .resolved
      | some (.ok head) => .resolving head)
  | _ => c

def dropFuture (c : Common) (id : ℕ) : Common :=
  match (c.exchanges id).future with
  | .pending => c.setFuture id .dropFailing
  | .resolved => c.setFuture id .gone
  | _ => c

/-! ## Bodies -/

/-- What is left of a body's drop behind the credit. -/
def afterCredit (body : IncomingBody) (complete : Bool) : BodyPhase :=
  if body.abandonOnDrop && !complete then .dropResetting else .gone

/-- `poll_frame`, up to the credit. -/
def pollBody (c : Common) (id : ℕ) : Common :=
  match (c.exchanges id).body with
  | some body =>
    if body.phase = .held then
      let (received, incoming) := (c.exchanges id).incoming.poll
      (c.modifyIncoming id fun _ => incoming).setBody id { body with
        phase := match received with
          | .data chunk => .crediting chunk.length
          | _ => .held }
    else c
  | none => c

/-- The next step of the call that is under way on a body. -/
def stepBody (c : Common) (id : ℕ) : Common :=
  match (c.exchanges id).body with
  | none => c
  | some body =>
    let go (c : Common) (phase : BodyPhase) := c.setBody id { body with phase }
    match body.phase with
    | .held | .gone => c
    | .crediting bytes => go (c.modifyInner (·.addCredit body.stream bytes)) .waking
    | .waking => go c.wakeDriver .held
    | .dropChecking => go c (.dropAbandoning (c.exchanges id).incoming.finished)
    | .dropAbandoning complete =>
      let (unread, incoming) := (c.exchanges id).incoming.abandon
      go (c.modifyIncoming id fun _ => incoming)
        (if unread = 0 then afterCredit body complete else .dropCrediting complete unread)
    | .dropCrediting complete unread =>
      go (c.modifyInner (·.addCredit body.stream unread)) (.dropCreditWaking complete)
    | .dropCreditWaking complete => go c.wakeDriver (afterCredit body complete)
    | .dropResetting => go (c.modifyInner (·.reset body.stream requestCancelled)) .dropWaking
    | .dropWaking => go c.wakeDriver .gone

def dropBody (c : Common) (id : ℕ) : Common :=
  match (c.exchanges id).body with
  | some body => if body.phase = .held then c.setBody id { body with phase := .dropChecking } else c
  | none => c

/-! ## What others do -/

/-- One atomic step of a handle, a future, a body or a waker. -/
inductive Action
  | sendRequest (request : Request)
  | stepFuture (id : ℕ)
  | pollFuture (id : ℕ)
  | dropFuture (id : ℕ)
  | pollBody (id : ℕ)
  | stepBody (id : ℕ)
  | dropBody (id : ℕ)
  | cloneHandle
  | dropHandle
  | shutdown
  | storeRefusing
  | markReady (stream : StreamId)
  | wakeHandler (stream : StreamId)
  | wake

def act (c : Common) : Action → Common
  | .sendRequest request => c.sendRequest request
  | .stepFuture id => c.stepFuture id
  | .pollFuture id => c.pollFuture id
  | .dropFuture id => c.dropFuture id
  | .pollBody id => c.pollBody id
  | .stepBody id => c.stepBody id
  | .dropBody id => c.dropBody id
  | .cloneHandle => if c.handles = 0 then c else { c with handles := c.handles + 1 }
  | .dropHandle => { c with handles := c.handles - 1 }
  | .shutdown =>
    if c.handles = 0 then c
    else { c with inner := { c.inner with shutdown := true }, refusalsOwed := c.refusalsOwed + 1 }
  | .storeRefusing =>
    if c.refusalsOwed = 0 then c
    else { c with refusing := true, refusalsOwed := c.refusalsOwed - 1, wakesOwed := c.wakesOwed + 1 }
  | .markReady stream =>
    let (new, inner) := c.inner.markReady stream
    { c with inner, wakesOwed := if new then c.wakesOwed + 1 else c.wakesOwed }
  | .wakeHandler stream =>
    { c with
      handlersWoken := if stream ∈ c.handlersWoken then c.handlersWoken else c.handlersWoken ++ [stream]
      wakesOwed := c.wakesOwed + 1 }
  | .wake => if c.wakesOwed = 0 then c else { c.wakeDriver with wakesOwed := c.wakesOwed - 1 }

end Common

end Ngnet.Http3Handles
