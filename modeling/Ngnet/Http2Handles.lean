import Mathlib.Logic.Function.Basic
import Ngnet.Http2Heads

/-!
# What handles and the driver of an HTTP/2 connection share

The crate `ngnet-h2`: `http/shared.rs`, with the handles of `http/client.rs` and `http/connection.rs` and the bodies of
`http/body/incoming.rs`. A handle and the driver live on different tasks. Every call of a handle is cut into its
atomic steps, one for each lock taken, and any number of calls is under way at once.

A slot is made by a call of `send_request`, a receiving side by the driver when the stream begins; those of one stream
are one `Exchange` here. Wakers are left out, and a driver that has nothing to do may run a pass all the same. A hash
map or set is a list of its entries. Beside the fields of the source an exchange carries what has happened to it: the
outcomes recorded in its slot, and what its body has yielded.
-/

namespace Ngnet.Http2Handles
open QmuxVarints Http2Heads
open Http3Heads (HeaderMap RequestParts ResponseParts)

/-! ## Shared work -/

/-- The codes of frames that this crate gives. -/
def noError : ℕ := 0x0
def protocolError : ℕ := 0x1
def internalError : ℕ := 0x2
def refusedStream : ℕ := 0x7
def cancel : ℕ := 0x8

inductive GoawayTarget
  | stream (last : ℕ)
  | lastProcessed
  deriving DecidableEq, Repr

structure Inner where
  ready : List ℕ := []
  credits : List (ℕ × ℕ) := []
  trailers : List (ℕ × HeaderMap) := []
  resets : List (ℕ × ℕ) := []
  shutdown : Option (GoawayTarget × ℕ) := none
  refusing : Bool := false
  draining : Bool := false
  gone : Bool := false
  deriving DecidableEq, Repr

/-- Adds to the entry of a stream. -/
def addTo (stream len : ℕ) : List (ℕ × ℕ) → List (ℕ × ℕ)
  | [] => [(stream, len)]
  | (other, held) :: rest =>
    if other = stream then (other, held + len) :: rest else (other, held) :: addTo stream len rest

namespace Inner

def markReady (inner : Inner) (stream : ℕ) : Inner :=
  if stream = 0 ∨ stream ∈ inner.ready then inner else { inner with ready := inner.ready ++ [stream] }

def credit (inner : Inner) (stream len : ℕ) : Inner :=
  if len = 0 then inner else { inner with credits := addTo stream len inner.credits }

def stashTrailers (inner : Inner) (stashed : List (ℕ × HeaderMap)) : Inner :=
  { inner with trailers := inner.trailers ++ stashed }

def reset (inner : Inner) (stream code : ℕ) : Inner :=
  if stream = 0 then inner else { inner with resets := inner.resets ++ [(stream, code)] }

def requestShutdown (inner : Inner) (lastStream code : ℕ) : Inner :=
  { inner with refusing := true, shutdown := some (.stream lastStream, code) }

def requestDrain (inner : Inner) (code : ℕ) : Inner :=
  { inner with refusing := true, draining := true, shutdown := some (.lastProcessed, code) }

end Inner

/-! ## Slots -/

structure Slot where
  outcome : Option (Except Error ResponseParts) := none
  settled : Bool := false
  stream : ℕ := 0
  abandoned : Bool := false
  record : List (Except Error ResponseParts) := []
  deriving DecidableEq, Repr

namespace Slot

/-- What `complete` and `fail` have in common. -/
def settle (slot : Slot) (outcome : Except Error ResponseParts) : Slot :=
  if slot.settled then slot
  else { slot with settled := true, outcome := some outcome, record := slot.record ++ [outcome] }

def complete (slot : Slot) (head : ResponseParts) : Slot := slot.settle (.ok head)

def fail (slot : Slot) (error : Error) : Slot := slot.settle (.error error)

def bind (slot : Slot) (stream : ℕ) : Bool × Slot := (slot.abandoned, { slot with stream })

def cancel (slot : Slot) : Option ℕ × Slot :=
  if slot.settled then (none, slot)
  else (if 0 < slot.stream then some slot.stream else none, { slot with abandoned := true })

def poll (slot : Slot) : Option (Except Error ResponseParts) × Slot := (slot.outcome, { slot with outcome := none })

end Slot

/-! ## The receiving side -/

inductive Received
  | data (chunk : Bytes)
  | failed (error : Error)
  | trailers (fields : HeaderMap)
  | finished
  deriving DecidableEq, Repr

structure Incoming where
  chunks : List Bytes := []
  queued : ℕ := 0
  trailers : Option HeaderMap := none
  finished : Bool := false
  error : Option Error := none
  abandoned : Bool := false
  yielded : List Received := []
  deriving DecidableEq, Repr

namespace Incoming

/-- Queues a chunk; of one that nobody will read, the octets are handed straight back. -/
def push (incoming : Incoming) (chunk : Bytes) : ℕ × Incoming :=
  if incoming.abandoned then (chunk.length, incoming)
  else (0, { incoming with queued := incoming.queued + chunk.length, chunks := incoming.chunks ++ [chunk] })

def setTrailers (incoming : Incoming) (fields : HeaderMap) : Incoming := { incoming with trailers := some fields }

def finish (incoming : Incoming) : Incoming := { incoming with finished := true }

def fail (incoming : Incoming) (error : Error) : Incoming :=
  if incoming.finished || incoming.error.isSome then incoming else { incoming with error := some error }

def isFinished (incoming : Incoming) : Bool := incoming.finished || incoming.error.isSome

/-- `poll_frame`, without the record of what it yields. -/
def take (incoming : Incoming) : Option Received × Incoming :=
  match incoming.chunks, incoming.error, incoming.trailers with
  | chunk :: chunks, _, _ => (some (.data chunk), { incoming with chunks, queued := incoming.queued - chunk.length })
  | [], some error, _ => (some (.failed error), { incoming with error := none })
  | [], none, some fields => (some (.trailers fields), { incoming with trailers := none })
  | [], none, none => (if incoming.finished then some .finished else none, incoming)

def pollFrame (incoming : Incoming) : Option Received × Incoming :=
  let (received, incoming) := incoming.take
  (received, { incoming with yielded := incoming.yielded ++ received.toList })

def abandon (incoming : Incoming) : ℕ × Incoming :=
  (incoming.queued, { incoming with abandoned := true, chunks := [], trailers := none, queued := 0 })

end Incoming

/-- The failure a stream that closed without ending its message reports. -/
def truncated : Error := ⟨.stream, "the stream closed before the message body ended", none⟩

/-! ## Exchanges -/

/-- A caller's `http_body::Body`: which one it is, and what it says of its end. -/
structure CallerBody where
  source : ℕ
  isEndStream : Bool
  deriving DecidableEq, Repr

structure Request where
  parts : RequestParts
  body : CallerBody
  deriving DecidableEq, Repr

structure Response where
  parts : ResponseParts
  body : CallerBody
  deriving DecidableEq, Repr

/-- Where a call of `send_request`, and the future it returns, have got to. A future is `linked` to the connection
unless the call settled it. -/
inductive FuturePhase
  | absent
  | checkingGone
  | checkingRefusing
  | failing (error : Error)
  | pushing
  | checkingAgain
  | draining
  | failingDrained (slots : List ℕ)
  | pending (linked : Bool)
  | resolved (linked : Bool)
  | dropping
  | dropReset (stream : ℕ)
  | gone
  deriving DecidableEq, Repr

namespace FuturePhase

/-- The call that makes the future has not returned. -/
def isCalling : FuturePhase → Bool
  | .checkingGone | .checkingRefusing | .failing _ | .pushing | .checkingAgain | .draining | .failingDrained _ => true
  | _ => false

end FuturePhase

inductive Direction | response | request
  deriving DecidableEq, Repr

/-- Where a body has got to: it is in the slot of its response, it is read, or one of its calls is under way. -/
inductive BodyPhase
  | inSlot
  | held
  | crediting (len : ℕ)
  | dropChecking
  | dropAbandoning (complete : Bool)
  | dropCrediting (complete : Bool) (unread : ℕ)
  | dropResetting
  | gone
  deriving DecidableEq, Repr

structure IncomingBody where
  stream : ℕ
  direction : Direction
  phase : BodyPhase
  deriving DecidableEq, Repr

structure Exchange where
  request : Option Request := none
  slot : Slot := {}
  incoming : Incoming := {}
  future : FuturePhase := .absent
  body : Option IncomingBody := none
  deriving DecidableEq, Repr

structure Command where
  request : Request
  exchange : ℕ
  deriving DecidableEq, Repr

/-- What handles and the driver share: `Shared`, the queue, the exchanges, of which `created` were made, and how many
handles are left. It also counts the requests that were pushed, and how often the connection was asked to go away. -/
structure Common where
  inner : Inner := {}
  queue : List Command := []
  exchanges : ℕ → Exchange := fun _ => {}
  created : ℕ := 0
  handles : ℕ := 1
  pushed : ℕ := 0
  asked : ℕ := 0

namespace Common

def modifyExchange (c : Common) (id : ℕ) (f : Exchange → Exchange) : Common :=
  { c with exchanges := Function.update c.exchanges id (f (c.exchanges id)) }

def setFuture (c : Common) (id : ℕ) (future : FuturePhase) : Common := c.modifyExchange id ({ · with future })

def setBody (c : Common) (id : ℕ) (body : IncomingBody) : Common :=
  c.modifyExchange id ({ · with body := some body })

def modifySlot (c : Common) (id : ℕ) (f : Slot → Slot) : Common :=
  c.modifyExchange id fun e => { e with slot := f e.slot }

def modifyIncoming (c : Common) (id : ℕ) (f : Incoming → Incoming) : Common :=
  c.modifyExchange id fun e => { e with incoming := f e.incoming }

def modifyInner (c : Common) (f : Inner → Inner) : Common := { c with inner := f c.inner }

/-- Asks the connection to go away. -/
def ask (c : Common) (f : Inner → Inner) : Common := { c.modifyInner f with asked := c.asked + 1 }

/-! ## Requests and their futures -/

/-- `send_request` makes the slot. -/
def sendRequest (c : Common) (request : Request) : Common :=
  if c.handles = 0 then c
  else
    { c with
      created := c.created + 1
      exchanges := Function.update c.exchanges c.created { request := some request, future := .checkingGone } }

/-- The next step of the call that is under way on a future. -/
def stepFuture (c : Common) (id : ℕ) : Common :=
  match (c.exchanges id).future with
  | .checkingGone => c.setFuture id (if c.inner.gone then .failing .closed else .checkingRefusing)
  | .checkingRefusing => c.setFuture id (if c.inner.refusing then .failing .refused else .pushing)
  | .failing error => (c.modifySlot id (·.fail error)).setFuture id (.pending false)
  | .pushing =>
    match (c.exchanges id).request with
    | some request =>
      ({ c with queue := c.queue ++ [⟨request, id⟩], pushed := c.pushed + 1 } : Common).setFuture id .checkingAgain
    | none => c
  | .checkingAgain => c.setFuture id (if c.inner.gone then .draining else .pending true)
  | .draining => ({ c with queue := [] } : Common).setFuture id (.failingDrained (c.queue.map (·.exchange)))
  | .failingDrained (slot :: slots) => (c.modifySlot slot (·.fail .closed)).setFuture id (.failingDrained slots)
  | .failingDrained [] => c.setFuture id (.pending true)
  | .dropping =>
    let (stream, slot) := (c.exchanges id).slot.cancel
    (c.modifySlot id fun _ => slot).setFuture id (match stream with
      | some stream => .dropReset stream
      | none => .gone)
  | .dropReset stream => (c.modifyInner (·.reset stream Http2Handles.cancel)).setFuture id .gone
  | .absent | .pending _ | .resolved _ | .gone => c

/-- The body that comes with a response leaves the slot. -/
def handOver : Option IncomingBody → Option IncomingBody
  | some body => some { body with phase := .held }
  | none => none

def pollFuture (c : Common) (id : ℕ) : Common :=
  match (c.exchanges id).future with
  | .pending linked =>
    match (c.exchanges id).slot.poll with
    | (none, _) => c
    | (some (.error _), slot) => (c.modifySlot id fun _ => slot).setFuture id (.resolved linked)
    | (some (.ok _), slot) =>
      ((c.modifySlot id fun _ => slot).modifyExchange id fun e => { e with body := handOver e.body }).setFuture id
        (.resolved linked)
  | _ => c

def dropFuture (c : Common) (id : ℕ) : Common :=
  match (c.exchanges id).future with
  | .pending linked | .resolved linked => c.setFuture id (if linked then .dropping else .gone)
  | _ => c

/-! ## Bodies -/

/-- What is left of a body's drop behind the credit. -/
def afterCredit (body : IncomingBody) (complete : Bool) : BodyPhase :=
  if body.direction = .response ∧ ¬ complete then .dropResetting else .gone

/-- What a body does behind a frame that it has read. -/
def phaseAfter : Option Received → BodyPhase
  | some (.data chunk) => if chunk.length = 0 then .held else .crediting chunk.length
  | _ => .held

/-- `poll_frame`, up to the credit. -/
def pollBody (c : Common) (id : ℕ) : Common :=
  match (c.exchanges id).body with
  | some body =>
    if body.phase = .held then
      let (received, incoming) := (c.exchanges id).incoming.pollFrame
      (c.modifyIncoming id fun _ => incoming).setBody id { body with phase := phaseAfter received }
    else c
  | none => c

/-- The next step of the call that is under way on a body. -/
def stepBody (c : Common) (id : ℕ) : Common :=
  match (c.exchanges id).body with
  | none => c
  | some body =>
    match body.phase with
    | .inSlot | .held | .gone => c
    | .crediting len => (c.modifyInner (·.credit body.stream len)).setBody id { body with phase := .held }
    | .dropChecking =>
      c.setBody id { body with phase := .dropAbandoning (c.exchanges id).incoming.isFinished }
    | .dropAbandoning complete =>
      let (unread, incoming) := (c.exchanges id).incoming.abandon
      (c.modifyIncoming id fun _ => incoming).setBody id { body with
        phase := if unread = 0 then afterCredit body complete else .dropCrediting complete unread }
    | .dropCrediting complete unread =>
      (c.modifyInner (·.credit body.stream unread)).setBody id { body with phase := afterCredit body complete }
    | .dropResetting =>
      (c.modifyInner (·.reset body.stream Http2Handles.cancel)).setBody id { body with phase := .gone }

def dropBody (c : Common) (id : ℕ) : Common :=
  match (c.exchanges id).body with
  | some body => if body.phase = .held then c.setBody id { body with phase := .dropChecking } else c
  | none => c

/-! ## What others do -/

/-- One atomic step of a handle, a future or a body. -/
inductive Action
  | sendRequest (request : Request)
  | stepFuture (id : ℕ)
  | pollFuture (id : ℕ)
  | dropFuture (id : ℕ)
  | pollBody (id : ℕ)
  | stepBody (id : ℕ)
  | dropBody (id : ℕ)
  | cloneHandle
  | dropHandle
  | shutdown
  | drain
  deriving DecidableEq, Repr

/-- A call that is under way borrows its handle. -/
def calling (c : Common) : Bool := (List.range c.created).any fun id => (c.exchanges id).future.isCalling

def act (c : Common) : Action → Common
  | .sendRequest request => c.sendRequest request
  | .stepFuture id => c.stepFuture id
  | .pollFuture id => c.pollFuture id
  | .dropFuture id => c.dropFuture id
  | .pollBody id => c.pollBody id
  | .stepBody id => c.stepBody id
  | .dropBody id => c.dropBody id
  | .cloneHandle => if c.handles = 0 then c else { c with handles := c.handles + 1 }
  | .dropHandle => if c.handles = 1 ∧ c.calling then c else { c with handles := c.handles - 1 }
  | .shutdown => if c.handles = 0 then c else c.ask (·.requestShutdown 0 noError)
  | .drain => c.ask (·.requestDrain noError)

end Common

end Ngnet.Http2Handles
