import Std.Data.TreeMap.Lemmas
import Ngnet.InterleavedPrograms
import Ngnet.Http2Handles

/-!
# The driver of an HTTP/2 connection

The crate `ngnet-h2`: `http/driver.rs`, with the roles of `http/client.rs` and `http/server.rs` and the handlers of
`http/tasks.rs`. The session, the transport and the handlers of a server are parameters, the classes `Session`,
`Transport` and `Handlers`; what the session observes while it receives or sends is part of its answer.

The driver is a program over the operations `Op`, each of which takes one lock at most. The registry, the session and
the events are the driver's alone, so what it does with them is part of the operation before or behind it. Where a
function takes something out of the shared state and acts on it in several operations, its local variable is a field
of the driver. The reading half posts buffers at any time, as an action of its own. The four drains differ in what they
offer and when; here a write may follow each call of the session.

Loops that run for as long as their environment lets them are given a bound, `fuel`. The driver also carries what has
happened: the calls of the session that submit, reset, consume and wind down, which of them were `serialised` and
`committed`, the data that was delivered, the streams whose handlers were started, how many requests it had `taken` and
how often it had `heard` that it should go away, and that it has found nothing left to do. The read buffers and their
pool, and the signal that tells a handler of a lost stream, are left out.
-/

namespace Ngnet.Http2Driver
open QmuxVarints Http2Heads Http2Handles InterleavedPrograms
open Http3Heads (Http HeaderMap RequestParts ResponseParts Field isInformational)

/-! ## The session -/

/-- One thing the handlers of the session observed. -/
inductive Event
  | head (stream : ℕ) (fields : List Field)
  | trailers (stream : ℕ) (fields : List Field)
  | data (stream : ℕ) (data : Bytes)
  | finished (stream : ℕ)
  | goaway (lastStream code : ℕ)
  | close (stream code : ℕ) (failure : Option Error)
  deriving DecidableEq, Repr

/-- What one call of `send_into` answers, and what happened during it. -/
structure Sent where
  result : Except Unit Bool
  events : List Event
  stashed : List (ℕ × HeaderMap)

inductive Resumed | resumed | nothing | failed
  deriving DecidableEq, Repr

inductive SessionCall : Type → Type
  | submitRequest (headers : OwnedHeaders) (body : Option CallerBody) : SessionCall (Except Unit ℕ)
  | submitResponse (stream : ℕ) (headers : OwnedHeaders) (body : Option CallerBody) : SessionCall (Except Unit Unit)
  | submitTrailer (stream : ℕ) (headers : OwnedHeaders) : SessionCall (Except Unit Unit)
  | resetStream (stream code : ℕ) : SessionCall (Except Unit Unit)
  | consume (stream len : ℕ) : SessionCall (Except Unit Unit)
  | shutdown (lastStream code : ℕ) : SessionCall (Except Unit Unit)
  | resumeBody (stream : ℕ) : SessionCall Resumed
  | streamIsOpen (stream : ℕ) : SessionCall Bool
  | trailersReady (stream : ℕ) : SessionCall Bool
  | lastProcessedStream : SessionCall ℕ
  | wantWrite : SessionCall Bool
  | midFrame : SessionCall Bool
  | recv (input : Bytes) : SessionCall (Except Unit Unit × List Event)
  | send : SessionCall Sent

/-- The session, with the bodies it was given. -/
class Session (δ : Type) where
  call : {α : Type} → SessionCall α → δ → α × δ

/-- The writing half: whether what is to be written by now was, and the commit. -/
class Transport (τ : Type) where
  write : τ → Except Unit Unit × τ
  commit : τ → Except Unit Unit × τ

/-- The handler of a server, and the futures it returned. What a handler does with the body of its request is an
action of the body. -/
class Handlers (η : Type) where
  start : ℕ → RequestParts → η → η
  poll : ℕ → η → Option Response × η

/-! ## State -/

inductive Role
  | client
  | server (maxConcurrentStreams : ℕ)
  deriving DecidableEq, Repr

structure Entry where
  slot : Option ℕ
  incoming : ℕ
  deriving DecidableEq, Repr

/-- A call of the session that changes what the peer will see. -/
inductive Called
  | submitted (stream : ℕ)
  | reset (stream code : ℕ)
  | consumed (stream len : ℕ)
  | goaway (lastStream code : ℕ)
  deriving DecidableEq, Repr

structure DriverState (δ τ η : Type) where
  session : δ
  io : τ
  handlers : η
  inbox : List Bytes := []
  readFinished : Bool := false
  readFailed : Bool := false
  events : List Event := []
  registry : Std.TreeMap ℕ Entry := {}
  hand : List Command := []
  current : Option Command := none
  credited : List (ℕ × ℕ) := []
  toReset : List (ℕ × ℕ) := []
  unreturned : Option (ℕ × ℕ) := none
  leaving : List Entry := []
  running : List ℕ := []
  woken : List ℕ := []
  calls : List Called := []
  serialised : List Called := []
  committed : List Called := []
  delivered : List (ℕ × ℕ) := []
  invoked : List ℕ := []
  taken : ℕ := 0
  heard : ℕ := 0
  finishing : Bool := false

structure World (δ τ η : Type) where
  common : Common := {}
  driver : DriverState δ τ η

/-! ## Operations -/

inductive Op : Type → Type 1
  /-- The future has returned `Pending`, or was not polled yet. -/
  | await : Op Unit
  | session {α : Type} (call : SessionCall α) : Op α
  /-- Takes a buffer out of the inbox and gives it to the session. -/
  | feed : Op (Option (Except Unit Unit))
  | send : Op (Except Unit Bool)
  | write : Op (Except Unit Unit)
  | commit : Op (Except Unit Unit)
  | readFinished : Op Bool
  | takeFailure : Op Bool
  -- `Shared`
  | takeCredits : Op ℕ
  /-- Reports the first of the credits that were taken. -/
  | consumeNext : Op (Except Unit Unit)
  | takeResets : Op ℕ
  /-- Applies the first of the resets that were taken, if its stream is open. -/
  | sweepNext : Op (Except Unit Unit)
  | takeShutdown : Op (Option (GoawayTarget × ℕ))
  | takeReady : Op (List ℕ)
  | takeTrailers : Op (List (ℕ × HeaderMap))
  | setRefusing : Op Unit
  | setGone : Op Unit
  | reset (stream code : ℕ) : Op Unit
  | isDone (role : Role) : Op Bool
  | workPending : Op Bool
  -- events
  | eventCount : Op ℕ
  /-- The next event; one of data stays, for `deliverData`. -/
  | nextEvent : Op (Option Event)
  | deliverData : Op (Except Unit Unit)
  -- the registry, and the exchanges in it
  | enterIncoming (stream : ℕ) : Op Unit
  | registered (stream : ℕ) : Op Bool
  | hasSlot (stream : ℕ) : Op Bool
  | slotSettled (stream : ℕ) : Op Bool
  | completeSlot (stream : ℕ) (head : ResponseParts) : Op Bool
  | failSlot (stream : ℕ) (error : Error) : Op Unit
  | failIncoming (stream : ℕ) (error : Error) : Op Unit
  | setTrailers (stream : ℕ) (fields : HeaderMap) : Op Unit
  | finishIncoming (stream : ℕ) : Op Unit
  /-- Abandons the receiving side and resets the stream; what was unread may be reported. -/
  | refuseStream (stream code : ℕ) (reporting : Bool) : Op (Except Unit Unit)
  -- the drop of a body that no slot took
  | freshFinished (stream : ℕ) : Op Bool
  | abandonFresh (stream : ℕ) : Op Unit
  | creditFresh : Op Unit
  | startedAbove (role : Role) (limit : ℕ) : Op (List ℕ)
  /-- Removes an entry, which is then leaving. -/
  | removeEntry (stream : ℕ) : Op Bool
  | leavingUnsettled : Op Bool
  | failLeavingSlot (error : Error) : Op Unit
  | failLeavingIncoming (error : Error) : Op Unit
  | forgetLeaving : Op Unit
  | takeAll : Op ℕ
  | registryEmpty : Op Bool
  /-- Whether this pass was the last. -/
  | nothingLeft (role : Role) : Op Bool
  -- the client
  | queueEmpty : Op Bool
  | drainQueue : Op ℕ
  /-- The next command in hand, unless it was abandoned. -/
  | nextCommand : Op (Option Request)
  | refuse (error : Error) : Op Unit
  /-- Binds the slot and registers the exchange; whether it is unwanted. -/
  | enter (stream : ℕ) : Op Bool
  | failHand (error : Error) : Op Unit
  -- the server
  | handlerCount : Op ℕ
  | startHandler (stream : ℕ) (head : RequestParts) : Op Unit
  | takeWoken : Op (List ℕ)
  | anyWoken : Op Bool
  | pollHandler (stream : ℕ) : Op (Option Response)
  | abandonHandlers : Op Unit

variable {δ τ η α : Type}

/-- What the log keeps of a call. -/
def logged : {α : Type} → SessionCall α → α → List Called
  | _, .submitRequest _ _, .ok stream => [.submitted stream]
  | _, .resetStream stream code, _ => [.reset stream code]
  | _, .consume stream len, _ => [.consumed stream len]
  | _, .shutdown lastStream code, _ => [.goaway lastStream code]
  | _, _, _ => []

/-- What `consume` accounts in. -/
def consumeLimit : ℕ := 2 ^ 31

namespace DriverState

def entry (d : DriverState δ τ η) (stream : ℕ) : Option Entry := d.registry[stream]?

def entries (d : DriverState δ τ η) : List Entry := d.registry.toList.map (·.2)

variable [Session δ]

def call (call : SessionCall α) (d : DriverState δ τ η) : α × DriverState δ τ η :=
  let (answer, session) := Session.call call d.session
  (answer, { d with session, calls := d.calls ++ logged call answer })

/-- `Session::consume`, which checks the length first. -/
def consume (stream len : ℕ) (d : DriverState δ τ η) : Except Unit Unit × DriverState δ τ η :=
  if consumeLimit ≤ len then (.error (), d) else d.call (.consume stream len)

/-- The data among the events, by stream. -/
def dataOf (events : List Event) : List (ℕ × ℕ) := events.filterMap fun event =>
  match event with
  | .data stream data => some (stream, data.length)
  | _ => none

def observe (events : List Event) (d : DriverState δ τ η) : DriverState δ τ η :=
  { d with events := d.events ++ events, delivered := d.delivered ++ dataOf events }

def feed (d : DriverState δ τ η) : Option (Except Unit Unit) × DriverState δ τ η :=
  match d.inbox with
  | [] => (none, d)
  | buffer :: inbox =>
    let ((result, events), d) := { d with inbox }.call (.recv buffer)
    (some result, d.observe events)

/-- `send_into`, with what the session observes. When there is nothing more to send, all that was called for is out. -/
def send (d : DriverState δ τ η) : Sent × DriverState δ τ η :=
  let (sent, d) := d.call .send
  let d := d.observe sent.events
  (sent, { d with serialised := match sent.result with
    | .ok false => d.calls
    | _ => d.serialised })

def consumeNext (d : DriverState δ τ η) : Except Unit Unit × DriverState δ τ η :=
  match d.credited with
  | [] => (.ok (), d)
  | (stream, len) :: credited => { d with credited }.consume stream len

def sweepNext (d : DriverState δ τ η) : Except Unit Unit × DriverState δ τ η :=
  match d.toReset with
  | [] => (.ok (), d)
  | (stream, code) :: toReset =>
    let (isOpen, d) := { d with toReset }.call (.streamIsOpen stream)
    if isOpen then d.call (.resetStream stream code) else (.ok (), d)

/-- `BTreeMap::insert`, on the keys of the running handlers. -/
def startRunning (running : List ℕ) (stream : ℕ) : List ℕ :=
  if stream ∈ running then running else running ++ [stream]

end DriverState

namespace World

def onDriver (w : World δ τ η) (f : DriverState δ τ η → DriverState δ τ η) : World δ τ η :=
  { w with driver := f w.driver }

def onCommon (w : World δ τ η) (f : Common → Common) : World δ τ η := { w with common := f w.common }

/-- Runs what answers on the driver's own state. -/
def locally (w : World δ τ η) (f : DriverState δ τ η → α × DriverState δ τ η) : α × World δ τ η :=
  let (a, driver) := f w.driver
  (a, { w with driver })

/-- Acts on the receiving side registered for a stream, if there is one. -/
def onIncoming (w : World δ τ η) (stream : ℕ) (f : Incoming → Incoming) : World δ τ η :=
  match w.driver.entry stream with
  | some entry => w.onCommon (·.modifyIncoming entry.incoming f)
  | none => w

def slotOf (w : World δ τ η) (stream : ℕ) : Option ℕ := (w.driver.entry stream).bind (·.slot)

def onSlot (w : World δ τ η) (stream : ℕ) (f : Slot → Slot) : World δ τ η :=
  match w.slotOf stream with
  | some id => w.onCommon (·.modifySlot id f)
  | none => w

def incomingOf (w : World δ τ η) (stream : ℕ) : Incoming :=
  match w.driver.entry stream with
  | some entry => (w.common.exchanges entry.incoming).incoming
  | none => {}

/-- `Registry::insert` of a new exchange, for a stream that has none. -/
def enterIncoming (w : World δ τ η) (stream : ℕ) : World δ τ η :=
  match w.driver.entry stream with
  | some _ => w
  | none =>
    { common := { w.common with
        created := w.common.created + 1
        exchanges := Function.update w.common.exchanges w.common.created {} }
      driver := { w.driver with registry := w.driver.registry.insert stream ⟨none, w.common.created⟩ } }

/-- `Slot::complete`: a slot that is not settled takes the head and the body with it. -/
def completeSlot (w : World δ τ η) (stream : ℕ) (head : ResponseParts) : Bool × World δ τ η :=
  match w.slotOf stream with
  | none => (true, w)
  | some id =>
    if (w.common.exchanges id).slot.settled then (false, w)
    else (true, w.onCommon fun c => (c.modifySlot id (·.complete head)).setBody id ⟨stream, .response, .inSlot⟩)

variable [Session δ]

def deliverData (w : World δ τ η) : Except Unit Unit × World δ τ η :=
  match w.driver.events with
  | .data stream data :: events =>
    let w := w.onDriver ({ · with events })
    match w.driver.entry stream with
    | none => if data.length = 0 then (.ok (), w) else w.locally (·.consume stream data.length)
    | some entry =>
      let (unwanted, incoming) := (w.common.exchanges entry.incoming).incoming.push data
      let w := w.onCommon (·.modifyIncoming entry.incoming fun _ => incoming)
      if unwanted = 0 then (.ok (), w) else w.locally (·.consume stream unwanted)
  | _ => (.ok (), w)

def refuseStream (w : World δ τ η) (stream code : ℕ) (reporting : Bool) : Except Unit Unit × World δ τ η :=
  let unread := (w.incomingOf stream).queued
  let w := w.onIncoming stream fun incoming => incoming.abandon.2
  match w.locally (·.call (.resetStream stream code)) with
  | (.error (), w) => (.error (), w)
  | (.ok (), w) => if reporting ∧ 0 < unread then w.locally (·.consume stream unread) else (.ok (), w)

def nextCommand (w : World δ τ η) : Option Request × World δ τ η :=
  match w.driver.hand with
  | [] => (none, w)
  | command :: hand =>
    if (w.common.exchanges command.exchange).slot.abandoned then (none, w.onDriver ({ · with hand }))
    else (some command.request, w.onDriver ({ · with hand, current := some command }))

def onCurrent (w : World δ τ η) (f : Slot → Slot) : World δ τ η :=
  match w.driver.current with
  | some command => w.onCommon (·.modifySlot command.exchange f)
  | none => w

/-- `Slot::bind` and `Registry::insert`. -/
def enter (w : World δ τ η) (stream : ℕ) : Bool × World δ τ η :=
  match w.driver.current with
  | none => (false, w)
  | some ⟨_, id⟩ =>
    let (unwanted, slot) := (w.common.exchanges id).slot.bind stream
    (unwanted, (w.onCommon (·.modifySlot id fun _ => slot)).onDriver fun d =>
      { d with registry := d.registry.insert stream ⟨some id, id⟩ })

def failHand (w : World δ τ η) (error : Error) : World δ τ η :=
  match w.driver.hand with
  | [] => w
  | command :: hand => (w.onCommon (·.modifySlot command.exchange (·.fail error))).onDriver ({ · with hand })

def failSlots (c : Common) (slot : Option ℕ) (error : Error) : Common :=
  match slot with
  | some id => c.modifySlot id (·.fail error)
  | none => c

/-- Acts on the exchange of the entry that is leaving. -/
def onLeaving (w : World δ τ η) (f : Entry → Common → Common) : World δ τ η :=
  match w.driver.leaving with
  | entry :: _ => w.onCommon (f entry)
  | [] => w

def leavingUnsettled (w : World δ τ η) : Bool :=
  match w.driver.leaving with
  | ⟨some id, _⟩ :: _ => !(w.common.exchanges id).slot.settled
  | _ => false

/-- `Tasks::poll`. -/
def pollHandler [Handlers η] (w : World δ τ η) (stream : ℕ) : Option Response × World δ τ η :=
  if stream ∈ w.driver.running then
    match Handlers.poll stream w.driver.handlers with
    | (none, handlers) => (none, w.onDriver ({ · with handlers }))
    | (some response, handlers) => (some response, w.onDriver fun d =>
        { d with handlers, running := d.running.erase stream, woken := d.woken.erase stream })
  else (none, w)

/-- The body of a request goes to its handler. -/
def startHandler [Handlers η] (w : World δ τ η) (stream : ℕ) (head : RequestParts) : World δ τ η :=
  let w := match w.driver.entry stream with
    | some entry => w.onCommon (·.setBody entry.incoming ⟨stream, .request, .held⟩)
    | none => w
  w.onDriver fun d => { d with
    handlers := Handlers.start stream head d.handlers
    running := DriverState.startRunning d.running stream
    woken := DriverState.startRunning d.woken stream
    invoked := d.invoked ++ [stream] }

/-- Whether nothing further can arrive. -/
def isDone (w : World δ τ η) : Role → Bool
  | .client => w.common.handles == 0
  | .server _ => w.common.inner.draining

def nothingLeft (w : World δ τ η) (role : Role) : Bool × World δ τ η :=
  if w.isDone role && w.driver.registry.isEmpty then
    let (wants, w) := w.locally (·.call .wantWrite)
    (!wants, w.onDriver ({ · with finishing := !wants }))
  else (false, w)

/-- What `started` says of a stream. -/
def started (role : Role) (stream : ℕ) : Bool :=
  match role with
  | .client => stream % 2 = 1
  | .server _ => stream % 2 = 0

def applyOp [Transport τ] [Handlers η] : {β : Type} → Op β → World δ τ η → β × World δ τ η
  | _, .await, w => ((), w)
  | _, .session call, w => w.locally (·.call call)
  | _, .feed, w => w.locally (·.feed)
  | _, .send, w =>
    let (sent, w) := w.locally (·.send)
    (sent.result, w.onCommon (·.modifyInner (·.stashTrailers sent.stashed)))
  | _, .write, w =>
    let (result, io) := Transport.write w.driver.io
    (result, w.onDriver ({ · with io }))
  | _, .commit, w =>
    let (result, io) := Transport.commit w.driver.io
    (result, w.onDriver fun d => { d with io, committed := if result.isOk then d.serialised else d.committed })
  | _, .readFinished, w => (w.driver.readFinished && w.driver.inbox.isEmpty, w)
  | _, .takeFailure, w => (w.driver.readFailed, w.onDriver ({ · with readFailed := false }))
  | _, .takeCredits, w =>
    (w.common.inner.credits.length, (w.onCommon (·.modifyInner ({ · with credits := [] }))).onDriver
      ({ · with credited := w.common.inner.credits }))
  | _, .consumeNext, w => w.locally (·.consumeNext)
  | _, .takeResets, w =>
    (w.common.inner.resets.length, (w.onCommon (·.modifyInner ({ · with resets := [] }))).onDriver
      ({ · with toReset := w.common.inner.resets }))
  | _, .sweepNext, w => w.locally (·.sweepNext)
  | _, .takeShutdown, w =>
    (w.common.inner.shutdown,
      (w.onCommon (·.modifyInner ({ · with shutdown := none }))).onDriver ({ · with heard := w.common.asked }))
  | _, .takeReady, w => (w.common.inner.ready, w.onCommon (·.modifyInner ({ · with ready := [] })))
  | _, .takeTrailers, w => (w.common.inner.trailers, w.onCommon (·.modifyInner ({ · with trailers := [] })))
  | _, .setRefusing, w => ((), w.onCommon (·.modifyInner ({ · with refusing := true })))
  | _, .setGone, w => ((), w.onCommon (·.modifyInner ({ · with gone := true })))
  | _, .reset stream code, w => ((), w.onCommon (·.modifyInner (·.reset stream code)))
  | _, .isDone role, w => (w.isDone role, w)
  | _, .workPending, w =>
    (!w.common.inner.ready.isEmpty || !w.common.inner.credits.isEmpty || !w.common.inner.resets.isEmpty ||
      w.common.inner.shutdown.isSome || !w.common.inner.trailers.isEmpty || !w.driver.inbox.isEmpty ||
      w.driver.readFinished, w)
  | _, .eventCount, w => (w.driver.events.length, w)
  | _, .nextEvent, w =>
    (w.driver.events.head?, w.onDriver fun d => { d with
      events := match d.events with
        | .data stream data :: events => .data stream data :: events
        | events => events.tail })
  | _, .deliverData, w => w.deliverData
  | _, .enterIncoming stream, w => ((), w.enterIncoming stream)
  | _, .registered stream, w => ((w.driver.entry stream).isSome, w)
  | _, .hasSlot stream, w => ((w.slotOf stream).isSome, w)
  | _, .slotSettled stream, w => ((w.slotOf stream).any fun id => (w.common.exchanges id).slot.settled, w)
  | _, .completeSlot stream head, w => w.completeSlot stream head
  | _, .failSlot stream error, w => ((), w.onSlot stream (·.fail error))
  | _, .failIncoming stream error, w => ((), w.onIncoming stream (·.fail error))
  | _, .setTrailers stream fields, w => ((), w.onIncoming stream (·.setTrailers fields))
  | _, .finishIncoming stream, w => ((), w.onIncoming stream (·.finish))
  | _, .refuseStream stream code reporting, w => w.refuseStream stream code reporting
  | _, .freshFinished stream, w => ((w.incomingOf stream).isFinished, w)
  | _, .abandonFresh stream, w =>
    ((), (w.onIncoming stream fun incoming => incoming.abandon.2).onDriver
      ({ · with unreturned := some (stream, (w.incomingOf stream).queued) }))
  | _, .creditFresh, w =>
    ((), match w.driver.unreturned with
      | some (stream, len) =>
        (w.onCommon (·.modifyInner (·.credit stream len))).onDriver ({ · with unreturned := none })
      | none => w)
  | _, .startedAbove role limit, w =>
    (w.driver.registry.keys.filter fun stream => limit < stream ∧ started role stream, w)
  | _, .removeEntry stream, w =>
    match w.driver.entry stream with
    | none => (false, w)
    | some entry => (true, w.onDriver fun d =>
        { d with registry := d.registry.erase stream, leaving := [entry] })
  | _, .leavingUnsettled, w => (w.leavingUnsettled, w)
  | _, .failLeavingSlot error, w => ((), w.onLeaving fun entry c => failSlots c entry.slot error)
  | _, .failLeavingIncoming error, w => ((), w.onLeaving fun entry c => c.modifyIncoming entry.incoming (·.fail error))
  | _, .forgetLeaving, w => ((), w.onDriver fun d => { d with leaving := d.leaving.tail })
  | _, .takeAll, w =>
    (w.driver.entries.length, w.onDriver fun d => { d with registry := {}, leaving := d.entries })
  | _, .registryEmpty, w => (w.driver.registry.isEmpty, w)
  | _, .nothingLeft role, w => w.nothingLeft role
  | _, .queueEmpty, w => (w.common.queue.isEmpty, w)
  | _, .drainQueue, w =>
    (w.common.queue.length, { common := { w.common with queue := [] }
                              driver := { w.driver with hand := w.common.queue, taken := w.common.pushed } })
  | _, .nextCommand, w => w.nextCommand
  | _, .refuse error, w => ((), w.onCurrent (·.fail error))
  | _, .enter stream, w => w.enter stream
  | _, .failHand error, w => ((), w.failHand error)
  | _, .handlerCount, w => (w.driver.running.length, w)
  | _, .startHandler stream head, w => ((), w.startHandler stream head)
  | _, .takeWoken, w => (w.driver.woken, w.onDriver ({ · with woken := [] }))
  | _, .anyWoken, w => (!w.driver.woken.isEmpty, w)
  | _, .pollHandler stream, w => w.pollHandler stream
  | _, .abandonHandlers, w => ((), w.onDriver ({ · with running := [] }))

instance [Transport τ] [Handlers η] : Atomic Op (World δ τ η) := ⟨applyOp⟩

end World

end Ngnet.Http2Driver
