import Std.Data.TreeMap.Lemmas
import Ngnet.InterleavedPrograms
import Ngnet.Http3Conn

/-!
# The driver of an HTTP/3 connection

The crate `ngnet-h3`: `http/driver.rs`, with the roles of `http/client.rs` and `http/server.rs` and
the handlers of `http/tasks.rs`. The QUIC backend and the handlers of a server are parameters, the
classes `QuicConnection` and `Handlers`.

The driver is a program over the operations `Op`, each of which takes one lock or does one atomic
load or store, or touches what is the driver's alone. The registry is locked by the driver's task
only, so looking an entry up and acting on what was found is one operation. Where a function takes
something out of the shared state and acts on it in several operations, its local variable is a
field of the driver: the popped command (`hand`), the entries removed (`leavingSlots`,
`leavingBodies`), the drained credit and the observations being dispatched (`taken`).

Loops that run for as long as their environment lets them are given a bound, `fuel`. The driver also
carries what has happened: the body bytes recorded and given back, the deferred credit reported and
taken, and the request streams that were opened and used.
-/

namespace Ngnet.Http3Driver
open QmuxVarints QmuxStreams Http3Heads Http3Handles Http3Conn InterleavedPrograms
open QmuxConnection (Poll)
open QmuxHttp3Join (QuicEvent WriteOutcome)
open Http3OutgoingBodies (DataResult)

/-! ## The QUIC backend -/

inductive Instruction
  | reset (stream : StreamId) (code : ℕ)
  | stopSending (stream : StreamId) (code : ℕ)
  | extendCredit (stream : Option StreamId) (bytes : ℕ)
  | close (code : ℕ) (reason : Bytes)
  deriving DecidableEq, Repr

inductive BackendCall : Type → Type
  | pollEvent : BackendCall (Poll (Except Unit QuicEvent))
  | pollFlush : BackendCall (Poll (Except Unit Unit))
  | pollOpenUni : BackendCall (Poll (Except Unit StreamId))
  | pollOpenBi : BackendCall (Poll (Except Unit StreamId))
  | instruct (instruction : Instruction) : BackendCall (Except Unit Unit)

/-- What a backend does within one `poll_transmit`: it pulls offers from the source, whose answer
is the offer it made, if any, and whether there may be another. -/
inductive Transmit (β : Type)
  | returns (poll : Poll (Except Unit Unit)) (backend : β)
  | pull (write : Offer → WriteOutcome) (next : Option Offer → Bool → Transmit β)

/-- The backend. What its errors say is never consulted. -/
class QuicConnection (β : Type) where
  call : {α : Type} → BackendCall α → β → α × β
  pollTransmit : β → Transmit β

/-- The handler of a server, and the futures it returned. What a handler does with the body of its
request is an action of the body. -/
class Handlers (η : Type) where
  start : StreamId → RequestParts → η → η
  poll : StreamId → η → Option Response × η

/-! ## State -/

def closedTombstones : ℕ := 1024

structure ClosedStreams where
  members : List StreamId := []
  order : List StreamId := []
  deriving DecidableEq, Repr

namespace ClosedStreams

def evict : List StreamId → List StreamId → ClosedStreams
  | members, [] => ⟨members, []⟩
  | members, oldest :: order =>
    if closedTombstones < (oldest :: order).length then evict (members.erase oldest) order
    else ⟨members, oldest :: order⟩

def contains (closed : ClosedStreams) (stream : StreamId) : Bool := stream ∈ closed.members

def insert (closed : ClosedStreams) (stream : StreamId) : Bool × ClosedStreams :=
  if stream ∈ closed.members then (false, closed)
  else (true, evict (stream :: closed.members) (closed.order ++ [stream]))

end ClosedStreams

/-- What only the driver reads and writes. -/
structure Locals where
  closed : ClosedStreams := {}
  blocked : List StreamId := []
  opened : List StreamId := []
  pushback : Option QuicEvent := none
  bound : Bool := false
  peerGone : Bool := false
  peerSettings : Option PeerSettings := none

structure Entry where
  slot : Option ℕ
  incoming : ℕ
  deriving DecidableEq, Repr

structure SharedWork where
  ready : List StreamId := []
  resets : List (StreamId × ℕ) := []
  credit : List (StreamId × ℕ) := []
  actions : List TransportAction := []
  shutdown : Bool := false
  deriving DecidableEq, Repr

/-- The command being submitted, and the stream that is spare for it. It is `admitted` once the
stream was taken. -/
structure Hand where
  command : Command
  stream : StreamId
  admitted : Bool := false

structure DriverState (β ν η : Type) where
  backend : β
  conn : Conn ν
  handlers : η
  events : Events := {}
  taken : List Observation := []
  registry : Std.TreeMap ℕ Entry := {}
  work : SharedWork := {}
  locals : Locals := {}
  pushbackError : Option Error := none
  hand : Option Hand := none
  leavingSlots : List ℕ := []
  leavingBodies : List ℕ := []
  spare : List StreamId := []
  endings : List (StreamId × ℕ) := []
  endingSlots : List (Option Ending) := []
  running : List StreamId := []
  cancels : List (StreamId × ℕ) := []
  recorded : List (StreamId × ℕ) := []
  returned : List (StreamId × ℕ) := []
  deferred : List (StreamId × ℕ) := []
  deferredTaken : List (StreamId × ℕ) := []
  openedBi : List StreamId := []
  used : List StreamId := []

structure World (β ν η : Type) where
  common : Common
  driver : DriverState β ν η

/-! ## Operations -/

inductive Op (β ν : Type) : Type → Type 1
  /-- The future has returned `Pending`, or was not polled yet. -/
  | await : Op β ν Unit
  | backend {α : Type} (call : BackendCall α) : Op β ν α
  | enterTransmit : Op β ν (Transmit β)
  | leaveTransmit (poll : Poll (Except Unit Unit)) (backend : β) : Op β ν Unit
  | conn (call : ConnCall) : Op β ν (Except CoreError Unit)
  | enter {α : Type} (call : NativeCall α) : Op β ν (Except CoreError (Native ν α))
  | callback (call : Callback) : Op β ν Unit
  | readData (stream : StreamId) (veccnt : ℕ) : Op β ν DataResult
  | leave {α : Type} (call : NativeCall α) (result : Except ℤ α) (raw : ν) : Op β ν (Except CoreError α)
  | takeDeferredCredit : Op β ν (List (StreamId × ℕ))
  | locally {α : Type} (f : Locals → α × Locals) : Op β ν α
  /-- Keeps a failure of the backend for the next pass. -/
  | keepError (error : Error) : Op β ν Unit
  | takeError : Op β ν (Option Error)
  -- `Shared`
  | drainWork : Op β ν Unit
  | workPending : Op β ν Bool
  | refreshDriver : Op β ν Bool
  | reset (stream : StreamId) (code : ℕ) : Op β ν Unit
  | setRefusing : Op β ν Unit
  | setGone : Op β ν Unit
  -- the drained work
  | drainedCredit : Op β ν (List (StreamId × ℕ))
  /-- Passes the first of the drained credit to `extend_credit(None, _)`. -/
  | returnCredit : Op β ν (Except Unit Unit)
  | takeActions : Op β ν (List TransportAction)
  | takeResets : Op β ν (List (StreamId × ℕ))
  | takeReady : Op β ν (List StreamId)
  | takeShutdown : Op β ν Bool
  -- observations
  | drainObserved : Op β ν (List Observation)
  | observedLen : Op β ν ℕ
  | discardClosedSince (checkpoint : ℕ) (stream : StreamId) : Op β ν Unit
  /-- Goes past the first observation, which is not one of data. -/
  | passObservation : Op β ν Unit
  | deliverData : Op β ν Unit
  | deliverEnd (stream : StreamId) : Op β ν Unit
  | deliverTrailers (stream : StreamId) (fields : HeaderMap) : Op β ν Unit
  | completeSlot (stream : StreamId) (head : ResponseParts) : Op β ν Unit
  -- the registry
  | contains (stream : StreamId) : Op β ν Bool
  | streams : Op β ν (List StreamId)
  | registryEmpty : Op β ν Bool
  /-- Removes an entry and fails its slot. -/
  | retireSlot (stream : StreamId) (error : Error) : Op β ν Bool
  /-- Fails the body of the entry that was removed. -/
  | retireBody (error : Error) : Op β ν Unit
  /-- Removes an entry and finishes its body. -/
  | finishEntry (stream : StreamId) : Op β ν (Option Entry)
  | leavingSettled : Op β ν Bool
  | failLeaving (error : Error) : Op β ν Unit
  | takeAll : Op β ν (List Entry)
  -- the client
  | queueEmpty : Op β ν Bool
  | handlesGone : Op β ν Bool
  | spareEmpty : Op β ν Bool
  | giveStream (stream : StreamId) : Op β ν Unit
  /-- Pops a command, if a stream is spare for it. -/
  | pop : Op β ν (Option (Request × StreamId))
  /-- Whether the popped command was settled meanwhile; if not, takes the stream for it. -/
  | admitRequest : Op β ν Bool
  | refuse (error : Error) : Op β ν Unit
  /-- Binds the slot, and registers the exchange and the ending of its body. -/
  | enterHand (ending : Option ℕ) : Op β ν Unit
  | lockQueue : Op β ν ℕ
  | abandonNext : Op β ν Unit
  | unlockQueue : Op β ν Unit
  -- endings of outgoing bodies
  | newEnding : Op β ν ℕ
  | pushEnding (stream : StreamId) (ending : ℕ) : Op β ν Unit
  | endingCount : Op β ν ℕ
  | takeEnding (index : ℕ) : Op β ν (Option (StreamId × Ending))
  | endingPending : Op β ν Bool
  | pruneEndings (done : List ℕ) : Op β ν Unit
  -- the server
  | handlerCount : Op β ν ℕ
  /-- Registers the exchange of a request and starts its handler. -/
  | openExchange (stream : StreamId) (head : RequestParts) : Op β ν Unit
  | takeWoken : Op β ν (List StreamId)
  | anyWoken : Op β ν Bool
  | pollHandler (stream : StreamId) : Op β ν (Option Response)
  | forgetHandler (stream : StreamId) : Op β ν Unit
  | cancel (stream : StreamId) : Op β ν Unit
  | abandonHandlers : Op β ν Unit

variable {β ν η α : Type}

namespace DriverState

def entry (d : DriverState β ν η) (stream : StreamId) : Option Entry := d.registry[stream.val]?

def eraseEntry (d : DriverState β ν η) (stream : StreamId) : DriverState β ν η :=
  { d with registry := d.registry.erase stream.val }

/-- What a callback of nghttp3 does to the driver's own state. -/
def callback (d : DriverState β ν η) : Callback → DriverState β ν η
  | .deferredConsume stream consumed =>
    { d with
      conn := d.conn.holdCredit stream consumed
      deferred := d.deferred ++ [(stream, consumed)] }
  | .beginSection stream fieldSection => { d with events := d.events.beginSection stream fieldSection }
  | .field stream name value => { d with events := d.events.pushField stream name value }
  | .endSection stream fieldSection => { d with events := d.events.endSection stream fieldSection }
  | .recvData stream data =>
    { d with
      events := d.events.push (.data stream data)
      recorded := d.recorded ++ [(stream, data.length)] }
  | .endStream stream => { d with events := d.events.push (.ended stream) }
  | .ackedStreamData stream datalen => { d with conn := d.conn.ackedStreamData stream datalen }
  | .streamClose stream closed =>
    { d with
      conn := d.conn.forgetStream stream
      events := d.events.pushClosed stream closed }
  | .stopSending _ _ | .resetStream _ _ => d
  | .shutdown id => { d with events := d.events.push (.shutdown (classifyShutdown d.conn.role id)) }
  | .recvSettings settings => { d with events := d.events.push (.settings settings) }

/-- `swap_remove`. -/
def swapRemove {γ : Type} (items : List γ) (index : ℕ) : List γ :=
  match items.getLast? with
  | none => []
  | some last => (items.set index last).dropLast

/-- Whether something but the list of endings still holds the slot of an ending. -/
def endingHeld (d : DriverState β ν η) (ending : ℕ) : Bool := d.conn.bodies.any (·.2.ending = ending)

def pruneEndings (d : DriverState β ν η) (done : List ℕ) : DriverState β ν η :=
  let endings := done.reverse.foldl swapRemove d.endings
  { d with endings := endings.filter fun ending => d.endingHeld ending.2 }

def setEnding (d : DriverState β ν η) : Option (ℕ × Ending) → DriverState β ν η
  | none => d
  | some (slot, ending) => { d with endingSlots := d.endingSlots.set slot (some ending) }

def endingAt (d : DriverState β ν η) (index : ℕ) : Option (StreamId × ℕ × Ending) := do
  let (stream, slot) ← d.endings[index]?
  let ending ← (← d.endingSlots[slot]?)
  pure (stream, slot, ending)

/-- The signal of a stream is dropped once it was tripped. -/
def removeCancel (d : DriverState β ν η) (stream : StreamId) : DriverState β ν η :=
  { d with cancels := swapRemove d.cancels (d.cancels.findIdx (·.1 = stream)) }

/-- `BTreeMap::insert`, on the keys of the running handlers. -/
def startHandler (running : List StreamId) (stream : StreamId) : List StreamId :=
  if stream ∈ running then running else running ++ [stream]

end DriverState

namespace World

def onDriver (w : World β ν η) (f : DriverState β ν η → DriverState β ν η) : World β ν η :=
  { w with driver := f w.driver }

def onCommon (w : World β ν η) (f : Common → Common) : World β ν η := { w with common := f w.common }

/-- Acts on the receiving side registered for a stream, if there is one. -/
def onIncoming (w : World β ν η) (stream : StreamId) (f : Incoming → Incoming) : World β ν η :=
  match w.driver.entry stream with
  | some entry => w.onCommon (·.modifyIncoming entry.incoming f)
  | none => w

/-- Acts on the slot registered for a stream, if there is one. -/
def onSlot (w : World β ν η) (stream : StreamId) (f : Slot → Slot) : World β ν η :=
  match (w.driver.entry stream).bind (·.slot) with
  | some id => w.onCommon (·.modifySlot id f)
  | none => w

def failSlots (c : Common) (slot : Option ℕ) (error : Error) : Common :=
  match slot with
  | some id => c.modifySlot id (·.fail error)
  | none => c

/-- `Registry::insert` of a new exchange, and the body and the handler of its request. -/
def openExchange [Handlers η] (w : World β ν η) (stream : StreamId) (head : RequestParts) : World β ν η :=
  let id := w.common.created
  { common := { w.common with
      created := id + 1
      exchanges := Function.update w.common.exchanges id { body := some ⟨stream, false, .held⟩ }
      handlersWoken :=
        if stream ∈ w.common.handlersWoken then w.common.handlersWoken else w.common.handlersWoken ++ [stream] }
    driver := { w.driver with
      registry := w.driver.registry.insert stream.val ⟨none, id⟩
      cancels := w.driver.cancels ++ [(stream, id)]
      handlers := Handlers.start stream head w.driver.handlers
      running := DriverState.startHandler w.driver.running stream } }

/-- `bind`, and `Registry::insert` with the ending of the body. -/
def enterHand (w : World β ν η) (ending : Option ℕ) : World β ν η :=
  match w.driver.hand with
  | some ⟨command, stream, _⟩ =>
    { common := w.common.modifySlot command.exchange (·.bind stream)
      driver := { w.driver with
        hand := none
        registry := w.driver.registry.insert stream.val ⟨some command.exchange, command.exchange⟩
        endings := match ending with
          | some ending => w.driver.endings ++ [(stream, ending)]
          | none => w.driver.endings } }
  | none => w

end World

def neverSent : Error := ⟨.closed, "the connection went away before this request was sent", none⟩

section Apply
variable [QuicConnection β] [Nghttp3 ν] [Handlers η]

/-- What one operation answers, and what it leaves. -/
def applyOp (w : World β ν η) : Op β ν α → α × World β ν η
  | .await => ((), w)
  | .backend call =>
    let (answer, backend) := QuicConnection.call call w.driver.backend
    (answer, w.onDriver fun d => { d with backend })
  | .enterTransmit => (QuicConnection.pollTransmit w.driver.backend, w)
  | .leaveTransmit _ backend => ((), w.onDriver fun d => { d with backend })
  | .conn call =>
    let (answer, conn) := w.driver.conn.call call
    (answer, w.onDriver fun d => { d with conn })
  | .enter call =>
    let (answer, conn) := w.driver.conn.enter call
    (answer, w.onDriver fun d => { d with conn })
  | .callback call =>
    let w := w.onDriver (·.callback call)
    ((), match call with
      | .stopSending stream code => w.onCommon (·.modifyInner (·.pushAction (.stopSending stream code)))
      | .resetStream stream code => w.onCommon (·.modifyInner (·.pushAction (.reset stream code)))
      | _ => w)
  | .readData stream veccnt =>
    let (answer, ending, conn) := w.driver.conn.readData stream veccnt
    (answer, w.onDriver fun d => { d with conn }.setEnding ending)
  | .leave call result raw =>
    let (answer, conn) := w.driver.conn.leave call result raw
    (answer, w.onDriver fun d => { d with conn })
  | .takeDeferredCredit =>
    let (answer, conn) := w.driver.conn.takeCredit
    (answer, w.onDriver fun d => { d with conn, deferredTaken := d.deferredTaken ++ answer })
  | .locally f =>
    let (answer, locals) := f w.driver.locals
    (answer, w.onDriver fun d => { d with locals })
  | .keepError error => ((), w.onDriver fun d => { d with pushbackError := some error })
  | .takeError => (w.driver.pushbackError, w.onDriver fun d => { d with pushbackError := none })
  | .drainWork =>
    let inner := w.common.inner
    ((), { common := w.common.modifyInner fun inner => { driver := inner.driver }
           driver := { w.driver with
             work := {
               ready := w.driver.work.ready ++ inner.ready
               resets := w.driver.work.resets ++ inner.resets
               credit := w.driver.work.credit ++ inner.credit
               actions := w.driver.work.actions ++ inner.actions
               shutdown := inner.shutdown } } })
  | .workPending => (w.common.inner.hasWork, w)
  | .refreshDriver =>
    (w.common.inner.hasWork, w.onCommon fun c => { c with inner := { c.inner with driver := true }, woken := false })
  | .reset stream code => ((), w.onCommon (·.modifyInner (·.reset stream code)))
  | .setRefusing => ((), w.onCommon fun c => { c with refusing := true })
  | .setGone => ((), w.onCommon fun c => { c with gone := true })
  | .drainedCredit => (w.driver.work.credit, w)
  | .returnCredit =>
    match w.driver.work.credit with
    | [] => (.ok (), w)
    | (stream, bytes) :: rest =>
      let (answer, backend) :=
        if bytes = 0 then (.ok (), w.driver.backend)
        else QuicConnection.call (.instruct (.extendCredit none bytes)) w.driver.backend
      (answer, w.onDriver fun d => match answer with
        | .ok () => { d with
            backend
            work := { d.work with credit := rest }
            returned := d.returned ++ [(stream, bytes)] }
        | .error () => { d with backend })
  | .takeActions => (w.driver.work.actions, w.onDriver fun d => { d with work := { d.work with actions := [] } })
  | .takeResets => (w.driver.work.resets, w.onDriver fun d => { d with work := { d.work with resets := [] } })
  | .takeReady => (w.driver.work.ready, w.onDriver fun d => { d with work := { d.work with ready := [] } })
  | .takeShutdown => (w.driver.work.shutdown, w.onDriver fun d => { d with work := { d.work with shutdown := false } })
  | .drainObserved =>
    (w.driver.events.observed, w.onDriver fun d =>
      { d with events := { d.events with observed := [] }, taken := d.taken ++ d.events.observed })
  | .observedLen => (w.driver.events.observed.length, w)
  | .discardClosedSince checkpoint stream =>
    ((), w.onDriver fun d => { d with events := d.events.discardClosedSince checkpoint stream })
  | .passObservation =>
    ((), w.onDriver fun d => match d.taken with
      | .data _ _ :: _ | [] => d
      | _ :: taken => { d with taken })
  | .deliverData =>
    ((), match w.driver.taken with
      | .data stream bytes :: taken => (w.onDriver fun d => { d with taken }).onIncoming stream (·.push bytes)
      | _ => w)
  | .deliverEnd stream => ((), w.onIncoming stream (·.endOfMessage))
  | .deliverTrailers stream fields => ((), w.onIncoming stream (·.setTrailers fields))
  | .completeSlot stream head => ((), w.onSlot stream (·.complete head))
  | .contains stream => ((w.driver.entry stream).isSome, w)
  | .streams => (w.driver.registry.keys.filterMap fun key => StreamId.new key, w)
  | .registryEmpty => (w.driver.registry.isEmpty, w)
  | .retireSlot stream error =>
    match w.driver.entry stream with
    | none => (false, w)
    | some entry =>
      (true, { common := World.failSlots w.common entry.slot error
               driver := { w.driver.eraseEntry stream with
                 leavingBodies := w.driver.leavingBodies ++ [entry.incoming] } })
  | .retireBody error =>
    ((), match w.driver.leavingBodies with
      | [] => w
      | id :: rest => { common := w.common.modifyIncoming id (·.fail error)
                        driver := { w.driver with leavingBodies := rest } })
  | .finishEntry stream =>
    match w.driver.entry stream with
    | none => (none, w)
    | some entry =>
      (some entry, { common := w.common.modifyIncoming entry.incoming (·.finish)
                     driver := { w.driver.eraseEntry stream with
                       leavingSlots := w.driver.leavingSlots ++ entry.slot.toList } })
  | .leavingSettled =>
    match w.driver.leavingSlots with
    | [] => (true, w)
    | id :: rest =>
      if (w.common.exchanges id).slot.settled then (true, w.onDriver fun d => { d with leavingSlots := rest })
      else (false, w)
  | .failLeaving error =>
    ((), match w.driver.leavingSlots with
      | [] => w
      | id :: rest => { common := w.common.modifySlot id (·.fail error)
                        driver := { w.driver with leavingSlots := rest } })
  | .takeAll =>
    let entries := w.driver.registry.toList.map (·.2)
    (entries, w.onDriver fun d => { d with
      registry := {}
      leavingSlots := d.leavingSlots ++ entries.filterMap (·.slot)
      leavingBodies := d.leavingBodies ++ entries.map (·.incoming) })
  | .queueEmpty => (w.common.queue.isEmpty, w)
  | .handlesGone => (w.common.handles = 0, w)
  | .spareEmpty => (w.driver.spare.isEmpty, w)
  | .giveStream stream =>
    ((), w.onDriver fun d => { d with spare := d.spare ++ [stream], openedBi := d.openedBi ++ [stream] })
  | .pop =>
    match w.driver.spare, w.common.queue with
    | stream :: _, command :: queue =>
      (some (command.request, stream),
        { common := { w.common with queue }
          driver := { w.driver with hand := some { command, stream } } })
    | _, _ => (none, w)
  | .admitRequest =>
    match w.driver.hand with
    | none => (true, w)
    | some hand =>
      if (w.common.exchanges hand.command.exchange).slot.settled then
        (true, w.onDriver fun d => { d with hand := none })
      else
        (false, w.onDriver fun d => { d with
          spare := d.spare.drop 1
          hand := some { hand with admitted := true }
          used := d.used ++ [hand.stream] })
  | .refuse error =>
    ((), match w.driver.hand with
      | none => w
      | some hand => { common := w.common.modifySlot hand.command.exchange (·.fail error)
                       driver := { w.driver with hand := none } })
  | .enterHand ending => ((), w.enterHand ending)
  | .lockQueue => (w.common.queue.length, w.onCommon fun c => { c with queueLocked := true })
  | .abandonNext =>
    ((), match w.common.queue with
      | [] => w
      | command :: queue => w.onCommon fun c =>
          { c with queue }.modifySlot command.exchange (·.fail neverSent))
  | .unlockQueue => ((), w.onCommon fun c => { c with queueLocked := false, queueAbandoned := true })
  | .newEnding => (w.driver.endingSlots.length, w.onDriver fun d => { d with endingSlots := d.endingSlots ++ [none] })
  | .pushEnding stream ending => ((), w.onDriver fun d => { d with endings := d.endings ++ [(stream, ending)] })
  | .endingCount => (w.driver.endings.length, w)
  | .takeEnding index =>
    match w.driver.endingAt index with
    | none => (none, w)
    | some (stream, slot, ending) =>
      (some (stream, ending), w.onDriver fun d => { d with endingSlots := d.endingSlots.set slot none })
  | .endingPending =>
    (w.driver.endings.any fun ending => (w.driver.endingSlots[ending.2]?).any (·.isSome), w)
  | .pruneEndings done => ((), w.onDriver (·.pruneEndings done))
  | .handlerCount => (w.driver.running.length, w)
  | .openExchange stream head => ((), w.openExchange stream head)
  | .takeWoken => (w.common.handlersWoken, w.onCommon fun c => { c with handlersWoken := [] })
  | .anyWoken => (!w.common.handlersWoken.isEmpty, w)
  | .pollHandler stream =>
    if stream ∈ w.driver.running then
      let (answer, handlers) := Handlers.poll stream w.driver.handlers
      (answer, match answer with
        | none => w.onDriver fun d => { d with handlers }
        | some _ =>
          { common := { w.common with handlersWoken := w.common.handlersWoken.filter (· ≠ stream) }
            driver := { w.driver with handlers, running := w.driver.running.filter (· ≠ stream) } })
    else (none, w)
  | .forgetHandler stream =>
    ((), { common := { w.common with handlersWoken := w.common.handlersWoken.filter (· ≠ stream) }
           driver := { w.driver with
             running := w.driver.running.filter (· ≠ stream)
             cancels := w.driver.cancels.filter (·.1 ≠ stream) } })
  | .cancel stream =>
    ((), match w.driver.cancels.find? (·.1 = stream) with
      | none => w
      | some (_, id) => (w.onDriver (·.removeCancel stream)).onCommon (·.trip id))
  | .abandonHandlers =>
    ((), { common := w.driver.cancels.foldl (fun c cancel => Common.trip c cancel.2) w.common
           driver := { w.driver with running := [] } })

instance : Atomic (Op β ν) (World β ν η) := ⟨fun op w => applyOp w op⟩

end Apply

end Ngnet.Http3Driver
