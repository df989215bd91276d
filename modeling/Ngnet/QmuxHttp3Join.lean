import Ngnet.QmuxConnection

/-!
# HTTP/3 over a QMux connection

The crate `ngnet-qmux-h3`: `connection.rs` with `event.rs`, `error.rs`, `pump.rs` and
`transmit.rs`. A stream identifier is the same number in both layers, so the conversions
between the two types are left out. A failure is kept as the one it was rendered from.

A poll that returns an error fails, as in `QmuxConnection`. What the HTTP/3 layer has to write
is a parameter, the class `StreamSource`. `Inner` also carries what has happened: the
extensions the layer below was asked for, the releases queued and the wakes issued.
-/

namespace Ngnet.QmuxHttp3Join
open QmuxVarints QmuxCloseCodec QmuxErrors QmuxStreams StatefulPrograms QmuxRecordWriter
open QmuxConnection

/-! ## Events and errors -/

inductive QuicEvent
  | data (stream : StreamId) (bytes : Bytes) (fin : Bool)
  | accepted (stream : StreamId)
  | released (stream : StreamId) (bytes : ℕ) (delivered : Bool)
  | stopSending (stream : StreamId) (code : ℕ)
  | reset (stream : StreamId) (code : ℕ)
  | streamClosed (stream : StreamId) (rxCode txCode : Option ℕ)
  | closed (code : Option ℕ)
  deriving DecidableEq, Repr

def announces (id : StreamId) (self : Initiator) : Bool :=
  id.directionality = .bidirectional && id.initiator ≠ self

def endsAStream : QuicEvent → Bool
  | .streamClosed _ _ _ | .closed _ => true
  | _ => false

def translate (self : Initiator) : Event → Option QuicEvent
  | .streamData id _ data fin => some (.data id data fin)
  | .streamOpened id => if announces id self then some (.accepted id) else none
  | .streamClosed id rxAppErrorCode txAppErrorCode =>
    some (.streamClosed id rxAppErrorCode txAppErrorCode)
  | .streamReset id _ appErrorCode => some (.reset id appErrorCode)
  | .stopSending id appErrorCode => some (.stopSending id appErrorCode)
  | _ => none

inductive JoinErrorKind
  | byteStream | endOfStream | truncatedRecord | protocol | closed | internal
  deriving DecidableEq, Repr

structure JoinError where
  kind : JoinErrorKind
  context : String
  cause : Option Error
  deriving DecidableEq, Repr

def kindOf : ErrorKind → JoinErrorKind
  | .byteStream => .byteStream
  | .endOfStream => .endOfStream
  | .truncatedRecord => .truncatedRecord
  | .protocol => .protocol
  | .peerClosed | .locallyClosed => .closed
  | .internal => .internal

def contextOf : ErrorKind → String
  | .byteStream => "the byte stream failed"
  | .endOfStream => "the peer stopped sending"
  | .truncatedRecord => "the byte stream ended inside a record"
  | .protocol => "the peer violated the QMux protocol"
  | .peerClosed => "the peer closed the connection"
  | .locallyClosed => "the connection was closed"
  | .internal => "the QMux layer refused the operation"

def JoinError.layer (source : Error) : JoinError where
  kind := kindOf source.kind
  context := contextOf source.kind
  cause := some source

/-- How the connection ended. -/
structure Ending where
  error : JoinError
  orderly : Bool
  code : Option ℕ
  deriving DecidableEq, Repr

def Ending.new (error : Error) : Ending where
  error := .layer error
  orderly := error.kind.isOrderly
  code := (error.close.filter fun reason => reason.kind = .application).map (·.errorCode)

/-! ## The connection -/

/-- Extensions that were reported and are not applied yet. -/
structure PendingCredit where
  streams : List (StreamId × ℕ) := []
  connection : ℕ := 0
  deriving DecidableEq, Repr

def PendingCredit.isEmpty (credit : PendingCredit) : Bool :=
  credit.streams.isEmpty && credit.connection == 0

def maxPendingStreams : ℕ := 64

/-- The window of a stream, or of the connection. -/
abbrev Window := Option StreamId

/-- A window extended by a number of bytes, and whether the QMux connection was live. -/
structure Extension where
  window : Window
  bytes : ℕ
  live : Bool
  deriving DecidableEq, Repr

structure Inner (β ν : Type) where
  conn : Connection β ν
  ending : Option Ending := none
  self : Initiator
  releases : List QuicEvent := []
  next : Option QuicEvent := none
  emittedSincePending : Bool := false
  reportedEnding : Bool := false
  close : Option CloseReason := none
  finished : Bool := false
  credit : PendingCredit := {}
  creditApplications : ℕ := 0
  connectionCreditApplications : ℕ := 0
  openUniWaiter : Option Waker := none
  openBidiWaiter : Option Waker := none
  deferredWakes : List Waker := []
  extensions : List Extension := []
  recorded : List QuicEvent := []
  woken : List Waker := []

abbrev InnerM (β ν : Type) (α : Type) := Program JoinError (Inner β ν) α

variable {β ν : Type}

namespace Inner

def new (conn : Connection β ν) : Inner β ν where
  conn
  self := match conn.conn.role with
    | .client => .client
    | .server => .server

/-- `end`: the first answer is kept. -/
def endWith (s : Inner β ν) (error : Error) : Inner β ν :=
  if s.ending.isNone then { s with ending := some (.new error) } else s

def recordReleased (s : Inner β ν) (stream : StreamId) (bytes : ℕ) : Inner β ν :=
  let event := .released stream bytes true
  { s with releases := s.releases ++ [event], recorded := s.recorded ++ [event] }

def ended (s : Inner β ν) : JoinError :=
  match s.ending with
  | none => ⟨.closed, "the connection has ended", none⟩
  | some ending => ending.error

/-- The layer below was asked for an extension. -/
def countExtension (s : Inner β ν) (extension : Extension) : Inner β ν :=
  { s with
    creditApplications := s.creditApplications + 1
    connectionCreditApplications :=
      s.connectionCreditApplications + if extension.window = none then 1 else 0
    extensions := s.extensions ++ [extension] }

def wake (s : Inner β ν) (cx : Waker) : Inner β ν := { s with woken := s.woken ++ [cx] }

def wakeOpen (s : Inner β ν) (bidi : Bool) : Inner β ν :=
  if bidi then
    { s with openBidiWaiter := none, deferredWakes := s.deferredWakes ++ s.openBidiWaiter.toList }
  else
    { s with openUniWaiter := none, deferredWakes := s.deferredWakes ++ s.openUniWaiter.toList }

/-- The events that are this layer's own. -/
def routeAdapterEvent (s : Inner β ν) (event : Event) : Option Event × Inner β ν :=
  match event with
  | .streamLimit kind _ =>
    (none, match kind with
      | .localBidi => s.wakeOpen true
      | .localUni => s.wakeOpen false
      | .remoteBidi | .remoteUni => s)
  | .peerTransportParams => (none, (s.wakeOpen true).wakeOpen false)
  | .connectionDataCredit _ | .streamDataCredit _ _ => (none, s)
  | event => (some event, s)

/-- One event of the layer below becomes the one held back, if it means anything above. -/
def takeIn (s : Inner β ν) (event : Event) : Inner β ν :=
  match s.routeAdapterEvent event with
  | (some event, s) => { s with next := translate s.self event }
  | (none, s) => s

/-- `with`: the wakes an entry point collected are issued behind it. -/
def wakeDeferred (s : Inner β ν) : Inner β ν :=
  { s with deferredWakes := [], woken := s.woken ++ s.deferredWakes }

end Inner

open Inner

/-- An operation of the layer below, its failure as a value. -/
def lower {α : Type} (m : ConnectionM β ν α) : InnerM β ν (Except Error α) :=
  within conn (fun s conn => { s with conn }) (attempt m)

section Streams
variable [Dwnx ν]

/-! ## Credit -/

/-- `extend_stream_credit` or `extend_connection_credit` of the layer below. -/
def extendWindow (window : Window) (bytes : ℕ) : ConnectionM β ν Unit :=
  match window with
  | some stream => extendStreamCredit stream bytes
  | none => extendConnectionCredit bytes

/-- One extension of the layer below, whose refusal is absorbed. -/
def applyCredit (window : Window) (bytes : ℕ) : InnerM β ν Unit := do
  let live := (← get).conn.terminal.isNone
  let _ ← lower (extendWindow window bytes)
  modify (·.countExtension ⟨window, bytes, live⟩)

def applyStreams : List (StreamId × ℕ) → InnerM β ν Unit
  | [] => pure ()
  | (stream, bytes) :: rest => do
    applyCredit (some stream) bytes
    applyStreams rest

def flushCredit : InnerM β ν Unit := do
  let s ← get
  if s.credit.isEmpty then pure ()
  else if s.ending.isSome then set { s with credit := {} }
  else
    set { s with credit := {} }
    applyStreams s.credit.streams
    if 0 < s.credit.connection then applyCredit none s.credit.connection

/-- The entry of a stream takes the bytes, or a new one does. -/
def addTo (stream : StreamId) (bytes : ℕ) : List (StreamId × ℕ) → List (StreamId × ℕ)
  | [] => [(stream, bytes)]
  | (id, held) :: rest =>
    if id = stream then (id, saturatingAdd held bytes) :: rest else (id, held) :: addTo stream bytes rest

def PendingCredit.defer (credit : PendingCredit) (window : Window) (bytes : ℕ) : PendingCredit :=
  match window with
  | some stream => { credit with streams := addTo stream bytes credit.streams }
  | none => { credit with connection := saturatingAdd credit.connection bytes }

def deferCredit (window : Window) (bytes : ℕ) : InnerM β ν Unit := do
  if bytes = 0 then pure ()
  else
    modify fun s => { s with credit := s.credit.defer window bytes }
    if maxPendingStreams ≤ (← get).credit.streams.length then flushCredit

/-! ## Pumps -/

variable [AsyncByteStream β]

/-- A pump of the layer below, where nothing has ended yet. -/
def pumpWith (poll : ConnectionM β ν (Poll Unit)) : InnerM β ν Bool := do
  if (← get).ending.isSome then pure false
  else
    match ← lower poll with
    | .ok (.ready ()) => pure true
    | .ok .pending => pure false
    | .error error =>
      modify (·.endWith error)
      pure false

def pump (fuel : ℕ) (cx : Waker) : InnerM β ν Bool := pumpWith (pollPump fuel cx)

def pumpBuffered (fuel : ℕ) (cx : Waker) : InnerM β ν Bool := pumpWith (pollPumpBuffered fuel cx)

/-! ## Events -/

/-- The turns of `fill` that find an event in the queue of the layer below. -/
def popLoop : ℕ → InnerM β ν Unit
  | 0 => outOfFuel
  | turns + 1 => do
    if (← get).next.isSome then pure ()
    else
      match ← lower takeEvent with
      | .ok (some event) =>
        modify (·.takeIn event)
        popLoop turns
      | _ => pure ()

def popQueue : InnerM β ν Unit := do popLoop ((← get).conn.conn.events.length + 1)

/-- Pulls from the layer below until there is an event to hand over or nothing left. The loop
of the source polls the layer below once, where the queue is first found empty, and is cut
there. -/
def fill (fuel : ℕ) (cx : Waker) : InnerM β ν Unit := do
  popQueue
  if (← get).next.isNone then
    match ← lower (pollNextEvent fuel cx) with
    | .ok (.ready event) =>
      modify (·.takeIn event)
      popQueue
      let s ← get
      if s.next.isNone && s.ending.isNone then modify (·.wake cx)
    | .ok .pending => pure ()
    | .error error => modify (·.endWith error)

/-- A stream ending starts a batch of its own. -/
def startBatch (cx : Waker) : InnerM β ν (Poll QuicEvent) := do
  modify fun s => { s with emittedSincePending := false }.wake cx
  pure .pending

/-- The part of `poll_event` behind the releases and the layer below. -/
def handOver (cx : Waker) : InnerM β ν (Poll QuicEvent) := do
  let s ← get
  match s.next with
  | some event =>
    if endsAStream event && s.emittedSincePending then startBatch cx
    else
      set { s with next := none, emittedSincePending := true }
      pure (.ready event)
  | none =>
    match s.ending.filter fun _ => !s.reportedEnding with
    | some ending =>
      if s.emittedSincePending then startBatch cx
      else
        set { s with reportedEnding := true, emittedSincePending := true }
        if ending.orderly then pure (.ready (.closed ending.code)) else fail ending.error
    | none =>
      set { s with emittedSincePending := false }
      pure .pending

/-- The part of `poll_event` behind its pump: releases first. -/
def handNext (fuel : ℕ) (cx : Waker) : InnerM β ν (Poll QuicEvent) := do
  let s ← get
  match s.releases with
  | event :: rest =>
    set { s with releases := rest, emittedSincePending := true }
    pure (.ready event)
  | [] =>
    if s.next.isNone then fill fuel cx
    handOver cx

def pollEvent (fuel : ℕ) (cx : Waker) : InnerM β ν (Poll QuicEvent) := do
  flushCredit
  let s ← get
  if !s.releases.isEmpty || s.next.isSome then
    let _ ← pumpBuffered fuel cx
  handNext fuel cx

/-! ## Opens -/

def parkOpen (s : Inner β ν) (cx : Waker) (bidi : Bool) : Inner β ν :=
  if bidi then { s with openBidiWaiter := some cx } else { s with openUniWaiter := some cx }

def pollOpen (fuel : ℕ) (cx : Waker) (bidi : Bool) : InnerM β ν (Poll StreamId) := do
  flushCredit
  let _ ← pumpBuffered fuel cx
  let s ← get
  if s.ending.isSome then fail s.ended
  else
    match ← lower (tryOpen (if bidi then .bidirectional else .unidirectional)) with
    | .ok (.opened id) =>
      let _ ← pumpBuffered fuel cx
      pure (.ready id)
    | .error error =>
      modify (·.endWith error)
      fail (← get).ended
    | .ok .blocked =>
      modify (parkOpen · cx bidi)
      pure .pending

/-! ## The tail -/

def isReady {α : Type} : Except Error (Poll α) → Bool
  | .ok .pending => false
  | _ => true

/-- The part of `poll_finish` that asks the layer below. -/
def finishLower (fuel : ℕ) (cx : Waker) : InnerM β ν Bool := do
  match (← get).close with
  | some reason => return isReady (← lower (pollClose fuel cx reason))
  | none =>
    if isReady (← lower (pollPump fuel cx)) then
      return isReady (← lower (QmuxConnection.pollFinish fuel cx))
    else return false

/-- `poll_finish` on a tail that has not run to completion. -/
def runTail (fuel : ℕ) (cx : Waker) : InnerM β ν (Poll Unit) := do
  flushCredit
  if ← finishLower fuel cx then
    modify fun s => { s with finished := true }
    pure (.ready ())
  else pure .pending

def pollFinish (fuel : ℕ) (cx : Waker) : InnerM β ν (Poll Unit) := do
  if (← get).finished then pure (.ready ()) else runTail fuel cx

/-! ## Transmitting -/

inductive WriteOutcome
  | accepted (bytes : ℕ)
  | blocked
  | gone
  deriving DecidableEq, Repr

/-- What `write_next` does: it has nothing to write, or it makes one offer, is told the verdict
and answers whether there may be another. -/
inductive NextWrite (σ : Type)
  | idle (source : σ)
  | offer (stream : StreamId) (slices : List Bytes) (fin : Bool) (apply : WriteOutcome → Bool × σ)

class StreamSource (σ : Type) where
  writeNext : σ → NextWrite σ

def maxOffers : ℕ := 64

/-- The verdict on one offer, and the failure it met. -/
def offerWrite (stream : StreamId) (slices : List Bytes) (fin : Bool) :
    InnerM β ν (WriteOutcome × Option Error) := do
  if !fin && slices.all List.isEmpty then pure (.accepted 0, none)
  else
    match ← lower (tryWriteStreamVectored stream slices fin) with
    | .ok (.accepted taken) =>
      if 0 < taken then modify (·.recordReleased stream taken)
      pure (.accepted taken, none)
    | .ok .blocked => pure (.blocked, none)
    | .ok .closed => pure (.gone, none)
    | .error error => pure (.blocked, some error)

section Transmit
variable {σ : Type} [StreamSource σ]

/-- The loop of `drain`, over the offers that are left of a pass. -/
def offerLoop (fuel : ℕ) (cx : Waker) : ℕ → σ → InnerM β ν Unit
  | 0, _ => pure ()
  | offers + 1, source => do
    if ← pumpBuffered fuel cx then
      match StreamSource.writeNext source with
      | .idle _ => pure ()
      | .offer stream slices fin apply =>
        let (outcome, failure) ← offerWrite stream slices fin
        let (offered, source) := apply outcome
        match failure with
        | some error => modify (·.endWith error)
        | none => if offered then offerLoop fuel cx offers source

def drain (fuel : ℕ) (cx : Waker) (source : σ) : InnerM β ν Unit := do
  offerLoop fuel cx maxOffers source
  let _ ← pumpBuffered fuel cx

def pollTransmit (fuel : ℕ) (cx : Waker) (source : σ) : InnerM β ν (Poll Unit) := do
  flushCredit
  drain fuel cx source
  pure (.ready ())

end Transmit

/-! ## The other entry points -/

def pollFlush (fuel : ℕ) (cx : Waker) : InnerM β ν (Poll Unit) := do
  flushCredit
  let endedBefore := (← get).ending.isSome
  if ← pump fuel cx then pure (.ready ())
  else if (← get).ending.isSome then
    if !endedBefore then modify (·.wake cx)
    pure (.ready ())
  else pure .pending

def shutdown (stream : StreamId) (half : Shutdown) (code : ℕ) : InnerM β ν Unit := do
  flushCredit
  if (← get).ending.isSome then pure ()
  else
    match ← lower (shutdownStream stream half code) with
    | .ok () => pure ()
    | .error error =>
      if error.kind = .internal then pure ()
      else
        modify (·.endWith error)
        fail (← get).ended

def reset (stream : StreamId) (code : ℕ) : InnerM β ν Unit := shutdown stream .write code

def stopSending (stream : StreamId) (code : ℕ) : InnerM β ν Unit := shutdown stream .read code

def extendCredit (window : Window) (bytes : ℕ) : InnerM β ν Unit := do
  if (← get).ending.isSome then pure () else deferCredit window bytes

def close (code : ℕ) (reason : Bytes) : InnerM β ν Unit := do
  flushCredit
  modify fun s =>
    if s.close.isNone then { s with close := some ⟨.application, code, 0, reason⟩ } else s

/-! ## Runs -/

/-- A call of the transport, with the task that polls. -/
inductive JoinOp (σ : Type)
  | pollEvent (cx : Waker)
  | pollTransmit (cx : Waker) (source : σ)
  | pollFlush (cx : Waker)
  | pollOpenUni (cx : Waker)
  | pollOpenBi (cx : Waker)
  | reset (stream : StreamId) (code : ℕ)
  | stopSending (stream : StreamId) (code : ℕ)
  | extendCredit (window : Window) (bytes : ℕ)
  | close (code : ℕ) (reason : Bytes)
  | pollFinish (cx : Waker)

inductive JoinOutcome
  | polled (poll : Poll Unit)
  | event (poll : Poll QuicEvent)
  | opened (poll : Poll StreamId)
  | done
  deriving DecidableEq, Repr

variable {σ : Type} [StreamSource σ]

def JoinOp.program (fuel : ℕ) : JoinOp σ → InnerM β ν JoinOutcome
  | .pollEvent cx => .event <$> QmuxHttp3Join.pollEvent fuel cx
  | .pollTransmit cx source => .polled <$> QmuxHttp3Join.pollTransmit fuel cx source
  | .pollFlush cx => .polled <$> QmuxHttp3Join.pollFlush fuel cx
  | .pollOpenUni cx => .opened <$> pollOpen fuel cx false
  | .pollOpenBi cx => .opened <$> pollOpen fuel cx true
  | .reset stream code => (fun _ => .done) <$> QmuxHttp3Join.reset stream code
  | .stopSending stream code => (fun _ => .done) <$> QmuxHttp3Join.stopSending stream code
  | .extendCredit window bytes => (fun _ => .done) <$> QmuxHttp3Join.extendCredit window bytes
  | .close code reason => (fun _ => .done) <$> QmuxHttp3Join.close code reason
  | .pollFinish cx => .polled <$> QmuxHttp3Join.pollFinish fuel cx

def JoinOp.step (fuel : ℕ) (op : JoinOp σ) (s : Inner β ν) :
    Except (Halt JoinError) JoinOutcome × Inner β ν :=
  let (result, s) := outcome (op.program fuel) s
  (result, s.wakeDeferred)

end Streams

/-- A source that makes the offers of a list, whatever the verdicts. -/
structure ScriptedSource where
  offers : List (StreamId × List Bytes × Bool) := []

instance : StreamSource ScriptedSource where
  writeNext source := match source.offers with
    | [] => .idle source
    | (stream, slices, fin) :: rest => .offer stream slices fin fun _ => (true, ⟨rest⟩)

end Ngnet.QmuxHttp3Join
