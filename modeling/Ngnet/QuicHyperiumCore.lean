import Ngnet.HyperiumCore
import Ngnet.QuicHttp3Join

/-!
# Hyperium's HTTP/3 traits over a native QUIC connection

The crate `h3-ngnet-quic`: `core.rs`, `pump.rs` and `error.rs`. One `Core` is shared behind a lock by every handle, and
whoever polls one drives the connection. The registry of wakers has a lock of its own.

The connection of the core is a parameter, with the handlers of `ngnet-quic` installed, and the loops over it are those
of `QuicHttp3Join`. The text of a failure is kept without its cause. The wakers for routed datagrams and for the room in
the outbound queue are the endpoint's and left out, as is what being woken does. Beside the fields of the source a core
carries what its handlers observed until the connection ended, what of it was routed, and for every stream what became
of what was sent on it.
-/

namespace Ngnet.QuicHyperium
open QmuxVarints QmuxStreams
open QuicEndpoint (Transport ConnectionShared ConnCall Observed Note CloseError outboundDataQueue datagramQueue)
open QuicStreamWrites (StreamWrite)
open QmuxRecordWriter (Waker)
open HyperiumCore (Buf)
open QuicHttp3Join (Detachable readAll lapse produceAll registered observedOf)

/-! ## Errors -/

inductive ConnectionTerminal
  | application (errorCode : ℕ)
  | idleTimeout
  | internal (message : String)
  | undefined (message : String)
  deriving DecidableEq, Repr

inductive ConnectionErrorIncoming
  | applicationClose (errorCode : ℕ)
  | timeout
  | internalError (message : String)
  | undefined (message : String)
  deriving DecidableEq, Repr

inductive StreamErrorIncoming
  | connection (error : ConnectionErrorIncoming)
  | terminated (errorCode : ℕ)
  deriving DecidableEq, Repr

namespace ConnectionTerminal

def fromClose (close : CloseError) : ConnectionTerminal :=
  match close.reason with
  | .application code => .application code
  | .idleTimeout => .idleTimeout
  | _ => .undefined "the transport closed the connection"

def connectionError : ConnectionTerminal → ConnectionErrorIncoming
  | .application errorCode => .applicationClose errorCode
  | .idleTimeout => .timeout
  | .internal message => .internalError message
  | .undefined message => .undefined message

def streamError (terminal : ConnectionTerminal) : StreamErrorIncoming := .connection terminal.connectionError

end ConnectionTerminal

inductive DirectionTerminal
  | stopped (code : ℕ)
  | reset (code : ℕ)
  | abandoned (code : ℕ)
  deriving DecidableEq, Repr

def DirectionTerminal.streamError : DirectionTerminal → StreamErrorIncoming
  | .stopped code | .reset code | .abandoned code => .terminated code

/-! ## State -/

def workBudget : ℕ := 64

def timerTurns : ℕ := 4

/-- `H3_REQUEST_CANCELLED`. -/
def abandoned : ℕ := 0x10c

inductive Offered
  | accepted (bytes : ℕ)
  | displaced
  | blocked
  | noCapacity
  | streamGone
  | failed
  deriving DecidableEq, Repr

/-- What became of what is sent on a stream. -/
inductive SendEvent
  /-- `send_data` retained these bytes. -/
  | sent (bytes : Bytes)
  /-- A part of what is retained was offered, or the end. -/
  | offered (chunk : Bytes) (fin : Bool) (verdict : Offered)
  /-- `poll_send` offered a part of what it was passed. -/
  | passed (chunk : Bytes) (verdict : Offered)
  | reset (code : ℕ)
  deriving DecidableEq, Repr

structure StreamState where
  incoming : List Bytes := []
  finished : Bool := false
  recvTerminal : Option DirectionTerminal := none
  sendTerminal : Option DirectionTerminal := none
  writing : Option Buf := none
  sendFinished : Bool := false
  sendReset : Bool := false
  handles : ℕ := 0
  history : List SendEvent := []
  deriving DecidableEq, Repr

/-- The tasks that wait. -/
structure WakerSet where
  connection : List Waker := []
  streams : StreamId → List Waker := fun _ => []

namespace WakerSet

def registerConnection (set : WakerSet) (waker : Waker) : WakerSet :=
  { set with connection := registered set.connection waker }

def registerStream (set : WakerSet) (stream : StreamId) (waker : Waker) : WakerSet :=
  { set with streams := Function.update set.streams stream (registered (set.streams stream) waker) }

def forgetStream (set : WakerSet) (stream : StreamId) : WakerSet :=
  { set with streams := Function.update set.streams stream [] }

end WakerSet

structure Core (κ : Type) where
  conn : κ
  /-- What the endpoint shares with the connection. -/
  shared : ConnectionShared := {}
  initiator : Initiator
  streams : StreamId → Option StreamState := fun _ => none
  acceptBidi : List StreamId := []
  acceptUni : List StreamId := []
  terminal : Option ConnectionTerminal := none
  released : Bool := false
  /-- The deadline of the sleep that is armed. -/
  sleeping : Option ℕ := none
  now : ℕ := 0
  heard : List Observed := []
  routed : List Observed := []

/-- A connection of the core, with the credit that is left for streams. -/
class Driven (κ : Type) extends Detachable κ where
  streamsLeft : Bool → κ → ℕ

namespace Core
variable {κ : Type}

def state (c : Core κ) (stream : StreamId) : StreamState := (c.streams stream).getD {}

def setState (c : Core κ) (stream : StreamId) (state : StreamState) : Core κ :=
  { c with streams := Function.update c.streams stream (some state) }

/-- `state`, to change what it finds. -/
def modifyState (c : Core κ) (stream : StreamId) (f : StreamState → StreamState) : Core κ :=
  c.setState stream (f (c.state stream))

def openedLocally (c : Core κ) (stream : StreamId) : Bool := stream.initiator = c.initiator

def retainHandle (c : Core κ) (stream : StreamId) : Core κ :=
  c.modifyState stream fun s => { s with handles := s.handles + 1 }

/-- Whether the last handle is gone. -/
def releaseHandle (c : Core κ) (stream : StreamId) : Bool × Core κ :=
  match c.streams stream with
  | none => (true, c)
  | some s =>
    if s.handles - 1 = 0 then (true, { c with streams := Function.update c.streams stream none })
    else (false, c.setState stream { s with handles := s.handles - 1 })

def fail (c : Core κ) (terminal : ConnectionTerminal) : Core κ :=
  match c.terminal with
  | some _ => c
  | none =>
    { c with
      terminal := some terminal
      streams := fun stream => (c.streams stream).map fun s => { s with writing := none } }

def recordOpened (c : Core κ) (stream : StreamId) : Core κ :=
  if c.openedLocally stream then c
  else
    let c := c.modifyState stream id
    match stream.directionality with
    | .bidirectional => { c with acceptBidi := c.acceptBidi ++ [stream] }
    | .unidirectional => { c with acceptUni := c.acceptUni ++ [stream] }

/-- A call of the core has returned, and its handlers left these notes. -/
def noted (c : Core κ) (notes : List Note) (conn : κ) : Core κ :=
  { c with
    conn
    shared := notes.foldl ConnectionShared.note c.shared
    heard := if c.terminal = none then c.heard ++ notes.filterMap observedOf else c.heard }

def send (c : Core κ) (datagrams : List Bytes) : Core κ :=
  { c with shared := datagrams.foldl ConnectionShared.queueOutbound c.shared }

end Core

/-! ## The pump -/

/-- What a pass observed. -/
structure Changed where
  connection : Bool := false
  streams : StreamId → Bool := fun _ => false

namespace Changed

def stream (changed : Changed) (stream : StreamId) : Changed :=
  { changed with streams := Function.update changed.streams stream true }

def wakeEverything (changed : Changed) (streams : StreamId → Option StreamState) : Changed :=
  { connection := true, streams := fun stream => changed.streams stream || (streams stream).isSome }

end Changed

namespace Core
variable {κ : Type}

def release (c : Core κ) : Core κ :=
  if c.released then c else { c with released := true, shared := c.shared.markTerminal }

/-- Routes one observation. -/
def routeOne (c : Core κ) (changed : Changed) (observed : Observed) : Changed × Core κ :=
  let c := { c with routed := c.routed ++ [observed] }
  match observed with
  | .data stream bytes fin =>
    (changed.stream stream, c.modifyState stream fun s => { s with
      incoming := if bytes.isEmpty then s.incoming else s.incoming ++ [bytes]
      finished := s.finished || fin })
  | .opened stream => ({ changed with connection := true }, c.recordOpened stream)
  | .reset stream code =>
    (changed.stream stream, c.modifyState stream fun s => { s with recvTerminal := some (.reset code) })
  | .stopSending stream code =>
    (changed.stream stream, c.modifyState stream fun s => { s with
      sendTerminal := some (.stopped code)
      writing := none })
  | .streamsExtended _ => ({ changed with connection := true }, c)
  | .closed stream _ _ =>
    (changed.stream stream,
      if (c.streams stream).any (·.handles = 0) then { c with streams := Function.update c.streams stream none } else c)
  | .locallyOpened _ | .acked _ _ | .handshakeCompleted => (changed, c)

def routeEach (c : Core κ) (changed : Changed) : List Observed → Changed × Core κ
  | [] => (changed, c)
  | observed :: rest =>
    let (changed, c) := c.routeOne changed observed
    c.routeEach changed rest

/-- Routes what the handlers recorded. -/
def routeObserved (c : Core κ) (changed : Changed) : Changed × Core κ :=
  { c with shared := { c.shared with observed := [] } }.routeEach changed c.shared.observed

section Driving
variable [Transport κ]

/-- Takes in what the endpoint routed here. -/
def readInbound (c : Core κ) (changed : Changed) : Changed × Core κ :=
  let reading := readAll c.now c.shared.inbound c.conn
  let c := { c with shared := { c.shared with inbound := reading.rest } }.noted reading.notes reading.conn
  match reading.verdict with
  | .dry => (changed, c)
  | .ended => ({ changed with connection := true }, c.fail (.fromClose (Transport.closeError c.conn)))
  | .failed _ =>
    ({ changed with connection := true }, c.fail (.undefined "the transport failed while reading a datagram"))

/-- Fires the timer, if it is due. -/
def expire (c : Core κ) (changed : Changed) : Changed × Core κ :=
  match lapse c.now c.conn with
  | none => (changed, c)
  | some (answer, notes, conn) =>
    let c := c.noted notes conn
    match answer with
    | .ok .handled => (changed, c)
    | .ok .idleClose => ({ changed with connection := true }, c.fail .idleTimeout)
    | .ok .terminal => ({ changed with connection := true }, c.fail (.fromClose (Transport.closeError c.conn)))
    | .error _ =>
      ({ changed with connection := true }, c.fail (.undefined "the transport failed while firing its timer"))

/-- Produces the datagrams that are owed. -/
def produce (c : Core κ) : Core κ :=
  let produced := produceAll c.now workBudget (outboundDataQueue - c.shared.outbound.length) c.conn
  let c := (c.noted produced.notes produced.conn).send produced.datagrams
  match produced.failure with
  | some _ => c.fail (.undefined "the transport failed while producing a datagram")
  | none => c

/-- Whether the sleep is pending. -/
def armTimer (c : Core κ) : Bool × Core κ :=
  match Transport.expiry c.conn with
  | none => (true, { c with sleeping := none })
  | some deadline =>
    if deadline ≤ c.now then (false, { c with sleeping := none }) else (true, { c with sleeping := some deadline })

/-- The turns of a pass that are left, and whether the timer is still due behind them. -/
def turns : ℕ → Core κ → Changed → Bool × Changed × Core κ
  | 0, c, changed => (true, changed, c)
  | n + 1, c, changed =>
    let (changed, c) := c.readInbound changed
    if c.terminal.isSome then (false, changed, c)
    else
      let (changed, c) := c.expire changed
      if c.terminal.isSome then (false, changed, c)
      else
        let (changed, c) := c.routeObserved changed
        let c := c.produce
        if c.terminal.isSome then (false, changed, c)
        else
          let (pending, c) := c.armTimer
          if pending then (false, changed, c) else turns n c changed

/-- Drives the connection one pass. -/
def pump (c : Core κ) : Changed × Core κ :=
  let (due, changed, c) := turns timerTurns c {}
  let changed := if due then changed.wakeEverything c.streams else changed
  if c.terminal.isSome then (changed.wakeEverything c.streams, c.release) else (changed, c)

def rearmTurns : ℕ → Core κ → Bool × Core κ
  | 0, c => (true, c)
  | n + 1, c =>
    let (pending, c) := c.armTimer
    if pending then (false, c)
    else
      let c := (c.expire {}).2
      if c.terminal.isSome then (false, c) else rearmTurns n c.produce

/-- Arms the timer anew. Answers whether it is still due. -/
def rearm (c : Core κ) : Bool × Core κ :=
  if c.terminal.isSome then (false, c) else rearmTurns timerTurns c

def overAccepted : ConnectionTerminal := .internal "the transport accepted more bytes than were offered"

/-- Offers a chunk to the transport, and sends what it produced. -/
def offer (c : Core κ) (stream : StreamId) (chunk : Bytes) (fin : Bool) : Offered × Core κ :=
  if c.shared.outboundHasRoom then
    let ((answer, datagram), notes, conn) := Transport.call (.writeStream stream chunk fin c.now) c.conn
    let c := c.noted notes conn
    match answer with
    | .ok (.datagram len accepted) =>
      if chunk.length < accepted then (.failed, c.fail overAccepted)
      else (.accepted accepted, if len = 0 then c else c.send [datagram.take len])
    | .ok (.datagramWithoutStream len) => (.displaced, c.send [datagram.take len])
    | .ok .streamBlocked | .ok .connectionBlocked | .ok .blocked | .ok .idle => (.blocked, c)
    | .error error =>
      if error.kind = .streamClosed then (.streamGone, c)
      else (.failed, c.fail (.undefined "the transport failed while writing stream data"))
  else (.noCapacity, c)

/-- Returns the credit for what was consumed. -/
def extendCredit (c : Core κ) (stream : StreamId) (bytes : ℕ) : Core κ :=
  if bytes = 0 then c
  else
    let (_, notes, conn) := Transport.call (.extendMaxStreamOffset stream bytes) c.conn
    let c := c.noted notes conn
    let ((), notes, conn) := Transport.call (.extendMaxOffset bytes) c.conn
    (c.noted notes conn).produce

end Driving

end Core

end Ngnet.QuicHyperium
