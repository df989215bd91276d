import Std.Data.TreeMap.Lemmas
import Ngnet.InterleavedPrograms
import Ngnet.QmuxConnection
import Ngnet.QuicStreamWrites

/-!
# The QUIC endpoint

The crate `ngnet-quic`: `endpoint/driver.rs`, `endpoint/shared.rs`, and the handles of
`endpoint/connection.rs` and `endpoint/handle.rs`. The connections of the core (`Conn`), the socket, and
the rest of the host (clock, TLS sessions, packet inspection, address validation, the order of a hash map)
are parameters, the classes `Transport`, `Socket` and `Platform`.

The driver is a program over the operations `Op`, each of which takes at most one lock of what it shares
with the handles. What `drain_dials` and `apply_commands` have taken and not yet run are local variables of
the source and fields of the driver here. Wakers, diagnostics and the causes of errors are left out. The
world also carries what has happened at the two ends: the writes that callers made and the offers that the
core was made, the datagrams that were produced and the sends that completed.
-/

namespace Ngnet.QuicEndpoint
open QmuxVarints QmuxStreams InterleavedPrograms
open QuicStreamWrites (StreamWrite)
open QmuxConnection (Poll)

/-! ## Errors -/

inductive ErrorKind
  | handshakeRejected | handshakeTimeout | idleTimeout | peerClosed | locallyClosed | transport | socket
  | driverGone | cancelled | unsupported | invalidInput | streamReset | streamStopped
  deriving DecidableEq, Repr

inductive CloseReason
  | transport (code : ℕ)
  | application (code : ℕ)
  | versionNegotiation
  | idleTimeout
  | dropped
  | retry
  deriving DecidableEq, Repr

structure CloseError where
  reason : CloseReason
  frameType : ℕ
  phrase : Bytes
  deriving DecidableEq, Repr

structure Error where
  kind : ErrorKind
  context : String
  close : Option CloseError := none
  streamCode : Option ℕ := none
  deriving DecidableEq, Repr

/-- The kinds of the core's errors. -/
inductive CoreErrorKind
  | protocol | exhausted | invalidInput | crypto | connectionUnusable | closing | blocked | streamClosed | internal
  deriving DecidableEq, Repr

/-- An error of the core, and whether its code is `NGTCP2_ERR_HANDSHAKE_TIMEOUT`. -/
structure CoreError where
  kind : CoreErrorKind
  timedOut : Bool := false
  deriving DecidableEq, Repr

/-- `From<crate::error::Error>`. -/
def ofCore (error : CoreError) : Error :=
  match error.kind with
  | .invalidInput => ⟨.invalidInput, "the transport failed", none, none⟩
  | .closing => ⟨.locallyClosed, "the transport failed", none, none⟩
  | _ => ⟨.transport, "the transport failed", none, none⟩

/-! ## What handles and the driver share -/

inductive Observed
  | data (stream : StreamId) (bytes : Bytes) (fin : Bool)
  | opened (stream : StreamId)
  | locallyOpened (stream : StreamId)
  | closed (stream : StreamId) (receiving sending : Option ℕ)
  | reset (stream : StreamId) (code : ℕ)
  | stopSending (stream : StreamId) (code : ℕ)
  | acked (stream : StreamId) (len : ℕ)
  | handshakeCompleted
  | streamsExtended (max : ℕ)
  deriving DecidableEq, Repr

inductive RouteUpdate
  | minted (cid : Bytes)
  | retired (cid : Bytes)
  deriving DecidableEq, Repr

/-- What a handler of a connection records. -/
inductive Note
  | observe (event : Observed)
  | observeRoute (update : RouteUpdate)
  deriving DecidableEq, Repr

def Note.routing : Note → Option RouteUpdate
  | .observe _ => none
  | .observeRoute update => some update

/-- How a connection comes by an identifier or loses it: its handlers see so, or a client has chosen it. -/
inductive Naming
  | noted (update : RouteUpdate)
  | chosen (cid : Bytes)
  deriving DecidableEq, Repr

def Naming.minted : Naming → Option Bytes
  | .noted (.minted cid) => some cid
  | _ => none

inductive Command
  | openStream (bidi : Bool)
  | write (stream : StreamId) (data : Bytes) (fin : Bool)
  | reset (stream : StreamId) (code : ℕ)
  | stopSending (stream : StreamId) (code : ℕ)
  | close (code : ℕ) (reason : Bytes)
  | extendCredit (stream : StreamId) (bytes : ℕ)
  deriving DecidableEq, Repr

def datagramQueue : ℕ := 64

def outboundDataQueue : ℕ := datagramQueue - 1

/-- `ConnectionShared`, with what its lock guards. -/
structure ConnectionShared where
  observed : List Observed := []
  failure : Option Error := none
  commands : List Command := []
  inbound : List Bytes := []
  outbound : List Bytes := []
  closeOutbound : Option Bytes := none
  routes : List RouteUpdate := []
  dropped : ℕ := 0
  terminal : Bool := false
  closed : Bool := false
  established : Bool := false
  retained : ℕ := 0
  detach : Bool := false
  detachToAcceptor : Bool := false
  deriving DecidableEq, Repr

namespace ConnectionShared

def observe (s : ConnectionShared) (event : Observed) : ConnectionShared :=
  { s with observed := s.observed ++ [event] }

def note (s : ConnectionShared) : Note → ConnectionShared
  | .observe event => s.observe event
  | .observeRoute update => { s with routes := s.routes ++ [update] }

def push (s : ConnectionShared) (command : Command) : ConnectionShared :=
  { s with commands := s.commands ++ [command] }

def deliverInbound (s : ConnectionShared) (datagram : Bytes) : ConnectionShared :=
  if datagramQueue ≤ s.inbound.length then { s with dropped := s.dropped + 1 }
  else { s with inbound := s.inbound ++ [datagram] }

def outboundHasRoom (s : ConnectionShared) : Bool := s.outbound.length < outboundDataQueue

/-- `queue_outbound`, which panics where there is no room. -/
def queueOutbound (s : ConnectionShared) (datagram : Bytes) : ConnectionShared :=
  if s.outboundHasRoom then { s with outbound := s.outbound ++ [datagram] } else s

def queueCloseOutbound (s : ConnectionShared) (datagram : Bytes) : ConnectionShared :=
  match s.closeOutbound with
  | some _ => s
  | none => { s with closeOutbound := some datagram }

def hasOutbound (s : ConnectionShared) : Bool := !s.outbound.isEmpty || s.closeOutbound.isSome

def takeOutbound (s : ConnectionShared) : Option Bytes × ConnectionShared :=
  match s.outbound with
  | datagram :: outbound => (some datagram, { s with outbound })
  | [] => (s.closeOutbound, { s with closeOutbound := none })

def markTerminal (s : ConnectionShared) : ConnectionShared := { s with inbound := [], terminal := true }

/-- The first reason wins. -/
def fail (s : ConnectionShared) (error : Error) : ConnectionShared :=
  { s with failure := some (s.failure.getD error), closed := true }

def failWithClose (s : ConnectionShared) (close : CloseError) : ConnectionShared :=
  let kind := if close.reason = .idleTimeout then ErrorKind.idleTimeout else .peerClosed
  s.fail ⟨kind, "the connection was closed", some close, none⟩

def failureError (s : ConnectionShared) : Error :=
  match s.failure with
  | some error => ⟨error.kind, "the connection ended", error.close, none⟩
  | none => ⟨.locallyClosed, "the connection ended", none, none⟩

end ConnectionShared

abbrev Address := ℕ

structure Dial where
  remote : Address
  serverName : Option String
  shared : ℕ
  deriving DecidableEq, Repr

structure EndpointShared where
  dials : List Dial := []
  accepted : List ℕ := []
  gone : Bool := false
  detachedAccepts : Bool := false

/-! ## The core, the socket and the host -/

inductive ReadOutcome | processed | sendRetry | dropSilently | draining | closing
  deriving DecidableEq, Repr

inductive WriteOutcome
  | datagram (len : ℕ)
  | idle
  | blocked
  deriving DecidableEq, Repr

inductive ExpiryOutcome | handled | idleClose | terminal
  deriving DecidableEq, Repr

/-- The calls of the core. One that writes a datagram also answers what is in the buffer it was lent. -/
inductive ConnCall : Type → Type
  | readPkt (datagram : Bytes) (now : ℕ) : ConnCall (Except CoreError ReadOutcome)
  | writePkt (now : ℕ) : ConnCall (Except CoreError WriteOutcome × Bytes)
  | writeStream (stream : StreamId) (data : Bytes) (fin : Bool) (now : ℕ) :
    ConnCall (Except CoreError StreamWrite × Bytes)
  | writeConnectionClose (code : ℕ) (reason : Bytes) (now : ℕ) : ConnCall (Except CoreError ℕ × Bytes)
  | handleExpiry (now : ℕ) : ConnCall (Except CoreError ExpiryOutcome)
  | openBidiStream : ConnCall (Except CoreError StreamId)
  | openUniStream : ConnCall (Except CoreError StreamId)
  | resetStream (stream : StreamId) (code : ℕ) : ConnCall (Except CoreError Unit)
  | stopSending (stream : StreamId) (code : ℕ) : ConnCall (Except CoreError Unit)
  | extendMaxStreamOffset (stream : StreamId) (bytes : ℕ) : ConnCall (Except CoreError Unit)
  | extendMaxOffset (bytes : ℕ) : ConnCall Unit

/-- A connection of the core, with the handlers that `handlers_for` installs: a call answers what they
recorded. It accepts a prefix of what it is offered. -/
class Transport (κ : Type) where
  call : {α : Type} → ConnCall α → κ → α × List Note × κ
  expiry : κ → Option ℕ
  inDrainingPeriod : κ → Bool
  closeError : κ → CloseError
  maxTxUdpPayloadSize : κ → ℕ
  retainedBytes : κ → ℕ
  scids : κ → List Bytes
  scid : κ → Bytes
  accepts_le : ∀ (conn : κ) stream data fin now len accepted,
    (call (.writeStream stream data fin now) conn).1.1 = .ok (.datagram len accepted) → accepted ≤ data.length

inductive Sent | complete | wouldBlock
  deriving DecidableEq, Repr

class Socket (σ : Type) where
  pollRecv : σ → Poll (Except Unit (Bytes × Address)) × σ
  pollSend : Address → Bytes → σ → Poll (Except Unit Sent) × σ

/-- An acceptable first packet; what the validation of its token reads is the platform's. -/
structure InitialPacket where
  dcid : Bytes
  scid : Bytes
  token : Bytes
  version : ℕ
  deriving DecidableEq, Repr

/-- `Decision`, with the datagram of a Retry that could be written. -/
inductive Decision
  | accept (original : Bytes)
  | retry (datagram : Option Bytes)
  | ignore
  deriving DecidableEq, Repr

class Platform (π κ : Type) where
  now : π → ℕ × π
  /-- The order in which a hash map is walked. -/
  arrange : (keys : List ℕ) → π → {order : List ℕ // order.Perm keys} × π
  /-- The identifier that a datagram is addressed to. -/
  inspect : π → Bytes → Option Bytes
  inspectInitial : π → Bytes → Option InitialPacket
  /-- Builds a connection that this endpoint initiates. -/
  dial : Address → Option String → π → Except Error κ × π
  /-- Builds a connection that a peer initiated, with the identifier it first addressed and whether it
  was sent a Retry. -/
  accept : Address → InitialPacket → Bytes → Bool → π → Except Error κ × π
  /-- What a first packet has earned; an endpoint without validation accepts it. -/
  decide : Option (InitialPacket → Address → π → Decision × π)
  /-- The stateless reset that a datagram draws, if it draws one. -/
  statelessReset : Bytes → π → Option Bytes × π
  /-- Whether a sleep until a deadline is over. -/
  pollSleep : ℕ → π → Bool × π

/-! ## State -/

structure Tracked (κ : Type) where
  conn : Option κ
  shared : ℕ
  remote : Address
  pending : Option Bytes := none
  finished : Bool := false

/-- A `DetachedConnection` that waits for its caller, or for an acceptor. -/
structure Detached (κ : Type) where
  toAcceptor : Bool
  conn : κ
  shared : ℕ
  remote : Address

/-- An acceptor takes what was accepted, and each other waiter the connection it asked for. -/
def Detached.key {κ : Type} (d : Detached κ) : Option ℕ := if d.toAcceptor then none else some d.shared

/-- `Inner`. -/
structure Inner (κ σ π : Type) where
  socket : σ
  platform : π
  /-- Whether there is a timescale to share, and a sleeper. -/
  detachable : Bool := true
  connections : Std.TreeMap ℕ (Tracked κ) := {}
  routes : List (Bytes × ℕ) := []
  nextIndex : ℕ := 0
  outbox : List (Address × Bytes) := []
  sleepingUntil : Option ℕ := none
  dialing : List Dial := []
  takenFrom : ℕ := 0
  taken : List Command := []

structure Incoming where
  bytes : Bytes := []
  finished : Bool := false
  reset : Option ℕ := none
  deriving DecidableEq, Repr

structure Write where
  stream : StreamId
  data : Bytes
  fin : Bool
  deriving DecidableEq, Repr

/-- A `Connection`, and the write that has passed its checks and is about to be queued. -/
structure Handle where
  incoming : List (StreamId × Incoming) := []
  pendingStreams : List StreamId := []
  stopped : List (StreamId × ℕ) := []
  acked : List (StreamId × ℕ) := []
  writing : Option Write := none

/-- An offer to the core, with how much of it was accepted in a STREAM frame, if there was one. -/
structure StreamOffer where
  data : Bytes
  fin : Bool
  accepted : Option ℕ
  deriving DecidableEq, Repr

/-- How far the driver has got: which pass of its poll the last was, and whether it read; the connections that
were given up when it last walked its connections, and those that were when it began to evict in the last pass;
and whether it has failed the dials. -/
structure Progress where
  passes : ℕ := 0
  woken : Bool := false
  passing : List ℕ := []
  served : List ℕ := []
  drained : Bool := false

/-- What has happened: the writes queued and the offers made, by connection; the datagrams that were
produced, or queued by an owner, and the sends that completed, by connection or for strangers; and whose the
datagrams of the outbox are. `taken` counts the writes when the batch was taken.

`noted` lists how connections came by their identifiers and lost them, and `reported` what the table of routes
was told, by the index it is for; `announced` says which datagram of a connection was produced when it had
minted which identifier. `dialled` lists the connections that `connect` and `connect_detached` were called for,
and `abandoned` those whose `Detaching` was dropped before it had settled. -/
structure History where
  written : List (ℕ × Write) := []
  offers : List (ℕ × StreamId × StreamOffer) := []
  produced : List (Option ℕ × Bytes) := []
  completed : List (Option ℕ × Bytes) := []
  outboxOrigins : List (Option ℕ) := []
  taken : ℕ := 0
  noted : List (ℕ × Naming) := []
  reported : List (ℕ × RouteUpdate) := []
  announced : List (ℕ × Bytes × Bytes) := []
  dialled : List ℕ := []
  abandoned : List ℕ := []
  progress : Progress := {}

structure World (κ σ π : Type) where
  endpoint : EndpointShared := {}
  shareds : ℕ → ConnectionShared := fun _ => {}
  /-- How many connections were asked for. -/
  created : ℕ := 0
  /-- The calls of `connect` that are about to queue their dial. -/
  connecting : List Dial := []
  /-- The connections that a `Connecting` or an `Accepting` has resolved to. -/
  handles : ℕ → Option Handle := fun _ => none
  ready : List (Detached κ) := []
  /-- The calls of `connect_detached` whose `Detaching` has not settled, and those of them that were dropped and
  are about to say that no one owns the connection. -/
  detaching : List ℕ := []
  dropping : List ℕ := []
  /-- The detached connections that a caller holds. -/
  owned : List ℕ := []
  driver : Inner κ σ π
  history : History := {}

namespace World
variable {κ σ π : Type}

def onDriver (w : World κ σ π) (f : Inner κ σ π → Inner κ σ π) : World κ σ π := { w with driver := f w.driver }

def onProgress (w : World κ σ π) (f : Progress → Progress) : World κ σ π :=
  { w with history := { w.history with progress := f w.history.progress } }

def onHistory (w : World κ σ π) (f : History → History) : World κ σ π := { w with history := f w.history }

def modifyShared (w : World κ σ π) (c : ℕ) (f : ConnectionShared → ConnectionShared) : World κ σ π :=
  { w with shareds := Function.update w.shareds c (f (w.shareds c)) }

def setTracked (w : World κ σ π) (index : ℕ) (tracked : Tracked κ) : World κ σ π :=
  w.onDriver fun d => { d with connections := d.connections.insert index tracked }

end World

/-! ## Operations -/

/-- How a send, if one was due, went. -/
inductive Disposition | nothing | sent | refused | failed
  deriving DecidableEq, Repr

inductive Op (κ : Type) : Type → Type
  /-- The future has returned `Pending`, or was not polled yet. -/
  | await : Op κ Unit
  | drainDials : Op κ ℕ
  /-- Dials the first of the dials that were drained. -/
  | dial : Op κ Unit
  -- reading
  | pollRecv : Op κ (Poll (Except Unit (Bytes × Address)))
  | route (datagram : Bytes) : Op κ (Option ℕ)
  /-- Reads a datagram, or queues it for an owner; whether `absorb` follows. -/
  | deliver (index : ℕ) (datagram : Bytes) : Op κ Bool
  /-- What a datagram earns that belongs to no connection: a connection of its own, an answer, or nothing. -/
  | begin (datagram : Bytes) (source : Address) : Op κ (Option ℕ)
  /-- Queues an accepted connection for `accept`, unless it goes to an acceptor of its own. -/
  | announce (index : ℕ) : Op κ Unit
  -- `absorb`
  | takeObserved (index : ℕ) : Op κ (List Observed)
  | setRetained (index : ℕ) : Op κ Unit
  | markEstablished (index : ℕ) : Op κ Unit
  /-- `hand_over`, if the caller wants the connection and it is established. -/
  | handOver (index : ℕ) : Op κ Unit
  | putBack (index : ℕ) (observed : List Observed) : Op κ Unit
  -- `service`
  | keys : Op κ (List ℕ)
  | applyRoutes (index : ℕ) : Op κ Unit
  /-- Takes the commands of a connection that the endpoint drives; how many there are. -/
  | takeCommands (index : ℕ) : Op κ ℕ
  /-- Runs the first of them; whether the loop goes on. -/
  | runCommand (index : ℕ) : Op κ Bool
  | handleExpiry (index : ℕ) : Op κ Bool
  -- `flush`
  | sendOutbox : Op κ Disposition
  | sendNext (index : ℕ) : Op κ Disposition
  -- `evict`
  | isDone (index : ℕ) : Op κ Bool
  | remove (index : ℕ) : Op κ Unit
  | rearm : Op κ Bool
  | hasPending : Op κ Bool
  -- the endings of the driver
  | failAll (error : Error) : Op κ Unit
  | failDials (error : Error) : Op κ Unit
  | markGone : Op κ Unit

def socketFailed : Error := ⟨.socket, "the socket failed", none, none⟩

def cannotDetach : Error :=
  ⟨.invalidInput, "this endpoint cannot detach connections; build it with build_detachable", none, none⟩

def closedByEndpoint : Error := ⟨.locallyClosed, "closed by this endpoint", none, none⟩

namespace World
variable {κ σ π : Type} [Transport κ] [Socket σ] [Platform π κ]

/-- Reads the clock. -/
def now (w : World κ σ π) : ℕ × World κ σ π :=
  let (now, platform) := Platform.now (κ := κ) w.driver.platform
  (now, w.onDriver ({ · with platform }))

/-- What a connection knows of its identifiers. -/
def recordRoutes (w : World κ σ π) (c : ℕ) (updates : List RouteUpdate) : World κ σ π :=
  w.onHistory fun h => { h with noted := h.noted ++ updates.map fun update => (c, .noted update) }

def recordChosen (w : World κ σ π) (c : ℕ) (cid : Bytes) : World κ σ π :=
  w.onHistory fun h => { h with noted := h.noted ++ [(c, .chosen cid)] }

/-- A call of a connection that the endpoint drives, whose handlers record what they see. -/
def callConn {α : Type} (w : World κ σ π) (index : ℕ) (tracked : Tracked κ) (conn : κ) (call : ConnCall α) :
    α × World κ σ π :=
  let (answer, notes, conn) := Transport.call call conn
  (answer, ((w.setTracked index { tracked with conn := some conn }).modifyShared tracked.shared
    fun s => notes.foldl .note s).recordRoutes tracked.shared (notes.filterMap Note.routing))

/-- Offers a connection's datagram to the socket; whether it was sent, refused, or the socket failed. -/
def pollSend (w : World κ σ π) (tracked : Tracked κ) (datagram : Bytes) : Disposition × World κ σ π :=
  let (answer, socket) := Socket.pollSend tracked.remote datagram w.driver.socket
  let w := w.onDriver ({ · with socket })
  match answer with
  | .ready (.ok .complete) =>
    (.sent, w.onHistory fun h => { h with completed := h.completed ++ [(some tracked.shared, datagram)] })
  | .ready (.ok .wouldBlock) | .pending => (.refused, w)
  | .ready (.error ()) => (.failed, w)

def recordProduced (w : World κ σ π) (origin : Option ℕ) (datagram : Bytes) : World κ σ π :=
  w.onHistory fun h => { h with
    produced := h.produced ++ [(origin, datagram)]
    announced := h.announced ++ (h.noted.filter (some ·.1 = origin)).filterMap fun (c, naming) =>
      naming.minted.map fun cid => (c, cid, datagram) }

def pushOutbox (w : World κ σ π) (origin : Option ℕ) (destination : Address) (datagram : Bytes) : World κ σ π :=
  (w.onDriver fun d => { d with outbox := d.outbox ++ [(destination, datagram)] }).onHistory fun h =>
    { h with outboxOrigins := h.outboxOrigins ++ [origin] }

def recordOffer (w : World κ σ π) (c : ℕ) (stream : StreamId) (offer : StreamOffer) : World κ σ π :=
  w.onHistory fun h => { h with offers := h.offers ++ [(c, stream, offer)] }

def modifyTracked (w : World κ σ π) (index : ℕ) (f : Tracked κ → Tracked κ) : World κ σ π :=
  match w.driver.connections[index]? with
  | some tracked => w.setTracked index (f tracked)
  | none => w

/-! ### Writing -/

/-- What goes back on the queue behind an attempt. -/
def leftOver (outcome : Except CoreError StreamWrite) (data : Bytes) : Option Bytes :=
  match outcome with
  | .ok (.datagram _ accepted) => if accepted < data.length then some (data.drop accepted) else none
  | .ok _ => some data
  | .error _ => none

/-- How much of an offer a STREAM frame carried. -/
def carried : Except CoreError StreamWrite → Option ℕ
  | .ok (.datagram _ accepted) => some accepted
  | _ => none

/-- The datagram that an attempt produced. -/
def produced (outcome : Except CoreError StreamWrite) (buffer : Bytes) : Option Bytes :=
  match outcome with
  | .ok (.datagram len _) | .ok (.datagramWithoutStream len) => some (buffer.take len)
  | _ => none

def setRetained (w : World κ σ π) (index : ℕ) : World κ σ π :=
  match w.driver.connections[index]? with
  | none => w
  | some tracked =>
    match tracked.conn with
    | none => w
    | some conn => w.modifyShared tracked.shared ({ · with retained := Transport.retainedBytes conn })

/-- Sends a datagram of `write_stream` from the buffer, and keeps it if it is not taken. -/
def sendOrKeep (w : World κ σ π) (index : ℕ) (tracked : Tracked κ) (datagram : Bytes) : World κ σ π :=
  match (w.recordProduced (some tracked.shared) datagram).pollSend tracked datagram with
  | (.sent, w) => w
  | (_, w) => w.modifyTracked index ({ · with pending := some datagram })

def sendProduced (w : World κ σ π) (index : ℕ) (tracked : Tracked κ) : Option Bytes → World κ σ π
  | some datagram => (w.sendOrKeep index tracked datagram).setRetained index
  | none => w

/-- What `write_stream` does with the answer of the core. -/
def settleWrite (w : World κ σ π) (index : ℕ) (tracked : Tracked κ) (write : Write)
    (outcome : Except CoreError StreamWrite) (buffer : Bytes) : World κ σ π :=
  let w := w.sendProduced index tracked (produced outcome buffer)
  match outcome with
  | .error error => w.modifyShared tracked.shared (·.fail (ofCore error))
  | .ok _ =>
    match leftOver outcome write.data with
    | some rest => w.modifyShared tracked.shared (·.push (.write write.stream rest write.fin))
    | none => w

/-- At most one packet's worth. -/
def chunk (conn : κ) (write : Write) : Bytes := write.data.take (max (Transport.maxTxUdpPayloadSize conn) 1)

/-- The end of the stream goes with the last bytes only. -/
def isLast (conn : κ) (write : Write) : Bool := write.fin && (chunk conn write).length == write.data.length

/-- An offer of `write_stream` to the core. -/
def offerWrite (w : World κ σ π) (index : ℕ) (tracked : Tracked κ) (conn : κ) (write : Write) (now : ℕ) : World κ σ π :=
  let ((outcome, buffer), w) :=
    w.callConn index tracked conn (.writeStream write.stream (chunk conn write) (isLast conn write) now)
  (w.recordOffer tracked.shared write.stream ⟨chunk conn write, isLast conn write, carried outcome⟩).settleWrite index
    tracked write outcome buffer

/-- `write_stream`. -/
def writeStream (w : World κ σ π) (index : ℕ) (write : Write) : World κ σ π :=
  let (now, w) := w.now
  match w.driver.connections[index]? with
  | none => w
  | some tracked =>
    -- One datagram is in flight at a time, so this write waits its turn.
    if tracked.pending.isSome then w.modifyShared tracked.shared (·.push (.write write.stream write.data write.fin))
    else
      match tracked.conn with
      | none => w
      | some conn => w.offerWrite index tracked conn write now

/-- A connection is over. -/
def finish (w : World κ σ π) (index c : ℕ) (error : Error) : World κ σ π :=
  (w.modifyTracked index ({ · with finished := true })).modifyShared c (·.fail error)

/-- Keeps a datagram of `close_connection` in the slot, or queues it behind what strangers are answered. -/
def keepClose (w : World κ σ π) (index : ℕ) (tracked : Tracked κ) (datagram : Bytes) : World κ σ π :=
  let w := w.recordProduced (some tracked.shared) datagram
  match tracked.pending with
  | some _ => w.pushOutbox (some tracked.shared) tracked.remote datagram
  | none => w.modifyTracked index ({ · with pending := some datagram })

/-- What `close_connection` asks of a connection that the endpoint drives. -/
def writeClose (w : World κ σ π) (index : ℕ) (tracked : Tracked κ) (conn : κ) (code : ℕ) (reason : Bytes) (now : ℕ) :
    World κ σ π :=
  match w.callConn index tracked conn (.writeConnectionClose code reason now) with
  | ((.ok len, buffer), w) => if 0 < len then w.keepClose index tracked (buffer.take len) else w
  | ((.error _, _), w) => w

/-- `close_connection`. -/
def closeConnection (w : World κ σ π) (index : ℕ) (code : ℕ) (reason : Bytes) : World κ σ π :=
  let (now, w) := w.now
  match w.driver.connections[index]? with
  | none => w
  | some tracked =>
    let w := match tracked.conn with
      | none => w
      | some conn => w.writeClose index tracked conn code reason now
    w.finish index tracked.shared closedByEndpoint

/-! ### Commands -/

def openStream (w : World κ σ π) (index : ℕ) (tracked : Tracked κ) (conn : κ) (bidi : Bool) : World κ σ π :=
  match w.callConn index tracked conn (if bidi then .openBidiStream else .openUniStream) with
  | (.ok stream, w) => w.modifyShared w.driver.takenFrom (·.observe (.locallyOpened stream))
  | (.error error, w) =>
    if error.kind = .blocked then w.modifyShared w.driver.takenFrom (·.push (.openStream bidi))
    else w.modifyShared w.driver.takenFrom (·.fail (ofCore error))

def applyCommand (w : World κ σ π) (index : ℕ) (tracked : Tracked κ) (conn : κ) : Command → World κ σ π
  | .openStream bidi => w.openStream index tracked conn bidi
  | .write stream data fin => w.writeStream index ⟨stream, data, fin⟩
  | .reset stream code => (w.callConn index tracked conn (.resetStream stream code)).2
  | .stopSending stream code => (w.callConn index tracked conn (.stopSending stream code)).2
  | .close code reason => w.closeConnection index code reason
  | .extendCredit stream bytes =>
    let w := (w.callConn index tracked conn (.extendMaxStreamOffset stream bytes)).2
    match w.driver.connections[index]? with
    | none => w
    | some tracked =>
      match tracked.conn with
      | none => w
      | some conn => (w.callConn index tracked conn (.extendMaxOffset bytes)).2

/-- One turn of the loop of `apply_commands`. -/
def runCommand (w : World κ σ π) (index : ℕ) : Bool × World κ σ π :=
  match w.driver.taken with
  | [] => (false, w)
  | command :: taken =>
    match w.driver.connections[index]? with
    | none => (false, w.onDriver ({ · with taken := [] }))
    | some tracked =>
      match tracked.conn with
      | none => (false, w.onDriver ({ · with taken := [] }))
      | some conn => (true, (w.onDriver ({ · with taken })).applyCommand index tracked conn command)

def takeCommands (w : World κ σ π) (index : ℕ) : ℕ × World κ σ π :=
  match w.driver.connections[index]? with
  | none => (0, w)
  | some tracked =>
    match tracked.conn with
    | none => (0, w)
    | some _ =>
      let commands := (w.shareds tracked.shared).commands
      (commands.length, ((w.onDriver fun d => { d with takenFrom := tracked.shared, taken := commands }).modifyShared
        tracked.shared ({ · with commands := [] })).onHistory fun h => { h with taken := h.written.length })

/-! ### Sending -/

/-- What `next_datagram` asks of a connection that the endpoint drives. -/
def writeNext (w : World κ σ π) (index : ℕ) (tracked : Tracked κ) (conn : κ) (now : ℕ) : Option Bytes × World κ σ π :=
  match w.callConn index tracked conn (.writePkt now) with
  | ((.ok (.datagram len), buffer), w) =>
    (some (buffer.take len), w.recordProduced (some tracked.shared) (buffer.take len))
  | ((.ok _, _), w) => (none, w)
  | ((.error error, _), w) => (none, w.modifyShared tracked.shared (·.fail (ofCore error)))

/-- `next_datagram`. -/
def nextDatagram (w : World κ σ π) (index : ℕ) : Option Bytes × World κ σ π :=
  let (now, w) := w.now
  match w.driver.connections[index]? with
  | none => (none, w)
  | some tracked =>
    match tracked.pending with
    | some pending => (some pending, w.setTracked index { tracked with pending := none })
    | none =>
      match (w.shareds tracked.shared).takeOutbound with
      | (some queued, shared) => (some queued, w.modifyShared tracked.shared fun _ => shared)
      | (none, _) =>
        match tracked.conn with
        | none => (none, w)
        | some conn => w.writeNext index tracked conn now

/-- One turn of the inner loop of `flush`. -/
def sendNext (w : World κ σ π) (index : ℕ) : Disposition × World κ σ π :=
  match w.nextDatagram index with
  | (none, w) => (.nothing, w)
  | (some datagram, w) =>
    match w.driver.connections[index]? with
    | none => (.nothing, w)
    | some tracked =>
      match w.pollSend tracked datagram with
      | (.refused, w) => (.refused, w.modifyTracked index ({ · with pending := some datagram }))
      | (disposition, w) => (disposition, w)

/-- One turn of the first loop of `flush`. -/
def sendOutbox (w : World κ σ π) : Disposition × World κ σ π :=
  match w.driver.outbox with
  | [] => (.nothing, w)
  | (destination, datagram) :: outbox =>
    let (answer, socket) := Socket.pollSend destination datagram w.driver.socket
    match answer with
    | .ready (.ok .complete) =>
      (.sent, (w.onDriver ({ · with socket, outbox })).onHistory fun h =>
        { h with
          completed := h.completed ++ [(h.outboxOrigins.headD none, datagram)]
          outboxOrigins := h.outboxOrigins.tail })
    | .ready (.ok .wouldBlock) | .pending => (.refused, w.onDriver ({ · with socket }))
    | .ready (.error ()) => (.failed, (w.onDriver ({ · with socket, outbox })).onHistory fun h =>
        { h with outboxOrigins := h.outboxOrigins.tail })

/-- Queues an answer to a stranger. -/
def answerStranger (w : World κ σ π) (source : Address) (datagram : Bytes) : World κ σ π :=
  (w.recordProduced none datagram).pushOutbox none source datagram

/-! ### Connections -/

def insertRoute (routes : List (Bytes × ℕ)) (id : Bytes) (index : ℕ) : List (Bytes × ℕ) :=
  (id, index) :: routes.filter (·.1 ≠ id)

/-- A change to where a connection can be reached. -/
def applyRoute (index : ℕ) (routes : List (Bytes × ℕ)) : RouteUpdate → List (Bytes × ℕ)
  | .minted cid => insertRoute routes cid index
  | .retired cid => routes.filter (·.1 ≠ cid)

/-- Tells the table of routes where a connection can be reached. -/
def report (w : World κ σ π) (index : ℕ) (updates : List RouteUpdate) : World κ σ π :=
  (w.onDriver fun d => { d with routes := updates.foldl (applyRoute index) d.routes }).onHistory fun h =>
    { h with reported := h.reported ++ updates.map fun update => (index, update) }

/-- The identifiers that a connection has when it is built. -/
def initialRoutes (conn : κ) : List RouteUpdate := (Transport.scids conn ++ [Transport.scid conn]).map .minted

/-- Tracks a connection and routes its identifiers to it. -/
def install (w : World κ σ π) (conn : κ) (shared : ℕ) (remote : Address) : World κ σ π :=
  ((w.onDriver fun d => { d with
    connections := d.connections.insert d.nextIndex { conn := some conn, shared, remote }
    nextIndex := d.nextIndex + 1 }).recordRoutes shared (initialRoutes conn)).report w.driver.nextIndex (initialRoutes conn)

def dial (w : World κ σ π) : World κ σ π :=
  match w.driver.dialing with
  | [] => w
  | dial :: dialing =>
    let (built, platform) := Platform.dial (κ := κ) dial.remote dial.serverName w.driver.platform
    let w := w.onDriver ({ · with dialing, platform })
    match built with
    | .ok conn => w.install conn dial.shared dial.remote
    | .error error => w.modifyShared dial.shared (·.fail error)

/-- What a first packet has earned, and whether an accepted one was validated. -/
def decide (w : World κ σ π) (packet : InitialPacket) (source : Address) : (Decision × Bool) × World κ σ π :=
  match Platform.decide (κ := κ) (π := π) with
  | some decide =>
    let (decision, platform) := decide packet source w.driver.platform
    ((decision, true), w.onDriver ({ · with platform }))
  | none => ((.accept packet.dcid, false), w)

/-- A connection is asked for. -/
def ask (w : World κ σ π) (shared : ConnectionShared) : World κ σ π :=
  { w with created := w.created + 1, shareds := Function.update w.shareds w.created shared }

def accept (w : World κ σ π) (packet : InitialPacket) (source : Address) (original : Bytes) (retried : Bool) :
    Option ℕ × World κ σ π :=
  let (built, platform) := Platform.accept (κ := κ) source packet original retried w.driver.platform
  let detach := w.endpoint.detachedAccepts
  let asked := (w.onDriver ({ · with platform })).ask { detach, detachToAcceptor := detach }
  match built with
  | .error _ => (none, asked)
  | .ok conn =>
    (some w.driver.nextIndex, ((asked.install conn w.created source).recordChosen w.created packet.dcid).report
      w.driver.nextIndex [.minted packet.dcid])

/-- `begin`, which creates no state for a packet that is answered or ignored. -/
def begin (w : World κ σ π) (packet : InitialPacket) (source : Address) : Option ℕ × World κ σ π :=
  match w.decide packet source with
  | ((.ignore, _), w) | ((.retry none, _), w) => (none, w)
  | ((.retry (some datagram), _), w) => (none, w.answerStranger source datagram)
  | ((.accept original, retried), w) => w.accept packet source original retried

def announce (w : World κ σ π) (index : ℕ) : World κ σ π :=
  match w.driver.connections[index]? with
  | none => w
  | some tracked =>
    if (w.shareds tracked.shared).detachToAcceptor then w
    else { w with endpoint := { w.endpoint with accepted := w.endpoint.accepted ++ [tracked.shared] } }

def answerUnmatched (w : World κ σ π) (datagram : Bytes) (source : Address) : World κ σ π :=
  let (answer, platform) := Platform.statelessReset (κ := κ) datagram w.driver.platform
  let w := w.onDriver ({ · with platform })
  match answer with
  | some datagram => w.answerStranger source datagram
  | none => w

/-- The error that the core reports of a connection that has ended. -/
def failClosed (w : World κ σ π) (index c : ℕ) : World κ σ π :=
  match (w.driver.connections[index]?).bind (·.conn) with
  | some conn => w.modifyShared c (·.failWithClose (Transport.closeError conn))
  | none => w

def readPkt (w : World κ σ π) (index : ℕ) (tracked : Tracked κ) (conn : κ) (datagram : Bytes) (now : ℕ) : World κ σ π :=
  match w.callConn index tracked conn (.readPkt datagram now) with
  | (.ok .draining, w) | (.ok .closing, w) => w.failClosed index tracked.shared
  | (.ok _, w) => w
  | (.error error, w) => w.finish index tracked.shared (ofCore error)

/-- `deliver`, up to its call of `absorb`. -/
def deliver (w : World κ σ π) (index : ℕ) (datagram : Bytes) : Bool × World κ σ π :=
  let (now, w) := w.now
  match w.driver.connections[index]? with
  | none => (false, w)
  | some tracked =>
    match tracked.conn with
    | none => (false, w.modifyShared tracked.shared (·.deliverInbound datagram))
    | some conn => (true, w.readPkt index tracked conn datagram now)

def terminalState : Error := ⟨.transport, "the connection reached a terminal state", none, none⟩

/-- `handle_expiry` reports a handshake that ran out of time as such. -/
def expiryError (error : CoreError) : Error :=
  if error.timedOut then ⟨.handshakeTimeout, "the handshake did not complete in time", none, none⟩ else ofCore error

def expire (w : World κ σ π) (index : ℕ) (tracked : Tracked κ) (conn : κ) (now : ℕ) : World κ σ π :=
  match w.callConn index tracked conn (.handleExpiry now) with
  | (.ok .handled, w) => w
  | (.ok .idleClose, w) => (w.modifyTracked index ({ · with finished := true })).failClosed index tracked.shared
  | (.ok .terminal, w) => w.finish index tracked.shared terminalState
  | (.error error, w) => w.modifyShared tracked.shared (·.fail (expiryError error))

/-- `handle_expiry`, up to its call of `absorb`. -/
def handleExpiry (w : World κ σ π) (index : ℕ) : Bool × World κ σ π :=
  let (now, w) := w.now
  match w.driver.connections[index]? with
  | none => (false, w)
  | some tracked =>
    match tracked.conn with
    | none => (false, w)
    | some conn =>
      if (Transport.expiry conn).all (now < ·) then (false, w) else (true, w.expire index tracked conn now)

def takeObserved (w : World κ σ π) (index : ℕ) : List Observed × World κ σ π :=
  match w.driver.connections[index]? with
  | none => ([], w)
  | some tracked =>
    ((w.shareds tracked.shared).observed, w.modifyShared tracked.shared ({ · with observed := [] }))

def modifySharedOf (w : World κ σ π) (index : ℕ) (f : ConnectionShared → ConnectionShared) : World κ σ π :=
  match w.driver.connections[index]? with
  | none => w
  | some tracked => w.modifyShared tracked.shared f

/-- `hand_over`. The endpoint keeps the entry, and what was produced and not sent. -/
def handOver (w : World κ σ π) (index : ℕ) : World κ σ π :=
  match w.driver.connections[index]? with
  | none => w
  | some tracked =>
    if (w.shareds tracked.shared).detach && (w.shareds tracked.shared).established then
      match tracked.conn with
      | none => w
      | some conn =>
        if w.driver.detachable then
          let toAcceptor := (w.shareds tracked.shared).detachToAcceptor
          { w.setTracked index { tracked with conn := none } with
            ready := w.ready ++ [⟨toAcceptor, conn, tracked.shared, tracked.remote⟩] }
        else w.modifyShared tracked.shared (·.fail cannotDetach)
    else w

def applyRoutes (w : World κ σ π) (index : ℕ) : World κ σ π :=
  match w.driver.connections[index]? with
  | none => w
  | some tracked =>
    (w.modifyShared tracked.shared ({ · with routes := [] })).report index (w.shareds tracked.shared).routes

/-- Whether `evict` finds that a connection is done. Nothing resets `terminal`, so that a detached one is
looked at twice and may count as looked at once. -/
def isDone (w : World κ σ π) (index : ℕ) : Bool :=
  match w.driver.connections[index]? with
  | none => false
  | some tracked =>
    match tracked.conn with
    | some conn =>
      (w.shareds tracked.shared).closed && tracked.pending.isNone &&
        (Transport.inDrainingPeriod conn || tracked.finished)
    | none => (w.shareds tracked.shared).terminal && !(w.shareds tracked.shared).hasOutbound

def remove (w : World κ σ π) (index : ℕ) : World κ σ π :=
  w.onDriver fun d => { d with
    connections := d.connections.erase index
    routes := d.routes.filter (·.2 ≠ index) }

def earliestExpiry (w : World κ σ π) : Option ℕ :=
  (w.driver.connections.toList.filterMap fun (_, tracked) =>
    if tracked.finished then none else tracked.conn.bind Transport.expiry).min?

def rearm (w : World κ σ π) : Bool × World κ σ π :=
  match w.earliestExpiry with
  | none => (false, w.onDriver ({ · with sleepingUntil := none }))
  | some deadline =>
    let (fired, platform) := Platform.pollSleep (κ := κ) deadline w.driver.platform
    (fired, w.onDriver ({ · with platform, sleepingUntil := if fired then none else some deadline }))

def hasPending (w : World κ σ π) : Bool :=
  !w.driver.outbox.isEmpty || w.driver.connections.toList.any fun (_, tracked) => tracked.pending.isSome

def failAll (w : World κ σ π) (error : Error) : World κ σ π :=
  w.driver.connections.toList.foldl (fun w (_, tracked) => w.modifyShared tracked.shared (·.fail error)) w

def failDials (w : World κ σ π) (error : Error) : World κ σ π :=
  w.endpoint.dials.foldl (fun w dial => w.modifyShared dial.shared (·.fail error))
    { w with endpoint := { w.endpoint with dials := [] } }

/-- What each operation does. -/
def applyOp {α : Type} (w : World κ σ π) : Op κ α → α × World κ σ π
  | .await => ((), w.onProgress ({ · with passes := 0 }))
  | .drainDials =>
    (w.endpoint.dials.length, ({ w with
      endpoint := { w.endpoint with dials := [] }
      driver := { w.driver with dialing := w.endpoint.dials } } : World κ σ π).onProgress fun p =>
        { p with passes := p.passes + 1, woken := false })
  | .dial => ((), w.dial)
  | .pollRecv =>
    let (answer, socket) := Socket.pollRecv w.driver.socket
    let received := match answer with
      | .ready (.ok _) => true
      | _ => false
    (answer, (w.onDriver ({ · with socket })).onProgress fun p => { p with woken := p.woken || received })
  | .route datagram =>
    ((Platform.inspect (κ := κ) w.driver.platform datagram).bind fun id =>
      (w.driver.routes.find? (·.1 = id)).map (·.2), w)
  | .deliver index datagram => w.deliver index datagram
  | .begin datagram source =>
    match Platform.inspectInitial (κ := κ) w.driver.platform datagram with
    | some packet => w.begin packet source
    | none => (none, w.answerUnmatched datagram source)
  | .announce index => ((), w.announce index)
  | .takeObserved index => w.takeObserved index
  | .setRetained index => ((), w.setRetained index)
  | .markEstablished index => ((), w.modifySharedOf index ({ · with established := true }))
  | .handOver index => ((), w.handOver index)
  | .putBack index observed => ((), w.modifySharedOf index fun s => { s with observed := s.observed ++ observed })
  | .keys =>
    let (order, platform) := Platform.arrange (κ := κ) w.driver.connections.keys w.driver.platform
    (order.val, (w.onDriver ({ · with platform })).onProgress ({ · with passing := w.history.abandoned }))
  | .applyRoutes index => ((), w.applyRoutes index)
  | .takeCommands index => w.takeCommands index
  | .runCommand index => w.runCommand index
  | .handleExpiry index => w.handleExpiry index
  | .sendOutbox => w.sendOutbox
  | .sendNext index => w.sendNext index
  | .isDone index => (w.isDone index, w)
  | .remove index => ((), w.remove index)
  | .rearm => (w.rearm.1, w.rearm.2.onProgress fun p => { p with served := p.passing })
  | .hasPending => (w.hasPending, w)
  | .failAll error => ((), w.failAll error)
  | .failDials error => ((), (w.failDials error).onProgress ({ · with drained := true }))
  | .markGone => ((), { w with endpoint := { w.endpoint with gone := true } })

instance : Atomic (Op κ) (World κ σ π) where
  apply op w := w.applyOp op

end World

end Ngnet.QuicEndpoint
