import Ngnet.QmuxHttp3Join
import Ngnet.QuicScriptedHost

/-!
# HTTP/3 over a native QUIC connection

The crate `ngnet-quic-h3`: `connection.rs` with `event.rs`, `error.rs`, `pump.rs` and `transmit.rs`. A stream
identifier is the same number in both layers, so the conversions between the two types are left out, and so are the
opened streams that nothing reads. The connection of the core is a parameter, with the handlers of `ngnet-quic`
installed, and so is what the HTTP/3 layer has to write.

The loops that call the core are functions of the core alone, which answer what it said, what its handlers noted and
how the loop ended; the pump then does what the source does in the loop and behind it. The clock stands still within
a call. Beside the fields of the source a connection carries the wakes that were issued, and its history: what was
recorded for the HTTP/3 layer and what `poll_event` answered, in this order.
-/

namespace Ngnet.QuicHttp3Join
open QmuxVarints QmuxStreams QuicEndpoint
open QuicStreamWrites (StreamWrite)
open QmuxConnection (Poll)
open QmuxRecordWriter (Waker)
open QmuxHttp3Join (QuicEvent announces NextWrite StreamSource)

/-! ## Records and errors -/

inductive Recorded
  | data (stream : StreamId) (bytes : Bytes) (fin : Bool)
  | peerOpened (stream : StreamId)
  | released (stream : StreamId) (bytes : ℕ)
  | reset (stream : StreamId) (code : ℕ)
  | stopSending (stream : StreamId) (code : ℕ)
  | closed (stream : StreamId) (receiving sending : Option ℕ)
  | connectionClosed (code : Option ℕ)
  deriving DecidableEq, Repr

namespace Recorded

def endsAStream : Recorded → Bool
  | .closed _ _ _ | .connectionClosed _ => true
  | _ => false

def intoEvent (self : Initiator) : Recorded → Option QuicEvent
  | .data stream bytes fin => some (.data stream bytes fin)
  | .peerOpened stream => if announces stream self then some (.accepted stream) else none
  | .released stream bytes => some (.released stream bytes true)
  | .reset stream code => some (.reset stream code)
  | .stopSending stream code => some (.stopSending stream code)
  | .closed stream receiving sending => some (.streamClosed stream receiving sending)
  | .connectionClosed code => some (.closed code)

/-- What is recorded of an observation. -/
def ofObserved : Observed → Option Recorded
  | .data stream bytes fin => some (.data stream bytes fin)
  | .opened stream => some (.peerOpened stream)
  | .reset stream code => some (.reset stream code)
  | .stopSending stream code => some (.stopSending stream code)
  | .closed stream receiving sending => some (.closed stream receiving sending)
  | _ => none

end Recorded

/-- The calls in which the handlers of streams run. -/
def hears {α : Type} : ConnCall α → Bool
  | .readPkt _ _ | .handleExpiry _ => true
  | _ => false

/-- A connection of the core that was handed over. Only a read or a timeout makes its handlers observe a stream. -/
class Detachable (κ : Type) extends Transport κ where
  extendMaxStreamsBidi : ℕ → κ → κ
  extendMaxStreamsUni : ℕ → κ → κ
  heard : ∀ {α : Type} (op : ConnCall α) (conn : κ), hears op = false →
    ∀ event, .observe event ∈ (call op conn).2.1 → Recorded.ofObserved event = none

inductive JoinErrorKind | transport | closed
  deriving DecidableEq, Repr

structure JoinError where
  kind : JoinErrorKind
  context : String
  source : Option CoreError
  deriving DecidableEq, Repr

def JoinError.ofTransport (source : CoreError) : JoinError := ⟨.transport, "the QUIC transport failed", some source⟩

def ended : JoinError := ⟨.closed, "the connection has ended", none⟩

/-- Only an application close carries a code. -/
def applicationCode (close : CloseError) : Option ℕ :=
  match close.reason with
  | .application code => some code
  | _ => none

/-! ## The loops over the core -/

/-- How the loop over the datagrams ended: none was left, the connection ended, or the core failed. -/
inductive Verdict
  | dry
  | ended
  | failed (error : CoreError)
  deriving DecidableEq, Repr

structure Reading (κ : Type) where
  verdict : Verdict
  notes : List Note
  rest : List Bytes
  conn : κ

structure Produced (κ : Type) where
  datagrams : List Bytes
  notes : List Note
  /-- Whether the loop ended for want of room. -/
  full : Bool
  failure : Option CoreError
  conn : κ

section Loops
variable {κ : Type} [Transport κ]

def readAll (now : ℕ) : List Bytes → κ → Reading κ
  | [], conn => ⟨.dry, [], [], conn⟩
  | datagram :: rest, conn =>
    let (answer, notes, conn) := Transport.call (.readPkt datagram now) conn
    match answer with
    | .ok .processed | .ok .sendRetry | .ok .dropSilently =>
      let reading := readAll now rest conn
      { reading with notes := notes ++ reading.notes }
    | .ok .draining | .ok .closing => ⟨.ended, notes, rest, conn⟩
    | .error error => ⟨.failed error, notes, rest, conn⟩

/-- What the timer does, if it is due. -/
def lapse (now : ℕ) (conn : κ) : Option (Except CoreError ExpiryOutcome × List Note × κ) :=
  match Transport.expiry conn with
  | some deadline => if deadline ≤ now then some (Transport.call (.handleExpiry now) conn) else none
  | none => none

/-- The datagrams of so many turns, of which each needs room. -/
def produceAll (now : ℕ) : ℕ → ℕ → κ → Produced κ
  | 0, _, conn => ⟨[], [], false, none, conn⟩
  | _ + 1, 0, conn => ⟨[], [], true, none, conn⟩
  | turns + 1, room + 1, conn =>
    let ((answer, buffer), notes, conn) := Transport.call (.writePkt now) conn
    match answer with
    | .ok (.datagram len) =>
      let produced := produceAll now turns room conn
      { produced with datagrams := buffer.take len :: produced.datagrams, notes := notes ++ produced.notes }
    | .ok .blocked | .ok .idle => ⟨[], notes, false, none, conn⟩
    | .error error => ⟨[], notes, false, some error, conn⟩

end Loops

/-! ## The connection -/

structure Sleep where
  deadline : ℕ
  /-- Whoever polled it last. -/
  waker : Option Waker := none
  deriving DecidableEq, Repr

inductive Moment
  | recorded (event : QuicEvent)
  | pending
  | ready (result : Except JoinError QuicEvent)
  deriving DecidableEq, Repr

structure Connection (κ : Type) where
  conn : κ
  self : Initiator
  shared : ConnectionShared := {}
  /-- Woken when a datagram arrives. -/
  wakers : List Waker := []
  /-- Woken when the outbound queue is full no longer. -/
  capacityWakers : List Waker := []
  pending : List Recorded := []
  closed : Bool := false
  reportedClosed : Bool := false
  emittedSincePending : Bool := false
  sleeping : Option Sleep := none
  sleepingUntil : Option ℕ := none
  limitWakers : List Waker := []
  now : ℕ := 0
  woken : List Waker := []
  history : List Moment := []

/-- `will_wake` and `push`. -/
def registered (wakers : List Waker) (waker : Waker) : List Waker :=
  if waker ∈ wakers then wakers else wakers ++ [waker]

/-- The connection is gone. -/
def isEnd : QuicEvent → Bool
  | .closed _ => true
  | _ => false

/-- What the HTTP/3 layer is to be told of an observation. -/
def eventOf (self : Initiator) (event : Observed) : Option QuicEvent :=
  (Recorded.ofObserved event).bind (Recorded.intoEvent self)

/-- What a handler observed. -/
def observedOf : Note → Option Observed
  | .observe event => some event
  | .observeRoute _ => none

/-- What the HTTP/3 layer is to be told of what the handlers noted. -/
def eventsOf (self : Initiator) (notes : List Note) : List QuicEvent :=
  (notes.filterMap observedOf).filterMap (eventOf self)

namespace Connection
variable {κ : Type}

def wake (c : Connection κ) (wakers : List Waker) : Connection κ := { c with woken := c.woken ++ wakers }

/-- A call of the core has returned, and its handlers left these notes. -/
def noted (c : Connection κ) (notes : List Note) (conn : κ) : Connection κ :=
  { c with
    conn
    shared := notes.foldl ConnectionShared.note c.shared
    history := c.history ++ (eventsOf c.self notes).map .recorded }

def send (c : Connection κ) (datagrams : List Bytes) : Connection κ :=
  { c with shared := datagrams.foldl ConnectionShared.queueOutbound c.shared }

def recordReleased (c : Connection κ) (stream : StreamId) (bytes : ℕ) : Connection κ :=
  { c with
    pending := c.pending ++ [.released stream bytes]
    history := c.history ++ [.recorded (.released stream bytes true)] }

/-- The connection ends, and a record says so. -/
def recordConnectionClosed (c : Connection κ) (code : Option ℕ) : Connection κ :=
  { c with closed := true, pending := c.pending ++ [.connectionClosed code] }

section Driving
variable [Transport κ]

/-- Produces what the core wants to send. -/
def produce (c : Connection κ) (capacityWaker : Option Waker) : Option JoinError × Connection κ :=
  let produced := produceAll c.now 64 (outboundDataQueue - c.shared.outbound.length) c.conn
  let c := (c.noted produced.notes produced.conn).send produced.datagrams
  let c :=
    match capacityWaker with
    | some waker => if produced.full then { c with capacityWakers := registered c.capacityWakers waker } else c
    | none => c
  match produced.failure with
  | some error => (some (.ofTransport error), { c with closed := true })
  | none => (none, c)

/-- The second half of the pump: the timer, and what is owed. -/
def expire (c : Connection κ) (waker : Waker) : Option JoinError × Connection κ :=
  match lapse c.now c.conn with
  | some (answer, notes, conn) =>
    let c := c.noted notes conn
    match answer with
    | .ok .handled => c.produce (some waker)
    | .ok .idleClose | .ok .terminal =>
      (none, c.recordConnectionClosed (applicationCode (Transport.closeError c.conn)))
    | .error error => (some (.ofTransport error), c.recordConnectionClosed none)
  | none => c.produce (some waker)

/-- Takes in what was routed here, fires the timer and produces what is owed. -/
def pump (c : Connection κ) (waker : Waker) : Option JoinError × Connection κ :=
  let reading := readAll c.now c.shared.inbound c.conn
  let c := { c with
    wakers := registered c.wakers waker
    shared := { c.shared with inbound := reading.rest } }.noted reading.notes reading.conn
  match reading.verdict with
  | .failed error => (some (.ofTransport error), c.recordConnectionClosed none)
  | .ended => (none, c.recordConnectionClosed (applicationCode (Transport.closeError c.conn)))
  | .dry => if c.closed then (none, c) else c.expire waker

def pollArmed (c : Connection κ) (waker : Waker) (preservedReady : Bool) : Bool × Connection κ :=
  match c.sleeping with
  | none => (false, c)
  | some sleep =>
    if sleep.deadline ≤ c.now then (true, { c with sleeping := none, sleepingUntil := none })
    else (preservedReady, { c with sleeping := some { sleep with waker := some waker } })

def arm (c : Connection κ) (deadline : ℕ) : Connection κ :=
  { c with sleeping := some { deadline }, sleepingUntil := some deadline }

/-- Whether the timer is due. A later deadline does not cancel an earlier sleep. -/
def pollTimer (c : Connection κ) (waker : Waker) : Bool × Connection κ :=
  match Transport.expiry c.conn with
  | none => (false, { c with sleeping := none, sleepingUntil := none })
  | some deadline =>
    if c.sleepingUntil = some deadline then c.pollArmed waker false
    else
      match c.sleepingUntil, c.sleeping with
      | some previous, some sleep =>
        if previous < deadline then
          if sleep.deadline ≤ c.now then (c.arm deadline).pollArmed waker true
          else (false, { c with sleeping := some { sleep with waker := some waker } })
        else (c.arm deadline).pollArmed waker false
      | _, _ => (c.arm deadline).pollArmed waker false

end Driving

section Polling
variable [Detachable κ]

def collectOne (c : Connection κ) (event : Observed) : Connection κ :=
  match event with
  | .data stream bytes fin => { c with pending := c.pending ++ [.data stream bytes fin] }
  | .opened stream => { c with pending := c.pending ++ [.peerOpened stream] }
  | .reset stream code => { c with pending := c.pending ++ [.reset stream code] }
  | .stopSending stream code => { c with pending := c.pending ++ [.stopSending stream code] }
  | .closed stream receiving sending =>
    let conn :=
      if stream.initiator = c.self then c.conn
      else
        match stream.directionality with
        | .bidirectional => Detachable.extendMaxStreamsBidi 1 c.conn
        | .unidirectional => Detachable.extendMaxStreamsUni 1 c.conn
    { c with conn, pending := c.pending ++ [.closed stream receiving sending] }
  | .streamsExtended _ => { c.wake c.limitWakers with limitWakers := [] }
  | .locallyOpened _ | .acked _ _ | .handshakeCompleted => c

/-- Moves what the handlers recorded into the queue. -/
def collect (c : Connection κ) : Connection κ :=
  c.shared.observed.foldl collectOne { c with shared := { c.shared with observed := [] } }

/-- The next record that is an event, unless it ends a stream and has to wait for a batch of its own. -/
def takeEvent (waker : Waker) : List Recorded → Connection κ → Option (Poll QuicEvent) × Connection κ
  | [], c => (none, { c with pending := [] })
  | record :: pending, c =>
    if record.endsAStream && c.emittedSincePending then
      (some .pending, { c.wake [waker] with pending := record :: pending, emittedSincePending := false })
    else
      match record.intoEvent c.self with
      | some event =>
        (some (.ready event), { c with
          pending
          reportedClosed := c.reportedClosed || isEnd event
          emittedSincePending := true })
      | none => takeEvent waker pending c

/-- The end of `poll_event` where nothing is queued. -/
def pollQuiet (c : Connection κ) (waker : Waker) : Poll (Except JoinError QuicEvent) × Connection κ :=
  if c.closed && !c.reportedClosed then
    (.ready (.ok (.closed none)), { c with reportedClosed := true, emittedSincePending := true })
  else
    let (due, c) := c.pollTimer waker
    let c := if due then c.wake [waker] else c
    (.pending, { c with emittedSincePending := false })

def answerEvent (c : Connection κ) (waker : Waker) : Poll (Except JoinError QuicEvent) × Connection κ :=
  match c.pump waker with
  | (some error, c) => (.ready (.error error), c)
  | (none, c) =>
    let c := c.collect
    match takeEvent waker c.pending c with
    | (some (.ready event), c) => (.ready (.ok event), c)
    | (some .pending, c) => (.pending, c)
    | (none, c) => c.pollQuiet waker

def momentOf : Poll (Except JoinError QuicEvent) → Moment
  | .pending => .pending
  | .ready result => .ready result

def pollEvent (c : Connection κ) (waker : Waker) : Poll (Except JoinError QuicEvent) × Connection κ :=
  let (answer, c) := c.answerEvent waker
  (answer, { c with history := c.history ++ [momentOf answer] })

def pollOpen (c : Connection κ) (bidi : Bool) (waker : Waker) : Poll (Except JoinError StreamId) × Connection κ :=
  match c.pump waker with
  | (some error, c) => (.ready (.error error), c)
  | (none, c) =>
    let c := c.collect
    if c.closed then (.ready (.error ended), c)
    else
      let (answer, notes, conn) := Transport.call (if bidi then .openBidiStream else .openUniStream) c.conn
      let c := c.noted notes conn
      match answer with
      | .ok stream =>
        match c.produce (some waker) with
        | (some error, c) => (.ready (.error error), c)
        | (none, c) => (.ready (.ok stream), c)
      | .error error =>
        if error.kind = .blocked then (.pending, { c with limitWakers := registered c.limitWakers waker })
        else (.ready (.error (.ofTransport error)), c)

end Polling

end Connection

/-! ## Transmitting -/

/-- Why a transmit pass stopped asking for offers. -/
inductive PassEnd
  | full
  | dry
  | finished (stream : StreamId)
  | refused (stream : StreamId) (answer : StreamWrite)
  | spent
  | failed (error : CoreError)
  deriving DecidableEq, Repr

structure Pass (κ σ : Type) where
  stop : PassEnd
  datagrams : List Bytes := []
  accepted : List (StreamId × ℕ) := []
  notes : List Note := []
  source : σ
  conn : κ

/-- The pass, with what an offer before it came to. -/
def Pass.behind {κ σ : Type} (pass : Pass κ σ) (datagrams : List Bytes) (accepted : List (StreamId × ℕ))
    (notes : List Note) : Pass κ σ :=
  { pass with
    datagrams := datagrams ++ pass.datagrams
    accepted := accepted ++ pass.accepted
    notes := notes ++ pass.notes }

def maxOffers : ℕ := 64

/-- The offers that are left of a pass, with room for so many datagrams. -/
def offerAll {κ σ : Type} [Transport κ] [StreamSource σ] (now : ℕ) : ℕ → ℕ → σ → κ → Pass κ σ
  | 0, _, source, conn => { stop := .spent, source, conn }
  | _ + 1, 0, source, conn => { stop := .full, source, conn }
  | offers + 1, room + 1, source, conn =>
    match StreamSource.writeNext source with
    | .idle source => { stop := .dry, source, conn }
    | .offer stream slices fin apply =>
      let ((answer, buffer), notes, conn) := Transport.call (.writeStream stream slices.flatten fin now) conn
      match answer with
      | .ok (.datagram len accepted) =>
        let (offered, source) := apply (.accepted accepted)
        if 0 < accepted then
          let pass := if offered then offerAll now offers room source conn else { stop := .dry, source, conn }
          pass.behind [buffer.take len] [(stream, accepted)] notes
        else
          let stop := if offered then .finished stream else .dry
          ({ stop, source, conn } : Pass κ σ).behind [buffer.take len] [] notes
      | .ok (.datagramWithoutStream len) =>
        let (offered, source) := apply .blocked
        let pass := if offered then offerAll now offers room source conn else { stop := .dry, source, conn }
        pass.behind [buffer.take len] [] notes
      | .ok answer =>
        let (offered, source) := apply .blocked
        { stop := if offered then .refused stream answer else .dry, notes, source, conn }
      | .error error =>
        if error.kind = .streamClosed then
          let (offered, source) := apply .gone
          let pass := if offered then offerAll now offers (room + 1) source conn else { stop := .dry, source, conn }
          pass.behind [] [] notes
        else { stop := .failed error, notes, source := (apply .blocked).2, conn }

namespace Connection
variable {κ : Type}

section Transmitting
variable [Detachable κ] {σ : Type} [StreamSource σ]

/-- The pass that a connection makes over a source. -/
def pass (c : Connection κ) (source : σ) : Pass κ σ :=
  offerAll c.now maxOffers (outboundDataQueue - c.shared.outbound.length) source c.conn

/-- Queues the datagrams of a pass, and reports its buffers as released. -/
def drain (c : Connection κ) (waker : Waker) (source : σ) : Connection κ :=
  let pass := c.pass source
  let c := (c.noted pass.notes pass.conn).send pass.datagrams
  let c := pass.accepted.foldl (fun c released => c.recordReleased released.1 released.2) c
  if pass.stop = .full then { c with capacityWakers := registered c.capacityWakers waker } else c

def pollTransmit (c : Connection κ) (waker : Waker) (source : σ) :
    Poll (Except JoinError Unit) × σ × Connection κ :=
  match c.pump waker with
  | (some error, c) => (.ready (.error error), source, c)
  | (none, c) =>
    let c := c.collect
    if c.closed then (.ready (.error ended), source, c)
    else
      let pass := c.pass source
      let c := c.drain waker source
      match pass.stop with
      | .failed error => (.ready (.error (.ofTransport error)), pass.source, { c with closed := true })
      | _ =>
        let (due, c) := c.pollTimer waker
        (.ready (.ok ()), pass.source, if due then c.wake [waker] else c)

end Transmitting

/-! ## The other entry points -/

section Entries
variable [Detachable κ]

def reset (c : Connection κ) (stream : StreamId) (code : ℕ) : Option JoinError × Connection κ :=
  let (answer, notes, conn) := Transport.call (.resetStream stream code) c.conn
  let c := c.noted notes conn
  match answer with
  | .ok () => c.produce none
  | .error error => (some (.ofTransport error), c)

def stopSending (c : Connection κ) (stream : StreamId) (code : ℕ) : Option JoinError × Connection κ :=
  let (answer, notes, conn) := Transport.call (.stopSending stream code) c.conn
  let c := c.noted notes conn
  match answer with
  | .ok () => c.produce none
  | .error error => (some (.ofTransport error), c)

def extendCredit (c : Connection κ) (stream : Option StreamId) (bytes : ℕ) : Option JoinError × Connection κ :=
  match stream with
  | some stream =>
    let (answer, notes, conn) := Transport.call (.extendMaxStreamOffset stream bytes) c.conn
    let c := c.noted notes conn
    match answer with
    | .ok () => (none, c)
    | .error error => (some (.ofTransport error), c)
  | none =>
    let ((), notes, conn) := Transport.call (.extendMaxOffset bytes) c.conn
    (none, c.noted notes conn)

def release (c : Connection κ) : Connection κ := { c with shared := c.shared.markTerminal }

def close (c : Connection κ) (code : ℕ) (reason : Bytes) : Option JoinError × Connection κ :=
  if c.closed then (none, c.release)
  else
    let ((answer, buffer), notes, conn) := Transport.call (.writeConnectionClose code reason c.now) c.conn
    let c := c.noted notes conn
    match answer with
    | .ok len =>
      let shared := if 0 < len then c.shared.queueCloseOutbound (buffer.take len) else c.shared
      (none, { c with shared, closed := true }.release)
    | .error error => (some (.ofTransport error), c)

/-! ## What the endpoint and the clock do -/

/-- The endpoint routes a datagram here. -/
def deliver (c : Connection κ) (datagram : Bytes) : Connection κ :=
  if datagramQueue ≤ c.shared.inbound.length then { c with shared := c.shared.deliverInbound datagram }
  else { c.wake c.wakers with shared := c.shared.deliverInbound datagram, wakers := [] }

/-- The endpoint takes a datagram to send. -/
def takeOutbound (c : Connection κ) : Connection κ :=
  if c.shared.outbound.length = outboundDataQueue then
    { c.wake c.capacityWakers with shared := c.shared.takeOutbound.2, capacityWakers := [] }
  else { c with shared := c.shared.takeOutbound.2 }

/-- Time passes, and a sleep that is due wakes whoever polled it last. -/
def advance (c : Connection κ) (nanos : ℕ) : Connection κ :=
  let c := { c with now := c.now + nanos }
  match c.sleeping with
  | some sleep =>
    if sleep.deadline ≤ c.now then { c.wake sleep.waker.toList with sleeping := some { sleep with waker := none } } else c
  | none => c

end Entries

end Connection

/-! ## Runs -/

/-- What the HTTP/3 layer, the endpoint and the clock do, in any order. The layer has its own source for each pass. -/
inductive Action (σ : Type)
  | pollEvent (waker : Waker)
  | pollTransmit (waker : Waker) (source : σ)
  | pollOpen (bidi : Bool) (waker : Waker)
  | reset (stream : StreamId) (code : ℕ)
  | stopSending (stream : StreamId) (code : ℕ)
  | extendCredit (stream : Option StreamId) (bytes : ℕ)
  | close (code : ℕ) (reason : Bytes)
  | deliver (datagram : Bytes)
  | takeOutbound
  | advance (nanos : ℕ)

section Runs
variable {κ σ : Type} [Detachable κ] [StreamSource σ]

def step (c : Connection κ) : Action σ → Connection κ
  | .pollEvent waker => (c.pollEvent waker).2
  | .pollTransmit waker source => (c.pollTransmit waker source).2.2
  | .pollOpen bidi waker => (c.pollOpen bidi waker).2
  | .reset stream code => (c.reset stream code).2
  | .stopSending stream code => (c.stopSending stream code).2
  | .extendCredit stream bytes => (c.extendCredit stream bytes).2
  | .close code reason => (c.close code reason).2
  | .deliver datagram => c.deliver datagram
  | .takeOutbound => c.takeOutbound
  | .advance nanos => c.advance nanos

/-- A connection that was just handed over, with what was observed on it before. -/
def newConnection (conn : κ) (self : Initiator) (shared : ConnectionShared) (now : ℕ) : Connection κ :=
  { conn, self, shared, now, history := (shared.observed.filterMap (eventOf self)).map .recorded }

def reached (c : Connection κ) (actions : List (Action σ)) : Connection κ := actions.foldl step c

end Runs

/-! ## A connection that follows a script -/

/-- The answers of a core whose handlers note nothing but in reads and timeouts. -/
structure ScriptedConnection where
  script : QuicScriptedHost.ScriptedConn

instance : Transport ScriptedConnection where
  call op conn :=
    let (answer, notes, script) := conn.script.answer op
    (answer, if hears op then notes else [], ⟨script⟩)
  expiry conn := Transport.expiry conn.script
  inDrainingPeriod conn := Transport.inDrainingPeriod conn.script
  closeError conn := Transport.closeError conn.script
  maxTxUdpPayloadSize conn := Transport.maxTxUdpPayloadSize conn.script
  retainedBytes conn := Transport.retainedBytes conn.script
  scids conn := Transport.scids conn.script
  scid conn := Transport.scid conn.script
  accepts_le conn := Transport.accepts_le conn.script

instance : Detachable ScriptedConnection where
  extendMaxStreamsBidi _ conn := conn
  extendMaxStreamsUni _ conn := conn
  heard op conn hop event hevent := by
    simp [Transport.call, hop] at hevent

end Ngnet.QuicHttp3Join
