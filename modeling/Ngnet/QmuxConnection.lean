import Ngnet.QmuxRecordFramer
import Ngnet.QmuxRecordWriter

/-!
# The asynchronous QMux connection

`io/conn.rs`: one connection over a byte stream, driven by polls. The byte stream is a
parameter, the class `AsyncByteStream`; a poll that fails returns the error through the
program's failure, so `Poll<Result<T>>` becomes a program that returns a `Poll`.

Two loops of the source run for as long as their environment lets them, the production loop of
`write_side` and the read loop of `read_side`; they are given a bound, `fuel`. The others make
progress with every turn and are given enough for it.

Beside the fields of the source a connection carries what has happened to it: the bytes the
byte stream accepted and the records produced (in `OutboundBuffer`), every earlier value of the
outbound buffer, the slices handed to the record writer, the calls of `poll_shutdown` and the
events handed to the caller. Nothing reads these.
-/

namespace Ngnet.QmuxConnection
open QmuxVarints QmuxCloseCodec QmuxErrors QmuxRecordFramer QmuxStreams StatefulPrograms
open QmuxRecordWriter

inductive Poll (α : Type)
  | pending
  | ready (value : α)
  deriving DecidableEq, Repr

inductive Written
  | accepted (bytes : ℕ)
  | notNow
  deriving DecidableEq, Repr

/-- The byte stream under a connection. What its errors say is never consulted. -/
class AsyncByteStream (β : Type) where
  pollRead : Waker → ℕ → β → Poll (Except Unit Bytes) × β
  pollWrite : Waker → Bytes → β → Poll (Except Unit Written) × β
  pollShutdown : Waker → β → Poll (Except Unit Unit) × β

def maxRecord : ℕ := maxRecordSize

def readBuffer : ℕ := maxRecord

def outboundCarry : ℕ := 64 * 1024

def outboundCeiling : ℕ := outboundCarry + maxRecord

inductive StreamWrite
  | accepted (bytes : ℕ)
  | blocked
  | closed
  deriving DecidableEq, Repr

inductive StreamOpen
  | opened (stream : StreamId)
  | blocked
  deriving DecidableEq, Repr

inductive Closing | queued | written | complete
  deriving DecidableEq, Repr

inductive Verdict | packed | blocked | closed
  deriving DecidableEq, Repr

inductive Flush | whenFull | everything
  deriving DecidableEq, Repr

/-! ## Fragments -/

/-- A cursor over the fragments of one offer. -/
structure Fragments where
  slices : List Bytes
  index : ℕ
  offset : ℕ
  deriving DecidableEq, Repr

namespace Fragments

def new (slices : List Bytes) : Fragments := ⟨slices, 0, 0⟩

/-- The fragments from the cursor on, the first of them from its offset on. -/
def left (f : Fragments) : List Bytes :=
  match f.slices.drop f.index with
  | [] => []
  | slice :: rest => slice.drop f.offset :: rest

def remaining (f : Fragments) : ℕ := (f.left.map List.length).sum

def isEmpty (f : Fragments) : Bool := f.remaining == 0

/-- The next fragments to submit, and whether nothing is left behind them. -/
def chunk (f : Fragments) : List Bytes × Bool := gather maxVectors f.left

/-- The loop of `advance`, over the slices from the cursor on. -/
def advanceOver : List Bytes → Fragments → ℕ → Fragments
  | [], f, _ => f
  | slice :: rest, f, bytes =>
    if bytes = 0 then f
    else
      let left := slice.length - f.offset
      if bytes < left then { f with offset := f.offset + bytes }
      else advanceOver rest { f with index := f.index + 1, offset := 0 } (bytes - left)

def advance (f : Fragments) (bytes : ℕ) : Fragments := advanceOver (f.slices.drop f.index) f bytes

end Fragments

/-! ## Packing a record -/

/-- What a production did: `bytes` is the record itself, empty when there was none. -/
structure Produced where
  consumed : ℕ
  bytes : Bytes
  verdict : Verdict
  deriving DecidableEq, Repr

section Packing
variable {ν : Type} [Dwnx ν]

/-- The loop of `pack_vectored`. A turn that goes on took a byte of the offer. -/
def packLoop (stream : Option StreamId) (fin : Bool) :
    ℕ → Fragments → ℕ → WriterM ν (ℕ × Verdict × Fragments)
  | 0, _, _ => outOfFuel
  | fuel + 1, fragments, consumed => do
    let (vectors, whole) := fragments.chunk
    match ← attempt (RecordWriter.pushVectored ⟨stream, vectors, fin && whole⟩) with
    | .error kind =>
      if consumed = 0 ∧ kind = .stream then pure (consumed, .closed, fragments) else fail kind
    | .ok (.accepted taken) =>
      let taken := taken.getD 0
      let fragments := fragments.advance taken
      if fragments.isEmpty then pure (consumed + taken, .packed, fragments)
      else if taken = 0 then pure (consumed + taken, .blocked, fragments)
      else packLoop stream fin fuel fragments (consumed + taken)
    | .ok (.complete taken) =>
      let taken := taken.getD 0
      pure (consumed + taken, .packed, fragments.advance taken)
    | .ok .streamBlocked => pure (consumed, .blocked, fragments)
    | .ok .streamClosed => pure (consumed, .closed, fragments)

/-- `pack_vectored`, with the cursor it leaves. -/
def packVectored (stream : Option StreamId) (fragments : Fragments) (fin : Bool) (room : ℕ) :
    Program CoreErrorKind (Conn ν) (Produced × Fragments) :=
  Conn.record room do
    let (consumed, verdict, fragments) ←
      packLoop stream fin (fragments.remaining + 1) fragments 0
    let bytes ← RecordWriter.finish
    pure (⟨consumed, bytes, verdict⟩, fragments)

/-- What `pack_vectored` builds its record of. -/
def packing (stream : Option StreamId) (fragments : Fragments) (fin : Bool) : WriterM ν (Produced × Fragments) := do
  let (consumed, verdict, fragments) ←
    packLoop stream fin (fragments.remaining + 1) fragments 0
  let bytes ← RecordWriter.finish
  pure (⟨consumed, bytes, verdict⟩, fragments)

theorem packVectored_eq (stream : Option StreamId) (fragments : Fragments) (fin : Bool) (room : ℕ) :
    packVectored (ν := ν) stream fragments fin room = Conn.record room (packing stream fragments fin) := rfl

/-- One payload is the vectored case with one fragment. -/
def pack (request : VectoredWriteRequest) (room : ℕ) :
    Program CoreErrorKind (Conn ν) (Produced × Fragments) :=
  packVectored request.stream (Fragments.new request.data) request.fin room

end Packing

/-! ## The outbound buffer and the read-ahead count -/

/-- The outbound vector: its length, its bytes up to the fill cursor and how many of these were
written. What is past the fill cursor is scratch space that no reader sees. -/
structure OutboundBuffer where
  len : ℕ := 0
  bytes : Bytes := []
  written : ℕ := 0
  accepted : Bytes := []
  records : List Bytes := []
  deriving DecidableEq, Repr

namespace OutboundBuffer

def filled (o : OutboundBuffer) : ℕ := o.bytes.length

/-- `outbound[written..filled]`. -/
def unsent (o : OutboundBuffer) : Bytes := o.bytes.drop o.written

def roomForRecord (o : OutboundBuffer) : Bool := decide (o.filled + maxRecord ≤ outboundCeiling)

def roomFor (o : OutboundBuffer) (remaining : ℕ) (continuing : Bool) : Option ℕ :=
  let space := outboundCeiling - o.filled
  if maxRecord ≤ space then some maxRecord
  else if continuing && decide (remaining < space) then some space
  else none

def makeRoom (o : OutboundBuffer) (room : ℕ) : OutboundBuffer :=
  let needed := o.filled + room
  if o.len < needed then { o with len := needed } else o

/-- A finished record takes its place behind the fill cursor. -/
def commit (o : OutboundBuffer) (record : Bytes) : OutboundBuffer :=
  { o with
    bytes := o.bytes ++ record
    records := if record = [] then o.records else o.records ++ [record] }

/-- The byte stream took `taken` bytes of what it was offered. -/
def advance (o : OutboundBuffer) (taken : ℕ) : OutboundBuffer :=
  { o with
    written := min o.filled (o.written + taken)
    accepted := o.accepted ++ o.unsent.take taken }

def reset (o : OutboundBuffer) : OutboundBuffer := { o with bytes := [], written := 0 }

end OutboundBuffer

def saturatingAdd (a b : ℕ) : ℕ := min (a + b) (2 ^ 64 - 1)

structure ReadAhead where
  allowance : ℕ
  delivered : ℕ := 0
  credited : ℕ := 0
  deriving DecidableEq, Repr

namespace ReadAhead

def deliver (r : ReadAhead) (bytes : ℕ) : ReadAhead :=
  { r with delivered := saturatingAdd r.delivered bytes }

def credit (r : ReadAhead) (bytes : ℕ) : ReadAhead :=
  { r with credited := saturatingAdd r.credited bytes }

def outstanding (r : ReadAhead) : ℕ := r.delivered - r.credited

def isExhausted (r : ReadAhead) : Bool := decide (r.allowance ≤ r.outstanding)

end ReadAhead

/-! ## The connection -/

/-- A slice handed to the record writer: where it begins, how long it is, and the buffer it
was cut from. -/
structure Handed where
  buffer : OutboundBuffer
  start : ℕ
  room : ℕ
  deriving DecidableEq, Repr

structure Connection (β ν : Type) where
  stream : β
  conn : Conn ν
  framer : RecordFramer
  out : OutboundBuffer
  producePending : Bool
  readAhead : ReadAhead
  closing : Option Closing
  terminal : Option Error
  history : List OutboundBuffer := []
  handed : List Handed := []
  shutdowns : List (OutboundBuffer × Poll (Except Unit Unit)) := []
  delivered : List Event := []

abbrev ConnectionM (β ν : Type) (α : Type) := Program Error (Connection β ν) α

variable {β ν : Type}

namespace Connection

/-- A connection over a native one that was built with the configured parameters. -/
def new (stream : β) (raw : ν) (role : Role) (readAhead : ℕ) : Connection β ν where
  stream
  conn := { raw, role }
  framer := .new
  out := {}
  producePending := true
  readAhead := { allowance := readAhead }
  closing := none
  terminal := none

/-- Replaces the outbound buffer, whose earlier value is kept. -/
def setOut (c : Connection β ν) (out : OutboundBuffer) : Connection β ν :=
  { c with out, history := c.history ++ [c.out] }

/-- The first ending is the one that stays. -/
def latch (c : Connection β ν) (error : Error) : Connection β ν :=
  if c.terminal.isNone then { c with terminal := some error } else c

/-- The first event of the queue is handed to the caller. -/
def deliver (c : Connection β ν) (event : Event) (rest : List Event) : Connection β ν :=
  { c with
    conn := { c.conn with events := rest }
    delivered := c.delivered ++ [event]
    readAhead := match event with
      | .streamData _ _ data _ => c.readAhead.deliver data.length
      | _ => c.readAhead }

theorem latch_eq (c : Connection β ν) (error : Error) :
    c.latch error = { c with terminal := some (c.terminal.getD error) } := by
  obtain ⟨_, _, _, _, _, _, _, terminal⟩ := c
  cases terminal <;> rfl

def signal (c : Connection β ν) (f : Signals → Signals) : Connection β ν :=
  { c with conn := { c.conn with signals := f c.conn.signals } }

end Connection

open Connection

def failWith {α : Type} (error : Error) : ConnectionM β ν α := do
  modify (·.latch error)
  fail error

theorem failWith_apply {α : Type} (error : Error) (c : Connection β ν) :
    (failWith error : ConnectionM β ν α) c = .error (.failed error) (c.latch error) := rfl

def failStream {α : Type} (context : String) : ConnectionM β ν α :=
  failWith { kind := .byteStream, context }

/-- The check that opens most entry points. -/
def checkTerminal : ConnectionM β ν Unit := do
  match (← get).terminal with
  | some error => fail error
  | none => pure ()

theorem checkTerminal_open {c : Connection β ν} (h : c.terminal = none) :
    checkTerminal c = .ok () c := by
  rw [checkTerminal, bind_ok get_apply, h]
  rfl

theorem checkTerminal_ended {c : Connection β ν} {error : Error} (h : c.terminal = some error) :
    checkTerminal c = .error (.failed error) c := by
  rw [checkTerminal, bind_ok get_apply, h]
  rfl

/-- A call into the state machine whose failure is returned and not latched. -/
def native {α : Type} (call : Conn ν → Except CoreErrorKind α × Conn ν) : ConnectionM β ν α := do
  let c ← get
  let (answer, conn) := call c.conn
  set { c with conn }
  match answer with
  | .ok a => pure a
  | .error kind => fail (.ofCore kind)

def takeEvent : ConnectionM β ν (Option Event) := do
  let c ← get
  match c.conn.events with
  | [] => pure none
  | event :: rest =>
    set (c.deliver event rest)
    pure (some event)

/-- What a failed production is reported as. -/
def serialiseError (kind : CoreErrorKind) : Error :=
  (Error.ofCore kind).withContext
    "serialising a record failed, which loses whatever it had already packed"

/-- Serialises one record into the outbound buffer. -/
def serialise (room : ℕ) (build : ℕ → Program CoreErrorKind (Conn ν) (Produced × Fragments)) :
    ConnectionM β ν (Produced × Fragments) := do
  let room := min room maxRecord
  modify fun c => c.setOut (c.out.makeRoom room)
  modify fun c => { c with handed := c.handed ++ [⟨c.out, c.out.filled, room⟩] }
  match ← attempt (within conn (fun c conn => { c with conn }) (build room)) with
  | .ok (produced, fragments) =>
    modify fun c => c.setOut (c.out.commit produced.bytes)
    pure (produced, fragments)
  | .error kind => failWith (serialiseError kind)

/-- The buffer has its room and the slice is handed over. -/
def Connection.hand (c : Connection β ν) (room : ℕ) : Connection β ν :=
  { c.setOut (c.out.makeRoom room) with
    handed := c.handed ++ [⟨c.out.makeRoom room, (c.out.makeRoom room).filled, room⟩] }

theorem OutboundBuffer.makeRoom_eq (o : OutboundBuffer) (room : ℕ) :
    o.makeRoom room = { o with len := max o.len (o.filled + room) } := by
  unfold makeRoom
  dsimp only
  split
  · rw [Nat.max_eq_right (by omega)]
  · rw [Nat.max_eq_left (by omega)]

theorem serialise_apply (room : ℕ)
    (build : ℕ → Program CoreErrorKind (Conn ν) (Produced × Fragments)) (c : Connection β ν) :
    serialise room build c = match build (min room maxRecord) c.conn with
      | .ok r conn =>
        let c := { c.hand (min room maxRecord) with conn }
        .ok r (c.setOut (c.out.commit r.1.bytes))
      | .error (.failed kind) conn =>
        .error (.failed (serialiseError kind))
          ({ c.hand (min room maxRecord) with conn }.latch (serialiseError kind))
      | .error .outOfFuel conn => .error .outOfFuel { c.hand (min room maxRecord) with conn } := by
  rw [serialise, bind_ok modify_apply, bind_ok modify_apply, bind_apply, attempt, within]
  dsimp only [setOut]
  cases build (min room maxRecord) c.conn with
  | ok r conn => rfl
  | error e conn => cases e <;> rfl

def appendRecord (bytes : Bytes) : ConnectionM β ν Unit := do
  modify fun c => c.setOut (c.out.makeRoom bytes.length)
  modify fun c => c.setOut (c.out.commit bytes)

section Streams
variable [AsyncByteStream β]

/-- The loop of `flush`. A turn that goes on wrote a byte. -/
def flushLoop (cx : Waker) : ℕ → ConnectionM β ν Bool
  | 0 => outOfFuel
  | fuel + 1 => do
    let c ← get
    if c.out.written < c.out.filled then
      let (answer, stream) := AsyncByteStream.pollWrite cx c.out.unsent c.stream
      set { c with stream }
      match answer with
      | .pending | .ready (.ok .notNow) => pure false
      | .ready (.error ()) => failStream "the byte stream failed while writing"
      | .ready (.ok (.accepted taken)) =>
        if taken = 0 then
          modify (·.signal (·.wake cx))
          pure false
        else
          modify fun c => c.setOut (c.out.advance taken)
          flushLoop cx fuel
    else
      modify fun c => c.setOut c.out.reset
      pure true

def flush (cx : Waker) : ConnectionM β ν Bool := do
  let c ← get
  flushLoop cx (c.out.filled - c.out.written + 1)

/-- `!self.room_for_record() && !self.flush(cx)?`, negated. -/
def ensureRoom (cx : Waker) : ConnectionM β ν Bool := do
  if (← get).out.roomForRecord then pure true else flush cx

def pollShutdown (cx : Waker) : ConnectionM β ν (Poll Unit) := do
  let c ← get
  let (answer, stream) := AsyncByteStream.pollShutdown cx c.stream
  set { c with stream, shutdowns := c.shutdowns ++ [(c.out, answer)] }
  match answer with
  | .pending => pure .pending
  | .ready (.ok ()) =>
    modify fun c => { c with closing := some .complete }
    pure (.ready ())
  | .ready (.error ()) => failStream "the byte stream failed while shutting down"

variable [Dwnx ν]

def produce (request : VectoredWriteRequest) : ConnectionM β ν (Produced × Fragments) :=
  serialise maxRecord (pack request)

/-- The production loop of `write_side`: whether it came to its end, rather than stopping at a
full buffer that the byte stream would not take. -/
def produceLoop (cx : Waker) : ℕ → ConnectionM β ν Bool
  | 0 => outOfFuel
  | fuel + 1 => do
    if ← ensureRoom cx then
      let c ← get
      if !c.producePending || c.closing.isSome then pure true
      else
        let (produced, _) ← produce controlOnly
        if produced.bytes = [] ∨ produced.verdict ≠ .packed then
          modify fun c => { c with producePending := false }
          pure true
        else produceLoop cx fuel
    else pure false

def writeSide (fuel : ℕ) (cx : Waker) (mode : Flush) : ConnectionM β ν Unit := do
  if ← produceLoop cx fuel then
    if mode = .everything then
      let _ ← flush cx

def drainPending (fuel : ℕ) (cx : Waker) : ConnectionM β ν Bool := do
  writeSide fuel cx .everything
  let c ← get
  pure (decide (c.out.filled ≤ c.out.written))

def ended {α : Type} : ConnectionM β ν α := do
  let c ← get
  match c.framer.closeReason with
  | some close =>
    failWith { kind := .peerClosed, context := "the peer closed the connection", close := some close }
  | none =>
    if c.framer.atBoundary then
      failWith { kind := .endOfStream, context := "the byte stream ended between records" }
    else
      failWith { kind := .truncatedRecord, context := "the byte stream ended partway through a record" }

def peerClosed {α : Type} : ConnectionM β ν α := do
  let c ← get
  failWith { kind := .peerClosed, context := "the peer closed the connection",
             close := c.framer.closeReason }

/-- The bytes of one read: the framer first, and then the state machine. -/
def processInbound (bytes : Bytes) : ConnectionM β ν Bool := do
  let c ← get
  let (framed, framer) := c.framer.consume bytes
  set { c with framer }
  match framed with
  | .error error => failWith error
  | .ok () =>
    let c ← get
    let creditBefore := c.conn.maxDataLeft
    let (outcome, conn) := c.conn.read bytes
    let creditAfter := conn.maxDataLeft
    set { c with
      conn := if creditBefore < creditAfter then
          { conn with signals := conn.signals.wakeCredit }.pushEvent (.connectionDataCredit creditAfter)
        else conn
      producePending := true }
    match outcome with
    | .ok .processed => pure true
    | .ok .peerClosed => peerClosed
    | .error kind => failWith (.ofCore kind)

def readOnce (cx : Waker) : ConnectionM β ν Bool := do
  let c ← get
  if c.readAhead.isExhausted then
    modify (·.signal (·.parkReadAhead cx))
    pure false
  else
    let (answer, stream) := AsyncByteStream.pollRead cx readBuffer c.stream
    set { c with stream }
    match answer with
    | .pending => pure false
    | .ready (.error ()) => failStream "the byte stream failed while reading"
    | .ready (.ok bytes) =>
      if bytes = [] then ended
      else processInbound (bytes.take readBuffer)

def readSide (cx : Waker) : ℕ → ConnectionM β ν Unit
  | 0 => outOfFuel
  | fuel + 1 => do
    if ← readOnce cx then readSide cx fuel

/-- What a pump does behind its read. -/
def respond (fuel : ℕ) (cx : Waker) (mode : Flush) : ConnectionM β ν Unit := do
  if (← get).producePending then writeSide fuel cx mode

def pump (fuel : ℕ) (cx : Waker) (mode : Flush) : ConnectionM β ν Unit := do
  checkTerminal
  writeSide fuel cx mode
  readSide cx fuel
  respond fuel cx mode

def pumpBounded (fuel : ℕ) (cx : Waker) (mode : Flush) : ConnectionM β ν Bool := do
  checkTerminal
  writeSide fuel cx mode
  let read ← readOnce cx
  respond fuel cx mode
  pure read

/-! ## Entry points -/

def pollPump (fuel : ℕ) (cx : Waker) : ConnectionM β ν (Poll Unit) := do
  checkTerminal
  writeSide fuel cx .everything
  if (← get).out.filled = 0 then pure (.ready ()) else pure .pending

def pollPumpBuffered (fuel : ℕ) (cx : Waker) : ConnectionM β ν (Poll Unit) := do
  if ← pumpBounded fuel cx .whenFull then
    modify (·.signal (·.wake cx))
  if (← get).out.roomForRecord then pure (.ready ()) else pure .pending

/-- The part of `poll_next_event` behind its pump. The pump may have ended the connection, and
what was decoded before that is still handed out. -/
def eventBehindPump (cx : Waker) (pumped : Except Error Bool) : ConnectionM β ν (Poll Event) := do
  match ← takeEvent with
  | some event => pure (.ready event)
  | none =>
    match pumped with
    | .ok true =>
      modify (·.signal (·.wake cx))
      pure .pending
    | .ok false => pure .pending
    | .error error => fail error

def pollNextEvent (fuel : ℕ) (cx : Waker) : ConnectionM β ν (Poll Event) := do
  match ← takeEvent with
  | some event => pure (.ready event)
  | none => eventBehindPump cx (← attempt (pumpBounded fuel cx .whenFull))

def tryOpen (kind : Directionality) : ConnectionM β ν StreamOpen := do
  checkTerminal
  match ← native (Conn.openStream kind) with
  | .opened stream =>
    modify fun c => { c with producePending := true }
    pure (.opened stream)
  | .blocked => pure .blocked

def writeRecord (cx : Waker) (stream : StreamId) (data : Bytes) (fin : Bool) :
    ConnectionM β ν (Option Produced) := do
  if ← ensureRoom cx then
    let (produced, _) ← produce ⟨some stream, [data], fin⟩
    pure (some produced)
  else pure none

def parkWrite (cx : Waker) (written : ℕ) : ConnectionM β ν (Poll ℕ) := do
  if 0 < written then pure (.ready written)
  else
    modify (·.signal (·.parkCredit cx))
    pure .pending

/-- The loop of `write_stream_records`. A turn that goes on took a byte of the payload. -/
def writeStreamRecords (cx : Waker) (stream : StreamId) (data : Bytes) (fin : Bool) :
    ℕ → ℕ → ConnectionM β ν (Poll ℕ)
  | 0, _ => outOfFuel
  | fuel + 1, written => do
    match ← writeRecord cx stream (data.drop written) fin with
    | none => pure (if 0 < written then .ready written else .pending)
    | some produced =>
      let written := written + produced.consumed
      match produced.verdict with
      | .closed =>
        if written = 0 then
          fail { kind := .internal, context := "the stream's write side is closed" }
        else pure (.ready written)
      | .blocked => parkWrite cx written
      | .packed =>
        if written = data.length then pure (.ready written)
        else if produced.consumed = 0 then parkWrite cx written
        else writeStreamRecords cx stream data fin fuel written

def pollWriteStream (fuel : ℕ) (cx : Waker) (stream : StreamId) (data : Bytes) (fin : Bool) :
    ConnectionM β ν (Poll ℕ) := do
  pump fuel cx .whenFull
  let outcome ← writeStreamRecords cx stream data fin (data.length + 1) 0
  let _ ← flush cx
  pure outcome

def acceptedOr (taken : ℕ) (refusal : StreamWrite) : StreamWrite :=
  if 0 < taken then .accepted taken else refusal

/-- The loop of `try_write_stream_vectored`. A turn that goes on took a byte of the offer. -/
def tryWriteLoop (stream : StreamId) (fin : Bool) (offered : ℕ) :
    ℕ → Fragments → ℕ → ConnectionM β ν StreamWrite
  | 0, _, _ => outOfFuel
  | fuel + 1, fragments, taken => do
    match (← get).out.roomFor (offered - taken) (decide (0 < taken)) with
    | none => pure (acceptedOr taken .blocked)
    | some room =>
      let (produced, fragments) ← serialise room (packVectored (some stream) fragments fin)
      let taken := taken + produced.consumed
      match produced.verdict with
      | .closed => pure (acceptedOr taken .closed)
      | .blocked => pure (acceptedOr taken .blocked)
      | .packed =>
        if taken = offered then pure (.accepted taken)
        else if produced.consumed = 0 then pure (acceptedOr taken .blocked)
        else tryWriteLoop stream fin offered fuel fragments taken

def tryWriteStreamVectored (stream : StreamId) (slices : List Bytes) (fin : Bool) :
    ConnectionM β ν StreamWrite := do
  checkTerminal
  let fragments := Fragments.new slices
  let offered := fragments.remaining
  tryWriteLoop stream fin offered (offered + 1) fragments 0

def tryWriteStream (stream : StreamId) (data : Bytes) (fin : Bool) : ConnectionM β ν StreamWrite :=
  tryWriteStreamVectored stream [data] fin

def shutdownStream (stream : StreamId) (half : Shutdown) (appErrorCode : ℕ) :
    ConnectionM β ν Unit := do
  checkTerminal
  native (Conn.shutdownStream stream half appErrorCode)
  modify fun c => { c with producePending := true }

def extendStreamCredit (stream : StreamId) (bytes : ℕ) : ConnectionM β ν Unit := do
  checkTerminal
  native (Conn.extendMaxStreamData stream bytes)
  modify fun c => { c with producePending := true }

def extendConnectionCredit (bytes : ℕ) : ConnectionM β ν Unit := do
  checkTerminal
  modify fun c => { c with
    conn := (c.conn.extendMaxData bytes).2
    readAhead := c.readAhead.credit bytes }
  if !(← get).readAhead.isExhausted then
    modify (·.signal (·.wakeReadAhead))
  modify fun c => { c with producePending := true }

def extendStreamLimit (kind : Directionality) (count : ℕ) : ConnectionM β ν Unit := do
  checkTerminal
  modify fun c => { c with
    conn := (c.conn.extendMaxStreams kind count).2
    producePending := true }

def closedLocally (reason : CloseReason) : Error :=
  { kind := .locallyClosed, context := "the connection was closed locally", close := some reason }

/-- The close record joins the queue and its ending is latched. -/
def queueClose (reason : CloseReason) : ConnectionM β ν Unit := do
  appendRecord (encodeCloseRecord reason)
  modify fun c => { c with closing := some .queued }
  modify (·.latch (closedLocally reason))

/-- The part of `poll_close` behind the queueing. -/
def completeClose (cx : Waker) : ConnectionM β ν (Poll Unit) := do
  if (← get).closing = some .queued then
    if ← flush cx then
      modify fun c => { c with closing := some .written }
      pollShutdown cx
    else pure .pending
  else pollShutdown cx

def pollClose (fuel : ℕ) (cx : Waker) (reason : CloseReason) : ConnectionM β ν (Poll Unit) := do
  let c ← get
  if c.closing = some .complete then pure (.ready ())
  else if c.closing = none then
    if ← drainPending fuel cx then
      queueClose reason
      completeClose cx
    else pure .pending
  else completeClose cx

def pollFinish (fuel : ℕ) (cx : Waker) : ConnectionM β ν (Poll Unit) := do
  if (← get).closing = some .complete then pure (.ready ())
  else if ← drainPending fuel cx then pollShutdown cx
  else pure .pending

/-! ## Runs -/

/-- A public operation, with its arguments and the task that polls. -/
inductive Op
  | pollPump (cx : Waker)
  | pollPumpBuffered (cx : Waker)
  | tryNextEvent
  | pollNextEvent (cx : Waker)
  | tryOpen (kind : Directionality)
  | pollWriteStream (cx : Waker) (stream : StreamId) (data : Bytes) (fin : Bool)
  | tryWriteStreamVectored (stream : StreamId) (slices : List Bytes) (fin : Bool)
  | shutdownStream (stream : StreamId) (half : Shutdown) (appErrorCode : ℕ)
  | extendStreamCredit (stream : StreamId) (bytes : ℕ)
  | extendConnectionCredit (bytes : ℕ)
  | extendStreamLimit (kind : Directionality) (count : ℕ)
  | pollClose (cx : Waker) (reason : CloseReason)
  | pollFinish (cx : Waker)

/-- What an operation returned. -/
inductive Outcome
  | polled (poll : Poll Unit)
  | event (event : Option Event)
  | polledEvent (poll : Poll Event)
  | opened (result : StreamOpen)
  | polledWrite (poll : Poll ℕ)
  | wrote (result : StreamWrite)
  | done
  deriving DecidableEq, Repr

def Op.program (fuel : ℕ) : Op → ConnectionM β ν Outcome
  | .pollPump cx => .polled <$> QmuxConnection.pollPump fuel cx
  | .pollPumpBuffered cx => .polled <$> QmuxConnection.pollPumpBuffered fuel cx
  | .tryNextEvent => .event <$> takeEvent
  | .pollNextEvent cx => .polledEvent <$> QmuxConnection.pollNextEvent fuel cx
  | .tryOpen kind => .opened <$> QmuxConnection.tryOpen kind
  | .pollWriteStream cx stream data fin =>
    .polledWrite <$> QmuxConnection.pollWriteStream fuel cx stream data fin
  | .tryWriteStreamVectored stream slices fin =>
    .wrote <$> QmuxConnection.tryWriteStreamVectored stream slices fin
  | .shutdownStream stream half appErrorCode =>
    (fun _ => .done) <$> QmuxConnection.shutdownStream stream half appErrorCode
  | .extendStreamCredit stream bytes =>
    (fun _ => .done) <$> QmuxConnection.extendStreamCredit stream bytes
  | .extendConnectionCredit bytes =>
    (fun _ => .done) <$> QmuxConnection.extendConnectionCredit bytes
  | .extendStreamLimit kind count =>
    (fun _ => .done) <$> QmuxConnection.extendStreamLimit kind count
  | .pollClose cx reason => .polled <$> QmuxConnection.pollClose fuel cx reason
  | .pollFinish cx => .polled <$> QmuxConnection.pollFinish fuel cx

/-- One operation of a run. -/
def Op.step (fuel : ℕ) (op : Op) (c : Connection β ν) :
    Except (Halt Error) Outcome × Connection β ν :=
  outcome (op.program fuel) c

end Streams

/-! ## Scripted environments

A native library and a byte stream that answer from a list, for runs on concrete inputs. -/

structure ScriptedDwnx where
  writevs : List WritevAnswer := []
  reads : List (Reply (Except CoreErrorKind ReadOutcome)) := []
  opens : List OpenOutcome := []

/-- An answer from the script, cut down to the data and the room of the call. -/
def cutTo (answer : WritevAnswer) (call : Writev) : WritevAnswer where
  result := match answer.result with
    | .record bytes => .record (bytes.take call.room)
    | result => result
  pdatalen := answer.pdatalen.map (min call.data.flatten.length)

instance : Dwnx ScriptedDwnx where
  writev call s := match s.writevs with
    | [] => (⟨⟨.record [], none⟩, []⟩, s)
    | answer :: rest => (⟨cutTo answer call, []⟩, { s with writevs := rest })
  read _ s := match s.reads with
    | [] => (⟨.ok .processed, []⟩, s)
    | reply :: rest => (reply, { s with reads := rest })
  openStream _ s := match s.opens with
    | [] => (⟨.ok .blocked, []⟩, s)
    | answer :: rest => (⟨.ok answer, []⟩, { s with opens := rest })
  shutdownStream _ _ _ s := (⟨.ok (), []⟩, s)
  extendMaxStreamOffset _ _ s := (⟨.ok (), []⟩, s)
  extendMaxOffset _ s := (⟨(), []⟩, s)
  extendMaxStreams _ _ s := (⟨(), []⟩, s)
  maxDataLeft _ := 0

instance : LawfulDwnx ScriptedDwnx where
  takes_le call s taken h := by
    obtain ⟨writevs, reads, opens⟩ := s
    cases writevs with
    | nil => simp [Dwnx.writev, WritevAnswer.taken] at h
    | cons answer rest =>
      obtain ⟨result, pdatalen⟩ := answer
      cases result <;> cases pdatalen <;>
        simp [Dwnx.writev, WritevAnswer.taken, cutTo] at h <;> simp <;> omega
  record_le call s record h := by
    obtain ⟨writevs, reads, opens⟩ := s
    cases writevs with
    | nil =>
      obtain rfl : [] = record := by simpa [Dwnx.writev] using h
      simp
    | cons answer rest =>
      obtain ⟨result, pdatalen⟩ := answer
      cases result <;> simp [Dwnx.writev, cutTo] at h
      rw [← h]
      simp

structure ScriptedStream where
  reads : List (Poll (Except Unit Bytes)) := []
  writes : List (Poll (Except Unit Written)) := []
  shutdowns : List (Poll (Except Unit Unit)) := []

instance : AsyncByteStream ScriptedStream where
  pollRead _ _ s := (s.reads.headD .pending, { s with reads := s.reads.tail })
  pollWrite _ _ s := (s.writes.headD .pending, { s with writes := s.writes.tail })
  pollShutdown _ s := (s.shutdowns.headD .pending, { s with shutdowns := s.shutdowns.tail })

end Ngnet.QmuxConnection
