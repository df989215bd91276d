import Ngnet.QuicHyperiumCore

/-!
# The handles over a shared native connection

`stream.rs` and `connection.rs` of `h3-ngnet-quic`. A call of a handle is a sequence of sections, each of which takes
the lock of the core by itself, and of deliveries, each of which takes the lock of the registry. A section that drives
the connection is the pump, what its caller does, and the second arming of the timer.

A section leaves what it has to deliver in the `World`, and deliveries are taken in any order. A handle is constructed
behind the section that found its stream: a bidirectional one retains the stream twice before anyone has it. Beside its
state the world carries what the polls that receive have answered.
-/

namespace Ngnet.QuicHyperium
open QmuxVarints QmuxStreams
open QuicEndpoint (Transport ConnectionShared ConnCall Observed Note outboundDataQueue datagramQueue)
open QmuxConnection (Poll)
open QmuxRecordWriter (Waker)
open HyperiumCore (Buf)

/-! ## What the handles share -/

structure Shared (κ : Type) where
  core : Core κ
  wakers : WakerSet := {}

variable {κ : Type}

/-- What is left to do behind a section. -/
inductive Delivery
  | changed (changed : Changed)
  | all
  | forget (stream : StreamId)

/-- What a delivery leaves in the registry. -/
def Delivery.apply (set : WakerSet) : Delivery → WakerSet
  | .changed pass =>
    { connection := if pass.connection then [] else set.connection
      streams := fun stream => if pass.streams stream then [] else set.streams stream }
  | .all => {}
  | .forget stream => set.forgetStream stream

namespace Shared

def withCore (s : Shared κ) (core : Core κ) : Shared κ := { s with core }

def parkOnStream (s : Shared κ) (stream : StreamId) (waker : Waker) : Shared κ :=
  { s with wakers := s.wakers.registerStream stream waker }

def parkOnConnection (s : Shared κ) (waker : Waker) : Shared κ :=
  { s with wakers := s.wakers.registerConnection waker }

/-- One pass, what the caller does, and the timer. -/
def pump {α : Type} [Transport κ] (s : Shared κ) (act : Shared κ → α × Shared κ) : α × Changed × Shared κ :=
  let (changed, core) := s.core.pump
  let (value, s) := act (s.withCore core)
  let (due, core) := s.core.rearm
  (value, if due then changed.wakeEverything core.streams else changed, s.withCore core)

end Shared

def internal (message : String) : StreamErrorIncoming := (ConnectionTerminal.internal message).streamError

/-- The error where the sending half is shut already. -/
def gone : StreamErrorIncoming := .terminated abandoned

def StreamState.record (s : StreamState) (event : SendEvent) : StreamState := { s with history := s.history ++ [event] }

/-- The error of an operation that has failed the connection. -/
def Core.failure (c : Core κ) : StreamErrorIncoming :=
  (c.terminal.getD (.internal "the transport failed")).streamError

/-! ## Sending -/

inductive Step
  | done
  | progress
  | pending
  | error (error : StreamErrorIncoming)
  deriving DecidableEq, Repr

def emptyChunk : ConnectionTerminal := .internal "a hyperium WriteBuf returned an empty chunk with bytes remaining"

section Sections
variable [Driven κ]

/-- One offer of what is retained, which was taken out for it. -/
def offerRetained (stream : StreamId) (data : Buf) (waker : Waker) (s : Shared κ) : Step × Shared κ :=
  let (offered, core) := s.core.offer stream data.chunk false
  let core := core.modifyState stream (·.record (.offered data.chunk false offered))
  let keep (data : Buf) : Shared κ := s.withCore (core.modifyState stream fun s => { s with writing := some data })
  match offered with
  | .accepted accepted =>
    let data := data.advance accepted
    if data.remaining = 0 then (.done, s.withCore core)
    else (if accepted = 0 then .pending else .progress, keep data)
  | .displaced => (.progress, keep data)
  | .blocked | .noCapacity => (.pending, (keep data).parkOnStream stream waker)
  | .streamGone => (.error gone, s.withCore (core.modifyState stream fun s => { s with writing := none }))
  | .failed => (.error core.failure, s.withCore core)

/-- What `poll_retained` does in one section. -/
def retainedTurn (stream : StreamId) (waker : Waker) (s : Shared κ) : Step × Shared κ :=
  match s.core.terminal with
  | some terminal => (.error terminal.streamError, s)
  | none =>
    match (s.core.state stream).sendTerminal with
    | some terminal => (.error terminal.streamError, s.withCore (s.core.modifyState stream id))
    | none =>
      let taken := s.withCore (s.core.modifyState stream fun s => { s with writing := none })
      match (s.core.state stream).writing with
      | none => (.done, taken)
      | some data =>
        if data.remaining = 0 then (.done, taken)
        else if data.chunk = [] then (.error emptyChunk.streamError, taken.withCore (taken.core.fail emptyChunk))
        else offerRetained stream data waker taken

/-- What `poll_finish` does in one section behind `poll_retained`. -/
def finishTurn (stream : StreamId) (waker : Waker) (s : Shared κ) : Step × Shared κ :=
  match s.core.terminal with
  | some terminal => (.error terminal.streamError, s)
  | none =>
    let touched := s.core.modifyState stream id
    if (s.core.state stream).sendFinished then (.done, s.withCore touched)
    else
      match (s.core.state stream).sendTerminal with
      | some terminal => (.error terminal.streamError, s.withCore touched)
      | none =>
        let (offered, core) := touched.offer stream [] true
        let core := core.modifyState stream (·.record (.offered [] true offered))
        let finish : Shared κ := s.withCore (core.modifyState stream fun s => { s with sendFinished := true })
        match offered with
        | .accepted _ | .streamGone => (.done, finish)
        | .displaced => (.progress, s.withCore core)
        | .blocked | .noCapacity => (.pending, (s.withCore core).parkOnStream stream waker)
        | .failed => (.error core.failure, s.withCore core)

inductive Passed
  | accepted (bytes : ℕ)
  | displaced
  | pending
  | error (error : StreamErrorIncoming)
  deriving DecidableEq, Repr

/-- What `poll_send` does in one section. -/
def sendTurn (stream : StreamId) (chunk : Bytes) (waker : Waker) (s : Shared κ) : Passed × Shared κ :=
  match s.core.terminal with
  | some terminal => (.error terminal.streamError, s)
  | none =>
    let touched := s.core.modifyState stream id
    if (s.core.state stream).writing.isSome then
      (.error (internal "an unframed send was attempted while framed data is retained"), s.withCore touched)
    else
      match (s.core.state stream).sendTerminal with
      | some terminal => (.error terminal.streamError, s.withCore touched)
      | none =>
        if chunk = [] then (.accepted 0, s.withCore touched)
        else
          let (offered, core) := touched.offer stream chunk false
          let core := core.modifyState stream (·.record (.passed chunk offered))
          match offered with
          | .accepted accepted => (.accepted accepted, s.withCore core)
          | .displaced => (.displaced, s.withCore core)
          | .blocked | .noCapacity => (.pending, (s.withCore core).parkOnStream stream waker)
          | .streamGone => (.error gone, s.withCore core)
          | .failed => (.error core.failure, s.withCore core)

/-- `send_data`, which does not drive the connection. -/
def sendData (stream : StreamId) (data : Buf) (c : Core κ) : Except StreamErrorIncoming Unit × Core κ :=
  match c.terminal with
  | some terminal => (.error terminal.streamError, c)
  | none =>
    let touched := c.modifyState stream id
    match (c.state stream).sendTerminal with
    | some terminal => (.error terminal.streamError, touched)
    | none =>
      if (c.state stream).writing.isSome then
        (.error (internal "send_data was called before the previous logical send became ready"), touched)
      else
        (.ok (), c.modifyState stream fun s => { s with writing := some data }.record (.sent data.pieces.flatten))

/-- What a section that does not pump leaves to be delivered. -/
def whenDue (due : Bool) : List Delivery := if due then [.all] else []

def onlyForget (stream : StreamId) (last : Bool) : List Delivery := if last then [.forget stream] else []

/-- Shuts the sending half down. -/
def abandon (stream : StreamId) (code : ℕ) (c : Core κ) : Core κ :=
  let c := c.modifyState stream fun s => { s with
    sendReset := true
    writing := none
    sendTerminal := some (.abandoned code) }.record (.reset code)
  let (_, notes, conn) := Transport.call (.resetStream stream code) c.conn
  (c.noted notes conn).produce

def resetStream (stream : StreamId) (code : ℕ) (c : Core κ) : List Delivery × Core κ :=
  if c.terminal.isSome then ([], c)
  else if (c.state stream).sendReset || (c.state stream).sendFinished then ([], c.modifyState stream id)
  else
    let (due, c) := (abandon stream code c).rearm
    (whenDue due, c)

def dropSend (stream : StreamId) (c : Core κ) : List Delivery × Core κ :=
  if c.terminal.isSome then
    let (last, c) := c.releaseHandle stream
    (onlyForget stream last, c)
  else if (c.state stream).sendFinished || (c.state stream).sendReset || (c.state stream).sendTerminal.isSome then
    let (last, c) := (c.modifyState stream id).releaseHandle stream
    (onlyForget stream last, c)
  else
    let (due, c) := (abandon stream abandoned c).rearm
    let (last, c) := c.releaseHandle stream
    (whenDue due ++ onlyForget stream last, c)

/-! ## Receiving -/

/-- What `poll_data` does in its section. -/
def dataTurn (stream : StreamId) (waker : Waker) (s : Shared κ) :
    Poll (Except StreamErrorIncoming (Option Bytes)) × Shared κ :=
  let state := s.core.state stream
  let touched := s.core.modifyState stream id
  match state.incoming with
  | chunk :: rest =>
    let c := s.core.modifyState stream fun s => { s with incoming := rest }
    (.ready (.ok (some chunk)), s.withCore (c.extendCredit stream chunk.length))
  | [] =>
    if state.finished then (.ready (.ok none), s.withCore touched)
    else
      match state.recvTerminal with
      | some terminal => (.ready (.error terminal.streamError), s.withCore touched)
      | none =>
        match s.core.terminal with
        | some terminal => (.ready (.error terminal.streamError), s.withCore touched)
        | none => (.pending, (s.withCore touched).parkOnStream stream waker)

def stopSending (stream : StreamId) (code : ℕ) (c : Core κ) : List Delivery × Core κ :=
  if c.terminal.isSome then ([], c)
  else
    let (_, notes, conn) := Transport.call (.stopSending stream code) c.conn
    let (due, c) := (c.noted notes conn).produce.rearm
    (whenDue due, c)

def dropRecv (stream : StreamId) (c : Core κ) : List Delivery × Core κ :=
  let (last, c) := c.releaseHandle stream
  (onlyForget stream last, c)

/-! ## The connection -/

def extendMaxStreams (bidi : Bool) (c : Core κ) : Core κ :=
  { c with conn :=
      if bidi then QuicHttp3Join.Detachable.extendMaxStreamsBidi 1 c.conn
      else QuicHttp3Join.Detachable.extendMaxStreamsUni 1 c.conn }

def popAccept (bidi : Bool) (c : Core κ) : Option StreamId × Core κ :=
  if bidi then (c.acceptBidi.head?, { c with acceptBidi := c.acceptBidi.tail })
  else (c.acceptUni.head?, { c with acceptUni := c.acceptUni.tail })

/-- What `poll_accept` does in its section. -/
def acceptTurn (bidi : Bool) (waker : Waker) (s : Shared κ) : Poll (Except ConnectionErrorIncoming StreamId) × Shared κ :=
  match popAccept bidi s.core with
  | (some stream, c) => (.ready (.ok stream), s.withCore (extendMaxStreams bidi c).produce)
  | (none, _) =>
    match s.core.terminal with
    | some terminal => (.ready (.error terminal.connectionError), s)
    | none => (.pending, s.parkOnConnection waker)

/-- What `poll_open` does in its section. -/
def openTurn (bidi : Bool) (waker : Waker) (s : Shared κ) : Poll (Except StreamErrorIncoming StreamId) × Shared κ :=
  match s.core.terminal with
  | some terminal => (.ready (.error terminal.streamError), s)
  | none =>
    let (opened, notes, conn) := Transport.call (if bidi then .openBidiStream else .openUniStream) s.core.conn
    let c := s.core.noted notes conn
    match opened with
    | .ok stream => (.ready (.ok stream), s.withCore (c.modifyState stream id).produce)
    | .error _ =>
      if Driven.streamsLeft bidi c.conn = 0 then (.pending, (s.withCore c).parkOnConnection waker)
      else
        let terminal := ConnectionTerminal.undefined "the transport refused to open a stream"
        (.ready (.error terminal.streamError), s.withCore (c.fail terminal))

def closeConnection (code : ℕ) (reason : Bytes) (c : Core κ) : List Delivery × Core κ :=
  if c.terminal.isSome then ([], c)
  else
    let ((written, datagram), notes, conn) := Transport.call (.writeConnectionClose code reason c.now) c.conn
    let c := c.noted notes conn
    let c :=
      match written with
      | .ok len =>
        if 0 < len then { c with shared := c.shared.queueCloseOutbound (datagram.take len) } else c
      | .error _ => c
    ([.all], (c.fail (.application code)).release)

end Sections

/-! ## Everything together -/

inductive Half | send | recv
  deriving DecidableEq, Repr

/-- A handle under construction: the halves that have retained the stream, and those that are left. -/
structure Opening where
  stream : StreamId
  made : List Half := []
  left : List Half
  deriving DecidableEq, Repr

/-- What a poll that receives has answered. -/
inductive Told
  | data (stream : StreamId) (answer : Poll (Except StreamErrorIncoming (Option Bytes)))
  | accept (bidi : Bool) (answer : Poll (Except ConnectionErrorIncoming StreamId))

structure World (κ : Type) where
  shared : Shared κ
  deliveries : List Delivery := []
  opening : List Opening := []
  sends : StreamId → ℕ := fun _ => 0
  recvs : StreamId → ℕ := fun _ => 0
  told : List Told := []

inductive Action
  | accept (bidi : Bool) (waker : Waker)
  | openStream (bidi : Bool) (waker : Waker)
  /-- The next step of a construction. -/
  | construct (index : ℕ)
  | close (code : ℕ) (reason : Bytes)
  | dropConnection
  | retained (stream : StreamId) (waker : Waker)
  | finish (stream : StreamId) (waker : Waker)
  | send (stream : StreamId) (chunk : Bytes) (waker : Waker)
  | sendData (stream : StreamId) (data : Buf)
  | reset (stream : StreamId) (code : ℕ)
  | dropSend (stream : StreamId)
  | data (stream : StreamId) (waker : Waker)
  | stopSending (stream : StreamId) (code : ℕ)
  | dropRecv (stream : StreamId)
  | deliver (index : ℕ)
  /-- The sleep wakes everyone. -/
  | timer
  | arrive (datagram : Bytes)
  | takeOutbound
  | advance (nanos : ℕ)

namespace World
variable [Driven κ]

def core (w : World κ) : Core κ := w.shared.core

def withCore (w : World κ) (core : Core κ) : World κ := { w with shared := w.shared.withCore core }

/-- A section that drives the connection. -/
def pump {α : Type} (w : World κ) (act : Shared κ → α × Shared κ) : α × World κ :=
  let (value, changed, shared) := w.shared.pump act
  (value, { w with shared, deliveries := w.deliveries ++ [.changed changed] })

/-- A section that does not. -/
def lock (w : World κ) (act : Core κ → List Delivery × Core κ) : World κ :=
  let (deliveries, core) := act w.core
  { w.withCore core with deliveries := w.deliveries ++ deliveries }

def tell (w : World κ) (told : Told) : World κ := { w with told := w.told ++ [told] }

/-- A handle for this stream is to be constructed. -/
def construct {ε : Type} (w : World κ) (answer : Poll (Except ε StreamId)) (left : List Half) : World κ :=
  match answer with
  | .ready (.ok stream) => { w with opening := w.opening ++ [{ stream, left }] }
  | _ => w

/-- The handle is there. -/
def hand (w : World κ) (stream : StreamId) : Half → World κ
  | .send => { w with sends := Function.update w.sends stream (w.sends stream + 1) }
  | .recv => { w with recvs := Function.update w.recvs stream (w.recvs stream + 1) }

def constructNext (w : World κ) (index : ℕ) : World κ :=
  match w.opening[index]? with
  | none => w
  | some { stream, made, left := [] } =>
    made.foldl (fun w half => w.hand stream half) { w with opening := w.opening.eraseIdx index }
  | some { stream, made, left := half :: left } =>
    { w.withCore (w.core.retainHandle stream) with
      opening := w.opening.set index { stream, made := made ++ [half], left } }

def step (w : World κ) : Action → World κ
  | .accept bidi waker =>
    let (answer, w) := w.pump (acceptTurn bidi waker)
    (w.construct answer (if bidi then [.send, .recv] else [.recv])).tell (.accept bidi answer)
  | .openStream bidi waker =>
    let (answer, w) := w.pump (openTurn bidi waker)
    w.construct answer (if bidi then [.send, .recv] else [.send])
  | .construct index => w.constructNext index
  | .close code reason => w.lock (closeConnection code reason)
  | .dropConnection => w.withCore w.core.release
  | .retained stream waker => if 0 < w.sends stream then (w.pump (retainedTurn stream waker)).2 else w
  | .finish stream waker => if 0 < w.sends stream then (w.pump (finishTurn stream waker)).2 else w
  | .send stream chunk waker => if 0 < w.sends stream then (w.pump (sendTurn stream chunk waker)).2 else w
  | .sendData stream data => if 0 < w.sends stream then w.withCore (QuicHyperium.sendData stream data w.core).2 else w
  | .reset stream code => if 0 < w.sends stream then w.lock (resetStream stream code) else w
  | .dropSend stream =>
    if 0 < w.sends stream then
      { w.lock (QuicHyperium.dropSend stream) with sends := Function.update w.sends stream (w.sends stream - 1) }
    else w
  | .data stream waker =>
    if 0 < w.recvs stream then
      let (answer, w) := w.pump (dataTurn stream waker)
      w.tell (.data stream answer)
    else w
  | .stopSending stream code => if 0 < w.recvs stream then w.lock (QuicHyperium.stopSending stream code) else w
  | .dropRecv stream =>
    if 0 < w.recvs stream then
      { w.lock (QuicHyperium.dropRecv stream) with recvs := Function.update w.recvs stream (w.recvs stream - 1) }
    else w
  | .deliver index =>
    match w.deliveries[index]? with
    | some delivery =>
      { w with
        shared := { w.shared with wakers := delivery.apply w.shared.wakers }
        deliveries := w.deliveries.eraseIdx index }
    | none => w
  | .timer =>
    match w.core.sleeping with
    | some deadline => if deadline ≤ w.core.now then { w with deliveries := w.deliveries ++ [.all] } else w
    | none => w
  | .arrive datagram => w.withCore { w.core with shared := w.core.shared.deliverInbound datagram }
  | .takeOutbound => w.withCore { w.core with shared := w.core.shared.takeOutbound.2 }
  | .advance nanos => w.withCore { w.core with now := w.core.now + nanos }

def reached (w : World κ) (actions : List Action) : World κ := actions.foldl step w

end World

/-- An adapter for a connection that was just handed over, with what was observed on it before. -/
def fromDetached (conn : κ) (initiator : Initiator) (shared : ConnectionShared) (now : ℕ) : World κ :=
  { shared := { core := { conn, initiator, shared, now, heard := shared.observed } } }

/-! ## A connection that follows a plan -/

/-- A script, with what is answered when streams are opened and the credit that is left for them. -/
structure PlannedConnection where
  script : QuicScriptedHost.ScriptedConn
  opens : List (Except QuicEndpoint.CoreError StreamId) := []
  left : ℕ := 0

def PlannedConnection.open (conn : PlannedConnection) : Except QuicEndpoint.CoreError StreamId × PlannedConnection :=
  match conn.opens with
  | answer :: opens => (answer, { conn with opens })
  | [] => (.error ⟨.blocked, false⟩, conn)

def PlannedConnection.answer (conn : PlannedConnection) {α : Type} (op : ConnCall α) : α × List Note × PlannedConnection :=
  let (answer, notes, script) := conn.script.answer op
  (answer, if QuicHttp3Join.hears op then notes else [], { conn with script })

instance : Transport PlannedConnection where
  call {α} op conn :=
    match α, op with
    | _, .openBidiStream => (conn.open.1, [], conn.open.2)
    | _, .openUniStream => (conn.open.1, [], conn.open.2)
    | _, op => conn.answer op
  expiry conn := Transport.expiry conn.script
  inDrainingPeriod conn := Transport.inDrainingPeriod conn.script
  closeError conn := Transport.closeError conn.script
  maxTxUdpPayloadSize conn := Transport.maxTxUdpPayloadSize conn.script
  retainedBytes conn := Transport.retainedBytes conn.script
  scids conn := Transport.scids conn.script
  scid conn := Transport.scid conn.script
  accepts_le conn := Transport.accepts_le conn.script

instance : Driven PlannedConnection where
  extendMaxStreamsBidi _ conn := conn
  extendMaxStreamsUni _ conn := conn
  heard op conn hop event hevent := by
    cases op <;> simp_all [Transport.call, PlannedConnection.answer, QuicHttp3Join.hears]
  streamsLeft _ conn := conn.left

end Ngnet.QuicHyperium
