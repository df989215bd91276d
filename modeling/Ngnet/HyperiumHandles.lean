import Ngnet.HyperiumCore

/-!
# The handles and the driver over a shared core

`stream.rs`, `connection.rs` and `driver.rs` of `h3-ngnet-qmux`. An operation of a handle is a
sequence of critical sections, each of which takes the lock by itself. `Section` lists them;
`Phase` says which section of a call comes next and what its answer leads to, so that the calls
of any number of handles interleave section by section.
-/

namespace Ngnet.HyperiumHandles
open QmuxVarints QmuxCloseCodec QmuxErrors QmuxStreams StatefulPrograms QmuxRecordWriter
open QmuxConnection HyperiumCore Core

def sendProgressBudget : ℕ := 64

def directionError : DirectionTerminal → StreamError
  | .stopped code | .reset code => .terminated code
  | .finished =>
    (ConnectionTerminal.internal "operation attempted after the stream direction finished").streamError

variable {β ν : Type}

def waitingForOutput (c : Core β ν) : Bool := decide (outboundCarry ≤ c.lower.out.filled)

/-- `SendStream::terminal`. -/
def sendTerminal (c : Core β ν) (id : StreamId) : Option StreamError :=
  match c.terminal with
  | some terminal => some terminal.streamError
  | none => (c.streamError id true).map directionError

/-- What one turn of `poll_retained` came to. -/
inductive WriteStep
  | done
  | pending
  | progress
  | error (error : StreamError)
  deriving DecidableEq, Repr

/-- The connection fails, and the operation with it. -/
def failOver {α : Type} (terminal : ConnectionTerminal) (a : α) : CoreM β ν α := do
  modify (·.fail terminal)
  pure a

/-- The bytes that were not taken stay with the stream. -/
def keepWriting (id : StreamId) (data : Buf) : CoreM β ν Unit := do
  match (← get).streams[id]? with
  | none => fail "live stream"
  | some s => modify (·.setStream id { s with writing := some data })

/-- The send side parks on output, or on the peer where `output` is false. -/
def park {α : Type} (id : StreamId) (finish output : Bool) (waker : Waker) (a : α) : CoreM β ν α := do
  modify fun c => c.parkSend id finish (output && waitingForOutput c) waker
  pure a

def emptyChunk : ConnectionTerminal := .internal "Buf returned an empty chunk with bytes remaining"

def overAccepted : ConnectionTerminal := .internal "QMux accepted more bytes than were offered"

section Native
variable [Dwnx ν]

/-! ## Sending -/

/-- One offer of the retained bytes. -/
def offerRetained (id : StreamId) (data : Buf) (waker : Waker) : CoreM β ν WriteStep := do
  let offered := data.chunk.length
  match ← lowerCall (tryWriteStream id data.chunk false) with
  | .ok (.accepted accepted) =>
    if offered < accepted then failOver overAccepted (.error overAccepted.streamError)
    else if accepted = 0 then
      keepWriting id data
      park id false true waker .pending
    else
      let data := data.advance accepted
      modify goOn
      if data.remaining = 0 then pure .done
      else
        keepWriting id data
        if accepted < offered then park id false true waker .pending else pure .progress
  | .ok .blocked =>
    keepWriting id data
    park id false true waker .pending
  | .ok .closed =>
    keepWriting id data
    park id false false waker .pending
  | .error error => failOver (.fromLower error) (.error (ConnectionTerminal.fromLower error).streamError)

/-- One turn of `poll_retained`. -/
def retainedTurn (id : StreamId) (waker : Waker) : CoreM β ν WriteStep := do
  let c ← get
  match sendTerminal c id with
  | some error => pure (.error error)
  | none =>
    match c.streams[id]?.bind (·.writing) with
    | none => pure .done
    | some data =>
      modify (·.updateStream id fun s => ({ s with writing := none }, []))
      if data.remaining = 0 then pure .done
      else if data.chunk = [] then failOver emptyChunk (.error emptyChunk.streamError)
      else offerRetained id data waker

def sendData (id : StreamId) (data : Buf) : CoreM β ν (Except StreamError Unit) := do
  let c ← get
  match sendTerminal c id with
  | some error => pure (.error error)
  | none =>
    match c.streams[id]? with
    | some s =>
      if s.writing.isSome then
        pure (.error (ConnectionTerminal.internal
          "send_data called before the previous logical send became ready").streamError)
      else
        set (c.setStream id { s with writing := some data })
        pure (.ok ())
    | none =>
      pure (.error (ConnectionTerminal.internal
        "send_data called after stream state was retired").streamError)

/-- The first section of `poll_finish`, where it is the last one. -/
def finishCheck (id : StreamId) : CoreM β ν (Option (Except StreamError Unit)) := do
  let c ← get
  match c.terminal with
  | some terminal => pure (some (.error terminal.streamError))
  | none => pure (if c.streamError id true = some .finished then some (.ok ()) else none)

def invalidFin : ConnectionTerminal := .internal "QMux returned an invalid result for an empty FIN"

/-- The last section of `poll_finish`. -/
def finishWrite (id : StreamId) (waker : Waker) : CoreM β ν (Poll (Except StreamError Unit)) := do
  let c ← get
  match c.terminal with
  | some terminal => pure (.ready (.error terminal.streamError))
  | none =>
    match c.streamError id true with
    | some .finished => pure (.ready (.ok ()))
    | some terminal => pure (.ready (.error (directionError terminal)))
    | none =>
      match ← lowerCall (tryWriteStream id [] true) with
      | .ok (.accepted accepted) =>
        if accepted = 0 then
          modify (·.updateStream id fun s => ({ s with sendTerminal := some .finished }, []))
          modify goOn
          pure (.ready (.ok ()))
        else failOver invalidFin (.ready (.error invalidFin.streamError))
      | .ok .blocked => park id true true waker .pending
      | .ok .closed => park id true false waker .pending
      | .error error =>
        failOver (.fromLower error) (.ready (.error (ConnectionTerminal.fromLower error).streamError))

/-- The failure of a shutdown ends the connection. -/
def orFail (result : Except ConnectionTerminal Unit) : CoreM β ν Unit := do
  match result with
  | .ok () => pure ()
  | .error terminal => modify (·.fail terminal)

def stopWriting (c : Core β ν) (id : StreamId) : Core β ν :=
  c.updateStream id fun s => ({ s with writing := none }, [])

def resetStream (id : StreamId) (code : ℕ) : CoreM β ν Unit := do
  modify (stopWriting · id)
  orFail (← resetSend id code)

def dropSend (id : StreamId) : CoreM β ν Unit := do
  modify (stopWriting · id)
  if ((← get).streamError id true).isNone then
    orFail (← resetSend id abandoned)
  modify (·.dropDirection id true)

/-- The last section of `poll_send`. It does not look at the terminal again. -/
def sendWrite (id : StreamId) (chunk : Bytes) (waker : Waker) :
    CoreM β ν (Poll (Except StreamError ℕ)) := do
  match ← lowerCall (tryWriteStream id chunk false) with
  | .ok (.accepted accepted) =>
    if chunk.length < accepted then failOver overAccepted (.ready (.error overAccepted.streamError))
    else if accepted = 0 then park id false true waker .pending
    else
      modify goOn
      pure (.ready (.ok accepted))
  | .ok .blocked => park id false true waker .pending
  | .ok .closed => park id false false waker .pending
  | .error error =>
    failOver (.fromLower error) (.ready (.error (ConnectionTerminal.fromLower error).streamError))

/-! ## Receiving -/

/-- Both windows are extended by what was read. -/
def creditRead (id : StreamId) (bytes : ℕ) : ConnectionM β ν Unit := do
  extendStreamCredit id bytes
  extendConnectionCredit bytes

def pollData (id : StreamId) (waker : Waker) :
    CoreM β ν (Poll (Except StreamError (Option Bytes))) := do
  let c ← get
  match c.terminal with
  | some terminal => pure (.ready (.error terminal.streamError))
  | none =>
    match c.streams[id]?.map (fun s => (s, s.recv)) with
    | some (s, item :: rest) =>
      set (c.setStream id { s with recv := rest })
      match ← lowerCall (creditRead id item.data.length) with
      | .error error =>
        failOver (.fromLower error) (.ready (.error (ConnectionTerminal.fromLower error).streamError))
      | .ok () =>
        if item.fin then
          modify (·.updateStream id fun s => ({ s with recvTerminal := some .finished }, []))
        modify goOn
        pure (.ready (.ok (some item.data)))
    | _ =>
      match c.streamError id false with
      | some .finished | some (.stopped _) => pure (.ready (.ok none))
      | some (.reset code) => pure (.ready (.error (.terminated code)))
      | none =>
        set (c.parkRecv id waker)
        pure .pending

def stopSending (id : StreamId) (code : ℕ) : CoreM β ν Unit := do
  orFail (← discardReceive id code)

def dropRecv (id : StreamId) : CoreM β ν Unit := do
  orFail (← discardReceive id abandoned)
  modify (·.dropDirection id false)

/-! ## The driver -/

variable [AsyncByteStream β]

/-- The driver is done, and this is what it resolves with from now on. -/
def complete (error : AdapterError) : CoreM β ν (Poll (Except AdapterError Unit)) := do
  modify fun c => { c with driverError := some error, driverComplete := true }
  pure (.ready (.error error))

/-- A poll of the driver that carries a close out. -/
def driveClose (fuel : ℕ) (reason : CloseReason) : CoreM β ν (Poll (Except AdapterError Unit)) := do
  match ← lowerCall (pollClose fuel lowerWaker reason) with
  | .ok (.ready ()) =>
    modify fun c => { c with driverComplete := true }
    let c ← get
    if c.closeIsFailure then
      match c.terminal with
      | none => fail "failure close has a terminal"
      | some terminal => complete terminal.driverError
    else pure (.ready (.ok ()))
  | .error error => complete (.undefined error)
  | .ok .pending => pure .pending

/-- The forced pump of a turn that routed nothing. -/
def drivePump (fuel : ℕ) : CoreM β ν (Poll (Except AdapterError Unit)) := do
  let queuedBefore := (← get).lower.out.filled
  let pumped ← lowerCall (pollPump fuel lowerWaker)
  modify fun c => if c.lower.out.filled < queuedBefore then c.wakeOutputSenders else c
  match pumped with
  | .error error =>
    modify (·.fail (.fromLower error))
    complete (ConnectionTerminal.fromLower error).driverError
  | .ok _ => pure .pending

/-- A poll of the driver before any close. -/
def driveEvents (fuel : ℕ) : CoreM β ν (Poll (Except AdapterError Unit)) := do
  driveTurn fuel
  let c ← get
  match c.terminal with
  | some terminal =>
    if c.close.isSome && c.closeIsFailure then
      modify goOn
      pure .pending
    else complete terminal.driverError
  | none => if c.effects.continuation then pure .pending else drivePump fuel

def pollDriver (fuel : ℕ) : CoreM β ν (Poll (Except AdapterError Unit)) := do
  let c ← get
  if c.driverComplete then
    match c.driverError with
    | some error => pure (.ready (.error error))
    | none => pure (.ready (.ok ()))
  else
    match c.close with
    | some reason => driveClose fuel reason
    | none => driveEvents fuel

end Native

/-! ## Critical sections -/

inductive Section
  | route (event : Event)
  | driver
  | accept (kind : AcceptKind) (waker : Waker)
  | openStream (opener : ℕ) (kind : OpenKind) (waker : Waker)
  | allocateOpener
  | removeOpener (id : ℕ)
  | close (code : ℕ) (reason : Bytes)
  | sendCheck (id : StreamId)
  | retainedTurn (id : StreamId) (waker : Waker)
  | sendData (id : StreamId) (data : Buf)
  | finishCheck (id : StreamId)
  | finishWrite (id : StreamId) (waker : Waker)
  | reset (id : StreamId) (code : ℕ)
  | sendGuard (id : StreamId)
  | sendWrite (id : StreamId) (chunk : Bytes) (waker : Waker)
  | dropSend (id : StreamId)
  | pollData (id : StreamId) (waker : Waker)
  | stopSending (id : StreamId) (code : ℕ)
  | dropRecv (id : StreamId)

inductive SectionResult
  | driver (poll : Poll (Except AdapterError Unit))
  | stream (result : Except ConnectionTerminal (Option StreamId))
  | opener (id : ℕ)
  | checked (error : Option StreamError)
  | turn (step : WriteStep)
  | sent (result : Except StreamError Unit)
  | finishChecked (result : Option (Except StreamError Unit))
  | finished (poll : Poll (Except StreamError Unit))
  | guarded (retained : Bool)
  | wrote (poll : Poll (Except StreamError ℕ))
  | data (poll : Poll (Except StreamError (Option Bytes)))
  | done
  deriving DecidableEq

section Runs
variable [Dwnx ν] [AsyncByteStream β]

def Section.program (fuel : ℕ) : Section → CoreM β ν SectionResult
  | .route event => (fun _ => .done) <$> HyperiumCore.route event
  | .driver => .driver <$> pollDriver fuel
  | .accept kind waker => .stream <$> HyperiumCore.accept kind waker
  | .openStream opener kind waker => .stream <$> HyperiumCore.openStream opener kind waker
  | .allocateOpener => do
    let (id, c) := (← get).allocateOpener
    set c
    pure (.opener id)
  | .removeOpener id => (fun _ => .done) <$> modify (·.removeOpener id)
  | .close code reason => (fun _ => .done) <$> modify (·.requestClose code reason)
  | .sendCheck id => return .checked (sendTerminal (← get) id)
  | .retainedTurn id waker => .turn <$> HyperiumHandles.retainedTurn id waker
  | .sendData id data => .sent <$> HyperiumHandles.sendData id data
  | .finishCheck id => .finishChecked <$> HyperiumHandles.finishCheck id
  | .finishWrite id waker => .finished <$> HyperiumHandles.finishWrite id waker
  | .reset id code => (fun _ => .done) <$> resetStream id code
  | .sendGuard id => return .guarded ((← get).streams[id]?.any (·.writing.isSome))
  | .sendWrite id chunk waker => .wrote <$> HyperiumHandles.sendWrite id chunk waker
  | .dropSend id => (fun _ => .done) <$> HyperiumHandles.dropSend id
  | .pollData id waker => .data <$> HyperiumHandles.pollData id waker
  | .stopSending id code => (fun _ => .done) <$> HyperiumHandles.stopSending id code
  | .dropRecv id => (fun _ => .done) <$> HyperiumHandles.dropRecv id

/-- One critical section. The effects it collects start empty. -/
def Section.step (fuel : ℕ) (sec : Section) (c : Core β ν) :
    Except (Halt Panic) SectionResult × Core β ν :=
  outcome (sec.program fuel) { c with effects := {} }

end Runs

/-! ## Calls that interleave -/

/-- A public operation of a handle or of the driver. -/
inductive Call
  | once (sec : Section)
  | pollReady (id : StreamId) (waker : Waker)
  | pollFinish (id : StreamId) (waker : Waker)
  | pollSend (id : StreamId) (waker : Waker) (buf : Buf)

/-- Where a call stands: the section it runs next. -/
inductive Phase
  | last (sec : Section)
  | ready (id : StreamId) (waker : Waker) (finishing : Bool)
  | retained (id : StreamId) (waker : Waker) (finishing : Bool) (turn : ℕ)
  | finish (id : StreamId) (waker : Waker)
  | send (id : StreamId) (waker : Waker) (buf : Buf)
  | sendGuard (id : StreamId) (waker : Waker) (buf : Buf)

/-- The sections that are a call of their own. -/
def Section.alone : Section → Bool
  | .route _ | .sendCheck _ | .retainedTurn _ _ | .finishCheck _ | .finishWrite _ _ | .sendGuard _
  | .sendWrite _ _ _ => false
  | _ => true

/-- The first phase of a call. -/
def Call.start : Call → Option Phase
  | .once sec => if sec.alone then some (.last sec) else none
  | .pollReady id waker => some (.ready id waker false)
  | .pollFinish id waker => some (.finish id waker)
  | .pollSend id waker buf => some (.send id waker buf)

namespace Phase

def sec : Phase → Section
  | .last sec => sec
  | .ready id _ _ => .sendCheck id
  | .retained id waker _ _ => .retainedTurn id waker
  | .finish id _ => .finishCheck id
  | .send id _ _ => .sendCheck id
  | .sendGuard id _ _ => .sendGuard id

/-- The phase behind the answer of a section, or that the call returns. -/
def next : Phase → SectionResult → Option Phase
  | .ready id waker finishing, .checked none => some (.retained id waker finishing 0)
  | .retained id waker finishing _, .turn .done =>
    if finishing then some (.last (.finishWrite id waker)) else none
  | .retained id waker finishing turn, .turn .progress =>
    if turn + 1 = sendProgressBudget then none else some (.retained id waker finishing (turn + 1))
  | .finish id waker, .finishChecked none => some (.ready id waker true)
  | .send id waker buf, .checked none => some (.sendGuard id waker buf)
  | .sendGuard id waker buf, .guarded false =>
    if buf.remaining = 0 ∨ buf.chunk = [] then none else some (.last (.sendWrite id buf.chunk waker))
  | _, _ => none

end Phase

/-- The shared core, and the calls under way. A call that has returned leaves its place empty. -/
structure System (β ν : Type) where
  core : Core β ν
  calls : List (Option Phase) := []

inductive Action
  | begin (call : Call)
  | advance (index : ℕ)

section Runs
variable [Dwnx ν] [AsyncByteStream β]

/-- One step of the system, and what the critical section it ran answered. -/
def Action.step (fuel : ℕ) (action : Action) (s : System β ν) :
    Option (Except (Halt Panic) SectionResult) × System β ν :=
  match action with
  | .begin call => (none, { s with calls := s.calls ++ [call.start] })
  | .advance index =>
    match (s.calls[index]?).join with
    | none => (none, s)
    | some phase =>
      let (answer, core) := phase.sec.step fuel s.core
      let next := match answer with
        | .ok result => phase.next result
        | .error _ => none
      (some answer, ⟨core, s.calls.set index next⟩)

end Runs

end Ngnet.HyperiumHandles
