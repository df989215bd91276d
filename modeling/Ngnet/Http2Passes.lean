import Ngnet.Http2Driver

/-!
# The passes of an HTTP/2 driver

The functions of `http/driver.rs`, `http/client.rs` and `http/server.rs` as programs over the operations of
`Http2Driver`: the passes of `run`, from the work of the role to parking, and the guard that fails every exchange when
the driver goes away. `connection` puts the two together with what handles, bodies, handlers and the reading half do in
between.

The driver can be dropped at its awaits, and before it was polled for the first time.
-/

namespace Ngnet

namespace Http2Passes
open QmuxVarints Http2Heads Http2Handles Http2Driver InterleavedPrograms
open Http3Heads (Http HeaderMap RequestParts ResponseParts Field isInformational)

abbrev DriverM := Prog Op Fault

variable {ε δ τ η : Type}

def sessionFailed : Fault := .returned .ofSession

def transportFailed : Fault := .returned .ofIo

/-- A call of the session whose failure ends the driver. -/
def check (op : Op (Except Unit Unit)) : DriverM Unit := do
  match ← perform op with
  | .ok () => pure ()
  | .error () => Prog.fail sessionFailed

def checkEach (op : Op (Except Unit Unit)) : ℕ → DriverM Unit
  | 0 => pure ()
  | n + 1 => do
    check op
    checkEach op n

/-! ## The session -/

/-- What a body that ends at once is submitted as. -/
def submittedBody (body : CallerBody) : Option CallerBody := if body.isEndStream then none else some body

/-- `Session::submit_request`, which validates the headers first. -/
def submitRequest (headers : OwnedHeaders) (body : CallerBody) : DriverM (Except Unit ℕ) :=
  match validate headers with
  | .error _ => pure (.error ())
  | .ok () => perform (.session (.submitRequest headers (submittedBody body)))

/-- `Session::submit_response`. -/
def submitResponse (stream : ℕ) (headers : OwnedHeaders) (body : CallerBody) : DriverM Unit :=
  match validate headers with
  | .error _ => Prog.fail sessionFailed
  | .ok () => check (.session (.submitResponse stream headers (submittedBody body)))

/-- `Session::submit_trailer`. -/
def submitTrailer (stream : ℕ) (headers : OwnedHeaders) : DriverM Unit :=
  match toTrailerNvVec headers with
  | .error _ => Prog.fail sessionFailed
  | .ok headers => check (.session (.submitTrailer stream headers))

/-! ## The work of the role -/

/-- What `submit` does once the stream has its identifier. -/
def register (stream : ℕ) : DriverM Unit := do
  if ← perform (.enter stream) then
    match ← perform (.session (.resetStream stream cancel)) with
    | .ok () => pure ()
    | .error () => perform (.refuse .ofSession)
  else pure ()

/-- `ClientRole::submit`, and the failure of the slot that follows its own. -/
def submit (request : Request) : DriverM Unit :=
  match requestHeaders request.parts with
  | .error error => perform (.refuse error)
  | .ok headers => do
    match ← submitRequest headers request.body with
    | .error () => perform (.refuse .ofSession)
    | .ok stream => register stream

def submitEach : ℕ → DriverM Unit
  | 0 => pure ()
  | n + 1 => do
    match ← perform .nextCommand with
    | none => submitEach n
    | some request => do
      submit request
      submitEach n

/-- `respond`, once the headers are made. -/
def answerWith (stream : ℕ) (headers : OwnedHeaders) (body : CallerBody) : DriverM Unit := do
  if body.isEndStream then submitResponse stream headers body
  else if ← perform (.registered stream) then submitResponse stream headers body
  else pure ()

def respond (stream : ℕ) (response : Response) : DriverM Unit := do
  if ← perform (.session (.streamIsOpen stream)) then
    match responseHeaders response.parts with
    | .ok headers => answerWith stream headers response.body
    | .error error => do
      perform (.failIncoming stream error)
      check (.session (.resetStream stream internalError))
  else pure ()

def pollEach : List ℕ → DriverM Unit
  | [] => pure ()
  | stream :: rest => do
    match ← perform (.pollHandler stream) with
    | none => pollEach rest
    | some response => do
      respond stream response
      pollEach rest

def advance : Role → DriverM Unit
  | .client => do submitEach (← perform .drainQueue)
  | .server _ => do pollEach (← perform .takeWoken)

/-! ## What others asked for -/

def applyCredits : DriverM Unit := do checkEach .consumeNext (← perform .takeCredits)

def applyResets : DriverM Unit := do checkEach .sweepNext (← perform .takeResets)

def goawayLast : GoawayTarget → DriverM ℕ
  | .stream last => pure last
  | .lastProcessed => perform (.session .lastProcessedStream)

def applyShutdown : DriverM Unit := do
  match ← perform .takeShutdown with
  | none => pure ()
  | some (target, code) => do
    let lastStream ← goawayLast target
    check (.session (.shutdown lastStream code))

def resumeEach : List ℕ → DriverM Unit
  | [] => pure ()
  | stream :: rest => do
    match ← perform (.session (.resumeBody stream)) with
    | .failed => Prog.fail sessionFailed
    | _ => resumeEach rest

def resumeReady : DriverM Unit := do resumeEach (← perform .takeReady)

/-- The loop over the inbox. -/
def feed : ℕ → DriverM Unit
  | 0 => Prog.outOfFuel
  | fuel + 1 => do
    match ← perform .feed with
    | none => pure ()
    | some (.ok ()) => feed fuel
    | some (.error ()) => Prog.fail sessionFailed

/-! ## Dispatch -/

/-- Fails both sides of the exchange that is leaving. -/
def failLeaving (error : Error) : Prog Op ε Unit := do
  perform (.failLeavingSlot error)
  perform (.failLeavingIncoming error)
  perform .forgetLeaving

/-- `IncomingBody::drop`, of the body that a settled slot did not take. -/
def dropFresh (stream : ℕ) : DriverM Unit := do
  let complete ← perform (.freshFinished stream)
  perform (.abandonFresh stream)
  perform .creditFresh
  if complete then pure () else perform (.reset stream cancel)

def answer (stream : ℕ) (head : ResponseParts) : DriverM Unit := do
  if ← perform (.completeSlot stream head) then pure () else dropFresh stream

def unacceptable : Error := protocol "the peer sent a response head this crate could not accept"

section Receive
variable [Http]

/-- `ClientRole::head`. -/
def answerHead (stream : ℕ) (fields : List Field) : DriverM Unit := do
  if ← perform (.hasSlot stream) then
    match responseHead fields with
    | .ok head => if isInformational head.status then pure () else answer stream head
    | .error error => do
      perform (.failSlot stream error)
      perform (.failIncoming stream unacceptable)
      check (.refuseStream stream protocolError true)
  else pure ()

/-- `ServerRole::head`. -/
def serveHead (maxConcurrentStreams stream : ℕ) (fields : List Field) : DriverM Unit := do
  if maxConcurrentStreams ≤ (← perform .handlerCount) then check (.refuseStream stream refusedStream false)
  else
    match requestHead fields with
    | .error _ => check (.refuseStream stream protocolError false)
    | .ok head => perform (.startHandler stream head)

def roleHead : Role → ℕ → List Field → DriverM Unit
  | .client => answerHead
  | .server maxConcurrentStreams => serveHead maxConcurrentStreams

def deliverTrailers (stream : ℕ) (fields : List Field) : DriverM Unit :=
  match trailers fields with
  | .error fault => Prog.fail fault
  | .ok (.ok fields) => perform (.setTrailers stream fields)
  | .ok (.error error) => do
    perform (.failIncoming stream error)
    check (.session (.resetStream stream protocolError))

/-- `ClientRole::trailers`. -/
def answerTrailers (stream : ℕ) (fields : List Field) : DriverM Unit := do
  if ← perform (.hasSlot stream) then
    if ← perform (.slotSettled stream) then deliverTrailers stream fields else answerHead stream fields
  else deliverTrailers stream fields

def roleTrailers : Role → ℕ → List Field → DriverM Unit
  | .client => answerTrailers
  | .server _ => deliverTrailers

def refuseOne (stream code : ℕ) : DriverM Unit := do
  if ← perform (.removeEntry stream) then failLeaving (Error.refused.because code) else pure ()

def refuseEach (code : ℕ) : List ℕ → DriverM Unit
  | [] => pure ()
  | stream :: rest => do
    refuseOne stream code
    refuseEach code rest

def unanswered (code : ℕ) : Error :=
  if code = noError then ⟨.stream, "the stream closed before a response head arrived", none⟩
  else Error.because ⟨.stream, "the peer reset the stream", none⟩ code

/-- Whom the close of a stream is reported to beyond its body. -/
def failUnanswered (code : ℕ) (failure : Option Error) : DriverM Unit := do
  if ← perform .leavingUnsettled then perform (.failLeavingSlot (failure.getD (unanswered code)))
  else
    match failure with
    | some reported => perform (.failLeavingIncoming reported)
    | none => pure ()

def closeStream (stream code : ℕ) (failure : Option Error) : DriverM Unit := do
  if ← perform (.removeEntry stream) then do
    failUnanswered code failure
    perform (.failLeavingIncoming truncated)
    perform .forgetLeaving
  else pure ()

/-- One turn of the loop of `dispatch`. -/
def dispatchEvent (role : Role) : Event → DriverM Unit
  | .head stream fields => do
    perform (.enterIncoming stream)
    roleHead role stream fields
  | .trailers stream fields => do
    if ← perform (.registered stream) then roleTrailers role stream fields else pure ()
  | .data _ _ => check .deliverData
  | .finished stream => perform (.finishIncoming stream)
  | .goaway lastStream code => do
    perform .setRefusing
    let abandoned ← perform (.startedAbove role lastStream)
    refuseEach code abandoned
  | .close stream code failure => closeStream stream code failure

def dispatchEach (role : Role) : ℕ → DriverM Unit
  | 0 => pure ()
  | n + 1 => do
    match ← perform .nextEvent with
    | none => pure ()
    | some event => do
      dispatchEvent role event
      dispatchEach role n

def dispatch (role : Role) : DriverM Unit := do dispatchEach role (← perform .eventCount)

end Receive

/-! ## Sending -/

def write : DriverM Unit := do
  match ← perform .write with
  | .ok () => pure ()
  | .error () => Prog.fail transportFailed

/-- Until the session has nothing more to send. -/
def flush : ℕ → DriverM Unit
  | 0 => Prog.outOfFuel
  | fuel + 1 => do
    match ← perform .send with
    | .error () => Prog.fail sessionFailed
    | .ok more => do
      write
      if more then flush fuel else pure ()

def failStream (stream : ℕ) (error : Error) : DriverM Unit := do
  if ← perform (.hasSlot stream) then
    if ← perform (.slotSettled stream) then perform (.failIncoming stream error)
    else perform (.failSlot stream error)
  else pure ()

/-- One turn of the loop of `submit_trailers`; whether anything was submitted. -/
def submitTrailersOf (stream : ℕ) (trailers : HeaderMap) : DriverM Bool := do
  if ← perform (.session (.trailersReady stream)) then
    match trailerFields trailers with
    | .error error => do
      failStream stream error
      check (.session (.resetStream stream internalError))
      pure false
    | .ok headers => do
      submitTrailer stream headers
      pure true
  else pure false

def submitTrailersEach : List (ℕ × HeaderMap) → Bool → DriverM Bool
  | [], submitted => pure submitted
  | (stream, trailers) :: rest, submitted => do
    let new ← submitTrailersOf stream trailers
    submitTrailersEach rest (submitted || new)

def submitTrailers : DriverM Bool := do submitTrailersEach (← perform .takeTrailers) false

/-- `submit_trailers`, and the second flush. -/
def flushTrailers (fuel : ℕ) : DriverM Unit := do
  if ← submitTrailers then flush fuel else pure ()

def commit : DriverM Unit := do
  match ← perform .commit with
  | .ok () => pure ()
  | .error () => Prog.fail transportFailed

/-! ## Passes -/

/-- What a driver that returns without an error has found. -/
inductive Ending
  | peerFinished
  | nothingLeft
  deriving DecidableEq, Repr

/-- `Signals::busy`. -/
def isBusy : Role → DriverM Bool
  | .client => do
    let empty ← perform .queueEmpty
    pure !empty
  | .server _ => perform .anyWoken

def partWay : Error := ⟨.transport, "the peer stopped sending part-way through a frame", none⟩

def endOfInput : DriverM Ending := do
  if ← perform .takeFailure then Prog.fail transportFailed
  else if ← perform (.session .midFrame) then Prog.fail (.returned partWay)
  else pure .peerFinished

def ending (role : Role) : DriverM (Option Ending) := do
  if ← perform .readFinished then some <$> endOfInput
  else if ← perform (.nothingLeft role) then pure (some .nothingLeft)
  else pure none

def isIdle (role : Role) (wantsWrite : Bool) : DriverM Bool := do
  let busy ← isBusy role
  let pending ← perform .workPending
  let done ← perform (.isDone role)
  let empty ← perform .registryEmpty
  pure (!busy && !pending && !wantsWrite && !(done && empty))

def park (role : Role) (wantsWrite : Bool) : ℕ → DriverM Unit
  | 0 => Prog.outOfFuel
  | fuel + 1 => do
    if ← isIdle role wantsWrite then do
      perform .await
      park role wantsWrite fuel
    else pure ()

/-- What a pass does before it looks at whether it is the last. -/
def work [Http] (role : Role) (fuel : ℕ) : DriverM Unit := do
  advance role
  applyCredits
  applyResets
  applyShutdown
  resumeReady
  feed fuel
  dispatch role
  flush fuel
  flushTrailers fuel
  dispatch role
  commit

def passes [Http] (role : Role) (fuel : ℕ) : ℕ → DriverM Ending
  | 0 => Prog.outOfFuel
  | n + 1 => do
    work role fuel
    match ← ending role with
    | some ending => pure ending
    | none => do
      let wantsWrite ← perform (.session .wantWrite)
      park role wantsWrite fuel
      passes role fuel n

/-- The driver, from before its first poll. -/
def run [Http] (role : Role) (fuel : ℕ) : DriverM Ending := do
  perform .await
  passes role fuel fuel

/-! ## The guard -/

def closeEach : ℕ → Prog Op Empty Unit
  | 0 => pure ()
  | n + 1 => do
    failLeaving .closed
    closeEach n

def failEach : ℕ → Prog Op Empty Unit
  | 0 => pure ()
  | n + 1 => do
    perform (.failHand .closed)
    failEach n

/-- `Role::abandon`. -/
def abandon : Role → Prog Op Empty Unit
  | .client => do failEach (← perform .drainQueue)
  | .server _ => perform .abandonHandlers

/-- `DriverGuard::drop`. -/
def driverGuard (role : Role) : Prog Op Empty Unit := do
  perform .setGone
  closeEach (← perform .takeAll)
  abandon role

/-! ## Connections -/

/-- What others do: handles and bodies, the wakers of bodies and handlers, and the reading half. -/
inductive WorldAction
  | handle (action : Common.Action)
  /-- The last reference to a slot goes away, and with it the body that is in it. -/
  | freeSlot (id : ℕ)
  | markReady (stream : ℕ)
  | wakeHandler (stream : ℕ)
  | post (buffer : Bytes)
  | endReading
  | failReading
  deriving DecidableEq, Repr

/-- How many filled buffers wait before reading pauses. -/
def readAhead : ℕ := 2

end Http2Passes

namespace Http2Driver.World
open Http2Passes Http2Handles QmuxVarints

variable {δ τ η : Type}

/-- Whether an entry of the driver still refers to a slot. -/
def slotEntered (w : World δ τ η) (id : ℕ) : Bool :=
  (w.driver.entries ++ w.driver.leaving).any (·.slot = some id)

def freeSlot (w : World δ τ η) (id : ℕ) : World δ τ η :=
  match (w.common.exchanges id).body with
  | some body =>
    if body.phase = .inSlot ∧ (w.common.exchanges id).future = .gone ∧ ¬ w.slotEntered id then
      w.onCommon (·.setBody id { body with phase := .dropChecking })
    else w
  | none => w

/-- A waker whose stream is gone does nothing. -/
def markReady (w : World δ τ η) (stream : ℕ) : World δ τ η :=
  if (w.driver.entry stream).isSome then w.onCommon (·.modifyInner (·.markReady stream)) else w

def wakeHandler (w : World δ τ η) (stream : ℕ) : World δ τ η :=
  if stream ∈ w.driver.running then
    w.onDriver fun d => { d with woken := DriverState.startRunning d.woken stream }
  else w

/-- The reading half has read a buffer. -/
def post (w : World δ τ η) (buffer : Bytes) : World δ τ η :=
  if w.driver.inbox.length < readAhead ∧ ¬ w.driver.readFinished ∧ buffer ≠ [] then
    w.onDriver fun d => { d with inbox := d.inbox ++ [buffer] }
  else w

def endReading (w : World δ τ η) (failed : Bool) : World δ τ η :=
  if w.driver.inbox.length < readAhead ∧ ¬ w.driver.readFinished then
    w.onDriver ({ · with readFinished := true, readFailed := failed })
  else w

def act : WorldAction → World δ τ η → World δ τ η
  | .handle action, w => w.onCommon (·.act action)
  | .freeSlot id, w => w.freeSlot id
  | .markReady stream, w => w.markReady stream
  | .wakeHandler stream, w => w.wakeHandler stream
  | .post buffer, w => w.post buffer
  | .endReading, w => w.endReading false
  | .failReading, w => w.endReading true

end Http2Driver.World

namespace Http2Passes
open Http2Heads Http2Driver InterleavedPrograms
open Http3Heads (Http)

variable {δ τ η : Type}

def yields {β : Type} : Op β → Bool
  | .await | .write | .commit => true
  | _ => false

/-- Where a connection starts: a client has one handle, a server none. -/
def newWorld (role : Role) (session : δ) (io : τ) (handlers : η) : World δ τ η where
  common := { handles := if role = .client then 1 else 0 }
  driver := { session, io, handlers }

/-- A connection: its driver, the guard behind it, and what others do in between. -/
def connection [Http] (role : Role) (fuel : ℕ) : System Op Fault Ending (World δ τ η) WorldAction where
  program := run role fuel
  cleanup := driverGuard role
  yields := yields
  act := World.act

end Http2Passes

end Ngnet
