import Ngnet.Http3Driver

/-!
# The passes of an HTTP/3 driver

The functions of `http/driver.rs`, `http/client.rs` and `http/server.rs` as programs over the
operations of `Http3Driver`: the passes of `run`, from binding the unidirectional streams to parking,
and the guard that fails every exchange when the driver goes away. `connection` puts the two together
with what handles do in between.

The driver can be dropped at its awaits, and before it was polled for the first time.
-/

namespace Ngnet.Http3Passes
open QmuxVarints QmuxStreams Http3Heads Http3Handles Http3Conn Http3Driver InterleavedPrograms
open QmuxConnection (Poll)
open QmuxHttp3Join (QuicEvent WriteOutcome)

abbrev DriverM (β ν : Type) := Prog (Op β ν) Error

structure Config where
  maxConcurrentStreams : ℕ := 128
  eventsPerPass : ℕ := 64
  deriving DecidableEq, Repr

variable {β ν η α : Type}

def requestCancelled : ℕ := Common.requestCancelled

/-- `H3_NO_ERROR`. -/
def noError : ℕ := 0x100

def transportError : Error := ⟨.transport, "the QUIC backend failed", none⟩

/-- An instruction to the backend, whose failure ends the driver. -/
def transport (instruction : Instruction) : DriverM β ν Unit := do
  match ← perform (.backend (.instruct instruction)) with
  | .ok () => pure ()
  | .error () => Prog.fail transportError

section Calls
variable [Nghttp3 ν]

/-- A call of the state machine whose failure ends the driver. -/
def core (call : ConnCall) : DriverM β ν Unit := do
  match ← perform (.conn call) with
  | .ok () => pure ()
  | .error error => Prog.fail (ofCore ν error)

/-- A call of the state machine whose failure is ignored. -/
def ignoring (call : ConnCall) : DriverM β ν Unit := do
  let _ ← perform (.conn call)

/-- What nghttp3 does within a call, one callback after another. -/
def interact (call : NativeCall α) : Native ν α → DriverM β ν (Except CoreError α)
  | .returns result raw => perform (.leave call result raw)
  | .callback callback next => do
    perform (.callback callback)
    interact call next
  | .readData stream veccnt next => do
    let answer ← perform (.readData stream veccnt)
    interact call (next answer)

def native (call : NativeCall α) : DriverM β ν (Except CoreError α) := do
  match ← perform (.enter call) with
  | .error error => pure (.error error)
  | .ok tree => interact call tree

end Calls

/-! ## Waiting -/

/-- `flush_before_pending`, and the future returns `Pending`. -/
def flushBeforePending : DriverM β ν Unit := do
  match ← perform (.backend .pollFlush) with
  | .ready (.error ()) => Prog.fail transportError
  | _ => perform .await

/-- `poll_fn`: polls again each time it is woken. -/
def pollUntilReady (poll : DriverM β ν (Poll α)) : ℕ → DriverM β ν α
  | 0 => Prog.outOfFuel
  | fuel + 1 => do
    match ← poll with
    | .ready a => pure a
    | .pending => do
      flushBeforePending
      pollUntilReady poll fuel

/-! ## Binding -/

/-- The loop of `poll_bind`, which opens `n` more streams at most. -/
def openUnis : ℕ → DriverM β ν (Poll Unit)
  | 0 => pure (.ready ())
  | n + 1 => do
    match ← perform (.backend .pollOpenUni) with
    | .pending => pure .pending
    | .ready (.error ()) => Prog.fail transportError
    | .ready (.ok stream) => do
      perform (.locally fun l => ((), { l with opened := l.opened ++ [stream] }))
      openUnis n

section Passes
variable [Nghttp3 ν]

/-- `poll_bind`. -/
def pollBind : DriverM β ν (Poll Unit) := do
  if ← perform (.locally fun l => (l.bound, l)) then pure (.ready ())
  else
    match ← openUnis (3 - (← perform (.locally fun l => (l.opened.length, l)))) with
    | .pending => pure .pending
    | .ready () =>
      match ← perform (.locally fun l => (l.opened, l)) with
      | control :: encoder :: decoder :: _ => do
        core (.bindControlStream control)
        core (.bindQpackStreams encoder decoder)
        perform (.locally fun l => ((), { l with bound := true }))
        pure (.ready ())
      | _ => Prog.outOfFuel

/-! ## Events -/

def isClosed : QuicEvent → Bool
  | .closed _ => true
  | _ => false

/-- The loop of `take_events`. -/
def pollEvents : ℕ → List QuicEvent → DriverM β ν (List QuicEvent)
  | 0, taken => pure taken
  | n + 1, taken => do
    match ← perform (.backend .pollEvent) with
    | .pending => pure taken
    | .ready (.error ()) => Prog.fail transportError
    | .ready (.ok event) => if isClosed event then pure (taken ++ [event]) else pollEvents n (taken ++ [event])

/-- `take_events`. -/
def takeEvents (config : Config) : DriverM β ν (List QuicEvent) := do
  match ← perform .takeError with
  | some error => Prog.fail error
  | none =>
    let taken := (← perform (.locally fun l => (l.pushback, { l with pushback := none }))).toList
    pollEvents (config.eventsPerPass - taken.length) taken

/-- `extend`, on the credit of a stream. -/
def extend (stream : StreamId) (bytes : ℕ) : DriverM β ν Unit := do
  if bytes = 0 then pure ()
  else
    transport (.extendCredit (some stream) bytes)
    transport (.extendCredit none bytes)

/-- `read`. -/
def read (stream : StreamId) (bytes : Bytes) (fin : Bool) : DriverM β ν Unit := do
  match ← native (.readStream stream bytes fin) with
  | .error error => Prog.fail (ofCore ν error)
  | .ok credit => extend stream credit

/-- `apply_release`. -/
def applyRelease (stream : StreamId) (bytes : ℕ) (delivered : Bool) : DriverM β ν Unit := do
  if bytes = 0 then pure ()
  else if ← perform (.locally fun l => (l.closed.contains stream, l)) then pure ()
  else if !delivered then pure ()
  else
    match ← native (.addAckOffset stream bytes) with
    | .error error => Prog.fail (ofCore ν error)
    | .ok () => pure ()

/-- Removes an entry, and fails its slot and its body. -/
def retire (stream : StreamId) (slotError bodyError : Error) : DriverM β ν Bool := do
  if ← perform (.retireSlot stream slotError) then
    perform (.retireBody bodyError)
    pure true
  else pure false

def peerReset : Error := ⟨.stream, "the peer reset this exchange", none⟩

/-- `fail_stream`. -/
def failStream (stream : StreamId) (code : ℕ) : DriverM β ν Bool := do
  let known ← retire stream peerReset { peerReset with code := some code }
  perform (.cancel stream)
  pure known

def neverLookedAt : Error := ⟨.refused, "the peer went away before it looked at this exchange", none⟩

def refuseEach : List StreamId → DriverM β ν Unit
  | [] => pure ()
  | stream :: rest => do
    let _ ← retire stream neverLookedAt neverLookedAt
    perform (.cancel stream)
    refuseEach rest

/-- `refuse_from`. -/
def refuseFrom (cutoff : StreamId) : DriverM β ν Unit := do
  let streams ← perform .streams
  refuseEach (streams.filter fun stream => cutoff.val ≤ stream.val)

def endedEarly : Error := ⟨.stream, "the exchange ended before a response arrived", none⟩

/-- `close_stream`. -/
def closeStream (stream : StreamId) (closed : StreamClosed) : DriverM β ν Unit := do
  if ← perform (.locally fun l => let (new, closed) := l.closed.insert stream; (new, { l with closed })) then
    let checkpoint ← perform .observedLen
    let _ ← native (.closeStream stream closed)
    perform (.discardClosedSince checkpoint stream)
    match ← perform (.finishEntry stream) with
    | some ⟨some _, _⟩ => if !(← perform .leavingSettled) then perform (.failLeaving endedEarly)
    | _ => pure ()
    perform (.cancel stream)
  else pure ()

/-- The sweep of `apply_events` over the control plane: the data it puts aside, and the resets of
streams that were unknown. -/
def applyControl (role : Role) : List QuicEvent → List (StreamId × Bytes × Bool) → List (StreamId × ℕ) →
    DriverM β ν (List (StreamId × Bytes × Bool) × List (StreamId × ℕ))
  | [], data, unheard => pure (data, unheard)
  | event :: rest, data, unheard =>
    match event with
    | .data stream bytes fin => applyControl role rest (data ++ [(stream, bytes, fin)]) unheard
    | .accepted _ => applyControl role rest data unheard
    | .released stream bytes delivered => do
      applyRelease stream bytes delivered
      applyControl role rest data unheard
    | .stopSending stream _ => do
      ignoring (.shutdownStreamWrite stream)
      applyControl role rest data unheard
    | .reset stream code => do
      ignoring (.shutdownStreamRead stream)
      let known ← failStream stream code
      applyControl role rest data (if !known && role = .server then unheard ++ [(stream, code)] else unheard)
    | .streamClosed stream rxCode txCode => do
      closeStream stream ⟨rxCode, txCode⟩
      applyControl role rest data unheard
    | .closed _ => do
      perform (.locally fun l => ((), { l with peerGone := true }))
      applyControl role rest data unheard

def readAll : List (StreamId × Bytes × Bool) → DriverM β ν Unit
  | [] => pure ()
  | (stream, bytes, fin) :: rest => do
    read stream bytes fin
    readAll rest

/-- `apply_events`. -/
def applyEvents (role : Role) (events : List QuicEvent) : DriverM β ν (List (StreamId × ℕ)) := do
  let (data, unheard) ← applyControl role events [] []
  readAll data
  pure unheard

/-! ## Finished bodies -/

def bodyError : Error := ⟨.body, "the caller's message body reported an error", none⟩

/-- What `finish_bodies` does about one ending. -/
def finishBody (role : Role) (stream : StreamId) : Ending → DriverM β ν Unit
  | .clean => pure ()
  | .trailers fields => do
    let fields ← ofExcept (trailerFields fields)
    let headers ← ofExcept (views fields)
    core (.submitTrailers stream headers)
  | .failed => do
    match role with
    | .client => let _ ← retire stream bodyError bodyError
    | .server => pure ()
    perform (.reset stream requestCancelled)

/-- The loop of `finish_bodies`, over the `n` endings from `index` on. -/
def finishEach (role : Role) : ℕ → ℕ → List ℕ → DriverM β ν (List ℕ)
  | 0, _, done => pure done
  | n + 1, index, done => do
    match ← perform (.takeEnding index) with
    | none => finishEach role n (index + 1) done
    | some (stream, ending) => do
      finishBody role stream ending
      finishEach role n (index + 1) (done ++ [index])

/-- `finish_bodies`. -/
def finishBodies (role : Role) : DriverM β ν Unit := do
  let count ← perform .endingCount
  let done ← finishEach role count 0 []
  perform (.pruneEndings done)

/-! ## Advancing the role -/

def stoppedAccepting : Error :=
  ⟨.refused, "the connection stopped accepting new exchanges before this one began", none⟩

def becameUnusable : Error :=
  ⟨.connection, "the connection became unusable while submitting a request", none⟩

/-- What `ClientRole::advance` does about a command that is not settled yet. -/
def submitCommand (request : Request) (stream : StreamId) : DriverM β ν Unit := do
  match requestFields request.parts with
  | .error error => perform (.refuse error)
  | .ok fields => do
    let headers ← ofExcept (views fields)
    let ending ← perform .newEnding
    let body := if request.body.isEndStream then none else some (Outgoing.new request.body ending)
    match ← perform (.conn (.submitRequest stream headers body)) with
    | .error error =>
      if error.isFatal ν then do
        perform (.refuse (ofCore ν error))
        Prog.fail becameUnusable
      else perform (.refuse stoppedAccepting)
    | .ok () => perform (.enterHand (if request.body.isEndStream then none else some ending))

/-- The loop of `ClientRole::advance`. -/
def submitQueued : ℕ → DriverM β ν Unit
  | 0 => Prog.outOfFuel
  | fuel + 1 => do
    match ← perform .pop with
    | none => pure ()
    | some (request, stream) => do
      if ← perform .admitRequest then pure () else submitCommand request stream
      submitQueued fuel

/-- What `ServerRole::advance` does about the answer of a handler. -/
def answer (stream : StreamId) (response : Response) : DriverM β ν Unit := do
  if ← perform (.contains stream) then
    match responseFields response.parts with
    | .error _ => do
      perform (.reset stream requestCancelled)
      perform (.forgetHandler stream)
    | .ok fields => do
      let ending ← perform .newEnding
      let headers ← ofExcept (views fields)
      let body := if response.body.isEndStream then none else some (Outgoing.new response.body ending)
      core (.submitResponse stream headers body)
      if response.body.isEndStream then pure () else perform (.pushEnding stream ending)
  else perform (.forgetHandler stream)

def pollHandlers : List StreamId → DriverM β ν Unit
  | [] => pure ()
  | stream :: rest => do
    match ← perform (.pollHandler stream) with
    | none => pure ()
    | some response => answer stream response
    pollHandlers rest

/-- `Role::advance`. -/
def advance (role : Role) (fuel : ℕ) : DriverM β ν Unit := do
  finishBodies role
  match role with
  | .client => submitQueued fuel
  | .server => pollHandlers (← perform .takeWoken)

/-! ## Dispatching what was observed -/

section Dispatch
variable [Http]

/-- `Role::head`. -/
def head (role : Role) (config : Config) (stream : StreamId) (fields : List Field) : DriverM β ν Unit := do
  match role with
  | .client =>
    let head ← ofExcept (responseHead fields)
    if isInformational head.status then pure () else perform (.completeSlot stream head)
  | .server =>
    if config.maxConcurrentStreams ≤ (← perform .handlerCount) then
      ignoring (.shutdownStreamRead stream)
      perform (.reset stream requestCancelled)
    else match requestHead fields with
      | .error _ => do
        ignoring (.shutdownStreamRead stream)
        perform (.reset stream requestCancelled)
      | .ok head => perform (.openExchange stream head)

/-- What `dispatch` does about one observation. -/
def dispatchOne (role : Role) (config : Config) : Observation → DriverM β ν Unit
  | .head stream .headers fields => do
    perform .passObservation
    head role config stream fields
  | .head stream .trailers fields => do
    perform .passObservation
    let fields ← ofExcept (trailers fields)
    perform (.deliverTrailers stream fields)
  | .data _ _ => perform .deliverData
  | .ended stream => do
    perform .passObservation
    perform (.deliverEnd stream)
  | .closed stream closed => do
    perform .passObservation
    closeStream stream closed
  | .shutdown shutdown => do
    perform .passObservation
    perform .setRefusing
    match shutdown with
    | .noStreamsFrom cutoff => refuseFrom cutoff
    | _ => pure ()
  | .settings settings => do
    perform .passObservation
    perform (.locally fun l => ((), { l with peerSettings := some settings }))

def dispatchEach (role : Role) (config : Config) : List Observation → DriverM β ν Unit
  | [] => pure ()
  | observation :: rest => do
    dispatchOne role config observation
    dispatchEach role config rest

/-- `drain` and `dispatch`. -/
def dispatch (role : Role) (config : Config) : DriverM β ν Unit := do
  dispatchEach role config (← perform .drainObserved)

end Dispatch

/-! ## Transmitting -/

/-- `Offers`; its `blocked` is the driver's. -/
structure Offers where
  failure : Option Error := none
  retried : Bool := false

def pushBlocked (stream : StreamId) : DriverM β ν Unit :=
  perform (.locally fun l => ((), { l with blocked := l.blocked ++ [stream] }))

/-- The disposal of an offer: what committing it answers, and whether to block the stream or to give
it up. -/
def dispose (offer : Offer) : WriteOutcome → DriverM β ν (Except CoreError Unit × Bool × Bool)
  | .blocked => do
    pushBlocked offer.stream
    pure (.ok (), true, false)
  | .accepted taken =>
    if taken = 0 ∧ 0 < offer.len then do
      pushBlocked offer.stream
      pure (.ok (), true, false)
    else do
      let taken := min taken offer.len
      let result ← perform (.conn (.commit offer taken))
      if taken < offer.len then pushBlocked offer.stream
      pure (result, decide (taken < offer.len), false)
  | .gone => pure (.ok (), false, true)

/-- The rest of `write_next`, behind an offer. -/
def applyOffer (offers : Offers) (offer : Offer) (outcome : WriteOutcome) : DriverM β ν (Bool × Offers) := do
  let fail (error : CoreError) : Bool × Offers := (false, { offers with failure := some (ofCore ν error) })
  match ← dispose offer outcome with
  | (.error error, _, _) => pure (fail error)
  | (.ok (), block, gone) =>
    match ← if block then perform (.conn (.blockStream offer.stream)) else pure (.ok ()) with
    | .error error => pure (fail error)
    | .ok () =>
      match ← if gone then perform (.conn (.shutdownStreamWrite offer.stream)) else pure (.ok ()) with
      | .error error => pure (fail error)
      | .ok () => pure (true, offers)

def unblockAll : List StreamId → DriverM β ν (Except CoreError Unit)
  | [] => pure (.ok ())
  | stream :: rest => do
    match ← perform (.conn (.unblockStream stream)) with
    | .error error => pure (.error error)
    | .ok () => unblockAll rest

/-- `write_next`. Its loop is taken once more behind the retry, of which there is one in a pass. -/
def writeNext (write : Offer → WriteOutcome) : ℕ → Offers → DriverM β ν (Option Offer × Bool × Offers)
  | 0, offers => pure (none, false, offers)
  | n + 1, offers => do
    let fail (error : CoreError) (offers : Offers) : Option Offer × Bool × Offers :=
      (none, false, { offers with failure := some (ofCore ν error) })
    if offers.failure.isSome then pure (none, false, offers)
    else
      match ← native .writevStream with
      | .error error => pure (fail error offers)
      | .ok (some offer) => do
        let (more, offers) ← applyOffer offers offer (write offer)
        pure (some offer, more, offers)
      | .ok none => do
        if offers.retried || (← perform (.locally fun l => (l.blocked.isEmpty, l))) then
          pure (none, false, offers)
        else
          let offers := { offers with retried := true }
          match ← unblockAll (← perform (.locally fun l => (l.blocked, { l with blocked := [] }))) with
          | .error error => pure (fail error offers)
          | .ok () => writeNext write n offers

def transmitWith : Transmit β → Offers → DriverM β ν (Poll (Except Unit Unit) × Offers)
  | .returns poll backend, offers => do
    perform (.leaveTransmit poll backend)
    pure (poll, offers)
  | .pull write next, offers => do
    let (offer, more, offers) ← writeNext write 2 offers
    transmitWith (next offer more) offers

/-- Transmits until the backend is ready, and reports the failure that the source has stashed. -/
def transmit : ℕ → Offers → DriverM β ν Unit
  | 0, _ => Prog.outOfFuel
  | fuel + 1, offers => do
    match ← transmitWith (← perform .enterTransmit) offers with
    | (.pending, offers) => do
      flushBeforePending
      transmit fuel offers
    | (.ready (.error ()), _) => Prog.fail transportError
    | (.ready (.ok ()), offers) =>
      match offers.failure with
      | some error => Prog.fail error
      | none => pure ()

/-! ## One pass -/

/-- The credit that callers returned by reading. -/
def returnCredit : List (StreamId × ℕ) → DriverM β ν Unit
  | [] => pure ()
  | (stream, bytes) :: rest => do
    if bytes = 0 then pure () else transport (.extendCredit (some stream) bytes)
    match ← perform .returnCredit with
    | .ok () => returnCredit rest
    | .error () => Prog.fail transportError

def extendEach : List (StreamId × ℕ) → DriverM β ν Unit
  | [] => pure ()
  | (stream, bytes) :: rest => do
    extend stream bytes
    extendEach rest

def takeActionsEach : List TransportAction → DriverM β ν Unit
  | [] => pure ()
  | .reset stream code :: rest => do
    transport (.reset stream code)
    takeActionsEach rest
  | .stopSending stream code :: rest => do
    transport (.stopSending stream code)
    takeActionsEach rest

def resetEach : List (StreamId × ℕ) → DriverM β ν Unit
  | [] => pure ()
  | (stream, code) :: rest => do
    ignoring (.shutdownStreamRead stream)
    ignoring (.shutdownStreamWrite stream)
    transport (.reset stream code)
    transport (.stopSending stream code)
    resetEach rest

def resumeEach : List StreamId → DriverM β ν Unit
  | [] => pure ()
  | stream :: rest => do
    ignoring (.resumeStream stream)
    resumeEach rest

/-- The work of one pass that was drained from what handles share. -/
def applyWork : DriverM β ν Unit := do
  perform .drainWork
  extendEach (← perform .takeDeferredCredit)
  returnCredit (← perform .drainedCredit)
  takeActionsEach (← perform .takeActions)
  resetEach (← perform .takeResets)
  resumeEach (← perform .takeReady)
  if ← perform .takeShutdown then ignoring .shutdown

/-- `needs_stream`. -/
def needsStream (role : Role) : DriverM β ν Bool := do
  match role with
  | .client => if ← perform .spareEmpty then pure (!(← perform .queueEmpty)) else pure false
  | .server => pure false

/-- The loop that opens a stream for the requests that are queued. -/
def openStreams (role : Role) (fuel : ℕ) : ℕ → DriverM β ν Unit
  | 0 => Prog.outOfFuel
  | turns + 1 => do
    if ← needsStream role then
      match ← pollUntilReady (perform (.backend .pollOpenBi)) fuel with
      | .error () => Prog.fail transportError
      | .ok stream => do
        perform (.giveStream stream)
        openStreams role fuel turns
    else pure ()

def busy (role : Role) : DriverM β ν Bool := do
  match role with
  | .client => if ← perform .queueEmpty then perform .endingPending else pure true
  | .server => if ← perform .anyWoken then pure true else perform .endingPending

def roleDone (role : Role) : DriverM β ν Bool := do
  match role with
  | .client => if ← perform .handlesGone then perform .queueEmpty else pure false
  | .server => pure false

/-- `guard.role.done() && registry.is_empty()`. -/
def finished (role : Role) : DriverM β ν Bool := do
  if ← roleDone role then perform .registryEmpty else pure false

/-- The loop of the park, which takes an event if there is one and keeps it for the next pass. -/
def park (role : Role) : ℕ → Bool → DriverM β ν Unit
  | 0, _ => Prog.outOfFuel
  | fuel + 1, parked => do
    let again : DriverM β ν Unit := do
      perform .await
      park role fuel true
    if parked && !(← perform (.locally fun l => (l.blocked.isEmpty, l))) then pure ()
    else if ← perform .refreshDriver then pure ()
    else if ← busy role then pure ()
    else
      match ← perform (.backend .pollEvent) with
      | .pending =>
        match ← perform (.backend .pollFlush) with
        | .ready (.error ()) => perform (.keepError transportError)
        | _ => again
      | .ready (.ok event) => perform (.locally fun l => ((), { l with pushback := some event }))
      | .ready (.error ()) => perform (.keepError transportError)

section Run
variable [Http] (role : Role) (config : Config)

def failUnheard : List (StreamId × ℕ) → DriverM β ν Unit
  | [] => pure ()
  | (stream, code) :: rest => do
    let _ ← failStream stream code
    failUnheard rest

/-- What is left of a pass behind the transmission. Answers whether the driver is finished. -/
def endOfPass (fuel : ℕ) (hadEvents : Bool) : DriverM β ν Bool := do
  if ← perform (.locally fun l => (l.peerGone, l)) then pure true
  else if ← finished role then
    if ← perform .workPending then pure false
    else
      transport (.close noError [])
      pure true
  else
    if hadEvents then pure false
    else if ← busy role then pure false
    else if (← perform .observedLen) ≠ 0 then pure false
    else if ← finished role then pure false
    else if ← perform .workPending then pure false
    else
      park role fuel false
      pure false

/-- One turn of the loop of `run`. -/
def pass (fuel : ℕ) : DriverM β ν Bool := do
  pollUntilReady pollBind fuel
  let events ← takeEvents config
  let unheard ← applyEvents role events
  finishBodies role
  applyWork
  openStreams role fuel fuel
  advance role fuel
  dispatch role config
  failUnheard unheard
  transmit fuel {}
  dispatch role config
  endOfPass role fuel !events.isEmpty

def passes (fuel : ℕ) : ℕ → DriverM β ν Unit
  | 0 => Prog.outOfFuel
  | turns + 1 => do if ← pass role config fuel then pure () else passes fuel turns

/-- `run`. The first await is that of a driver that was not polled yet. -/
def run (fuel : ℕ) : DriverM β ν Unit := do
  perform .await
  passes role config fuel fuel

end Run

end Passes

/-! ## Teardown -/

def wentAway : Error := ⟨.closed, "the connection went away", none⟩

def failEach : List Entry → Prog (Op β ν) Empty Unit
  | [] => pure ()
  | entry :: rest => do
    if entry.slot.isSome then perform (.failLeaving wentAway)
    perform (.retireBody wentAway)
    failEach rest

def abandonQueued : ℕ → Prog (Op β ν) Empty Unit
  | 0 => pure ()
  | n + 1 => do
    perform .abandonNext
    abandonQueued n

/-- `Role::abandon`. -/
def abandon (role : Role) : Prog (Op β ν) Empty Unit := do
  match role with
  | .client =>
    let queued ← perform .lockQueue
    abandonQueued queued
    perform .unlockQueue
  | .server => perform .abandonHandlers

/-- `DriverGuard::drop`. -/
def dropGuard (role : Role) : Prog (Op β ν) Empty Unit := do
  perform .setGone
  perform .setRefusing
  failEach (← perform .takeAll)
  abandon role

/-! ## The connection -/

def yields : {α : Type} → Op β ν α → Bool
  | _, .await => true
  | _, _ => false

/-- A driver, and the handles that act in between. -/
def connection [Nghttp3 ν] [Http] (role : Role) (config : Config) (fuel : ℕ) :
    System (Op β ν) Error Unit (World β ν η) Common.Action where
  program := run role config fuel
  cleanup := dropGuard role
  yields := yields
  act action w := w.onCommon (·.act action)

/-- `handshake_with` and `serve_with`. -/
def newWorld (role : Role) (backend : β) (raw : ν) (handlers : η) : World β ν η where
  common := {}
  driver := { backend, conn := { raw, role }, handlers }

end Ngnet.Http3Passes
