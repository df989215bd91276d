import Mathlib.Data.List.AList
import Ngnet.QmuxConnection

/-!
# Hyperium's HTTP/3 traits over a QMux connection

The crate `h3-ngnet-qmux`: `state.rs` and `error.rs`. One `Core` is shared behind a lock by the
driver, the connection handles and the stream handles. Every function here runs inside one
critical section; the wakes it collects are issued behind the lock.

A failure of the layer below is kept as the error it was rendered from. An `expect` that fails is
a failure of the program. `LowerWake`, which only says when the driver is polled next, is left
out, and the task a poll of the layer below registers is the driver's own. Beside the fields of
the source a core carries the events routed to it and the streams it handed out by `accept`.
-/

namespace Ngnet.HyperiumCore
open QmuxVarints QmuxCloseCodec QmuxErrors QmuxStreams StatefulPrograms QmuxRecordWriter
open QmuxConnection

/-! ## Errors -/

/-- `Error`: what the driver resolves with. -/
inductive AdapterError
  | applicationClose (errorCode : ℕ)
  | internal (message : String)
  | undefined (cause : Error)
  deriving DecidableEq, Repr

inductive ConnectionTerminal
  | application (errorCode : ℕ)
  | internal (message : String)
  | undefined (cause : Error)
  deriving DecidableEq, Repr

def ConnectionTerminal.fromLower (error : Error) : ConnectionTerminal :=
  match error.close with
  | some reason => if reason.kind = .application then .application reason.errorCode else .undefined error
  | none => .undefined error

def ConnectionTerminal.driverError : ConnectionTerminal → AdapterError
  | .application errorCode => .applicationClose errorCode
  | .internal message => .internal message
  | .undefined cause => .undefined cause

inductive DirectionTerminal
  | finished
  | stopped (code : ℕ)
  | reset (code : ℕ)
  deriving DecidableEq, Repr

/-- `StreamErrorIncoming`, with the classification a connection error carries. -/
inductive StreamError
  | connection (terminal : ConnectionTerminal)
  | terminated (errorCode : ℕ)
  deriving DecidableEq, Repr

def ConnectionTerminal.streamError (terminal : ConnectionTerminal) : StreamError :=
  .connection terminal

def closeReason (code : ℕ) (reason : Bytes) : CloseReason := ⟨.application, code, 0, reason⟩

/-! ## State -/

def routeBudget : ℕ := 64

/-- `H3_REQUEST_CANCELLED`. -/
def abandoned : ℕ := 0x10c

/-- `H3_EXCESSIVE_LOAD`. -/
def excessiveLoad : ℕ := 0x107

inductive AcceptKind | uni | bidi
  deriving DecidableEq, Repr

inductive OpenKind | uni | bidi
  deriving DecidableEq, Repr

structure Received where
  data : Bytes
  fin : Bool
  deriving DecidableEq, Repr

/-- A `Buf`, as the pieces it lends one after another. -/
structure Buf where
  pieces : List Bytes
  deriving DecidableEq, Repr

namespace Buf

def remaining (buf : Buf) : ℕ := (buf.pieces.map List.length).sum

def chunk (buf : Buf) : Bytes := buf.pieces.headD []

def advanceOver : List Bytes → ℕ → List Bytes
  | [], _ => []
  | piece :: rest, bytes =>
    if bytes < piece.length then piece.drop bytes :: rest else advanceOver rest (bytes - piece.length)

def advance (buf : Buf) (bytes : ℕ) : Buf := ⟨advanceOver buf.pieces bytes⟩

end Buf

structure StreamState where
  pendingAccept : Bool := false
  lowerClosed : Bool := false
  sendHandle : Bool := false
  recvHandle : Bool := false
  recv : List Received := []
  recvTerminal : Option DirectionTerminal := none
  sendTerminal : Option DirectionTerminal := none
  recvShutdownSent : Bool := false
  sendShutdownSent : Bool := false
  recvWaiter : Option Waker := none
  sendWaiter : Option Waker := none
  finishWaiter : Option Waker := none
  sendWaitingOutput : Bool := false
  finishWaitingOutput : Bool := false
  writing : Option Buf := none
  deriving DecidableEq, Repr

structure OpenerWaiters where
  uni : Option Waker := none
  bidi : Option Waker := none
  deriving DecidableEq, Repr

structure Effects where
  wakes : List Waker := []
  continuation : Bool := false
  deriving DecidableEq, Repr

instance : Ord StreamId := ⟨fun a b => compare a.val b.val⟩

/-- `BTreeMap`. -/
abbrev StreamMap := Std.TreeMap StreamId StreamState

structure Core (β ν : Type) where
  lower : Connection β ν
  role : Role
  pendingLimit : ℕ
  streams : StreamMap := ∅
  pendingUni : List StreamId := []
  pendingBidi : List StreamId := []
  acceptUni : Option Waker := none
  acceptBidi : Option Waker := none
  openers : Std.TreeMap ℕ OpenerWaiters := (∅ : Std.TreeMap ℕ OpenerWaiters).insert 0 {}
  nextOpener : ℕ := 1
  terminal : Option ConnectionTerminal := none
  close : Option CloseReason := none
  closeIsFailure : Bool := false
  driverComplete : Bool := false
  driverError : Option AdapterError := none
  effects : Effects := {}
  routed : List Event := []
  accepted : List StreamId := []

/-- The message of an `expect` that found nothing. -/
abbrev Panic := String

abbrev CoreM (β ν : Type) (α : Type) := Program Panic (Core β ν) α

variable {β ν : Type}

/-- The waker a slot is left with, and whether it is a new one. -/
def replaceWaiter (slot : Option Waker) (waker : Waker) : Option Waker × Bool :=
  if slot = some waker then (slot, false) else (some waker, true)

namespace StreamState

/-- The wakers that wait on a stream. -/
def waiters (s : StreamState) : List Waker :=
  s.recvWaiter.toList ++ s.sendWaiter.toList ++ s.finishWaiter.toList

def takeRecv (s : StreamState) : StreamState × List Waker :=
  ({ s with recvWaiter := none }, s.recvWaiter.toList)

def takeSenders (s : StreamState) : StreamState × List Waker :=
  ({ s with sendWaiter := none, finishWaiter := none }, s.sendWaiter.toList ++ s.finishWaiter.toList)

/-- The part of `fail` that is about one stream. -/
def abandon (s : StreamState) : StreamState :=
  { s with writing := none, recvWaiter := none, sendWaiter := none, finishWaiter := none }

/-- The part of `wake_output_senders` that is about one stream. -/
def outputDrained (s : StreamState) : StreamState × List Waker :=
  ({ s with
      sendWaiter := if s.sendWaitingOutput then none else s.sendWaiter
      finishWaiter := if s.finishWaitingOutput then none else s.finishWaiter
      sendWaitingOutput := false
      finishWaitingOutput := false },
    (if s.sendWaitingOutput then s.sendWaiter.toList else []) ++
      if s.finishWaitingOutput then s.finishWaiter.toList else [])

end StreamState

namespace Core

def new (lower : Connection β ν) (pendingLimit : ℕ) : Core β ν where
  lower
  role := lower.conn.role
  pendingLimit

def localInitiator (c : Core β ν) : Initiator :=
  match c.role with
  | .client => .client
  | .server => .server

def receiveDirectionValid (c : Core β ν) (id : StreamId) : Bool :=
  id.directionality = .bidirectional || id.initiator ≠ c.localInitiator

def wake (c : Core β ν) (wakes : List Waker) : Core β ν :=
  { c with effects := { c.effects with wakes := c.effects.wakes ++ wakes } }

def goOn (c : Core β ν) : Core β ν := { c with effects := { c.effects with continuation := true } }

def allocateOpener (c : Core β ν) : ℕ × Core β ν :=
  (c.nextOpener, { c with
    nextOpener := (c.nextOpener + 1) % 2 ^ 64
    openers := c.openers.insert c.nextOpener {} })

def removeOpener (c : Core β ν) (id : ℕ) : Core β ν := { c with openers := c.openers.erase id }

def setStream (c : Core β ν) (id : StreamId) (s : StreamState) : Core β ν :=
  { c with streams := c.streams.insert id s }

/-- What is done to every stream. -/
def mapStreams (c : Core β ν) (f : StreamState → StreamState) : Core β ν :=
  { c with streams := c.streams.map fun _ s => f s }

/-- What is done to every opener. -/
def mapOpeners (c : Core β ν) (f : OpenerWaiters → OpenerWaiters) : Core β ν :=
  { c with openers := c.openers.map fun _ o => f o }

/-- The wakers of all streams, in the order of the map. -/
def wakersOf (c : Core β ν) (f : StreamState → List Waker) : List Waker :=
  c.streams.toList.flatMap fun entry => f entry.2

def openersOf (c : Core β ν) (f : OpenerWaiters → List Waker) : List Waker :=
  c.openers.toList.flatMap fun entry => f entry.2

/-- What is done to a stream that the map holds, and who is woken. -/
def updateStream (c : Core β ν) (id : StreamId) (f : StreamState → StreamState × List Waker) :
    Core β ν :=
  match c.streams[id]? with
  | none => c
  | some s => (c.setStream id (f s).1).wake (f s).2

/-- The first ending is kept, and everyone who waits is woken. -/
def fail (c : Core β ν) (terminal : ConnectionTerminal) : Core β ν :=
  if c.terminal.isSome then c
  else
    let ended := { c with terminal := some terminal, acceptUni := none, acceptBidi := none }
    ((ended.mapOpeners fun _ => {}).mapStreams StreamState.abandon).wake
      (c.acceptUni.toList ++ c.acceptBidi.toList ++
        c.openersOf (fun o => o.uni.toList ++ o.bidi.toList) ++ c.wakersOf StreamState.waiters)

/-- `close`: the first reason is kept. -/
def requestClose (c : Core β ν) (code : ℕ) (reason : Bytes) : Core β ν :=
  if c.close.isSome then c
  else { c with close := some (closeReason code reason) }.fail (.application code)

def wakeAllSenders (c : Core β ν) : Core β ν :=
  (c.mapStreams fun s =>
    { s.takeSenders.1 with sendWaitingOutput := false, finishWaitingOutput := false }).wake
      (c.wakersOf fun s => s.takeSenders.2)

def wakeOutputSenders (c : Core β ν) : Core β ν :=
  (c.mapStreams fun s => s.outputDrained.1).wake (c.wakersOf fun s => s.outputDrained.2)

def wakeOpeners (c : Core β ν) (kind : OpenKind) : Core β ν :=
  match kind with
  | .uni => (c.mapOpeners fun o => { o with uni := none }).wake (c.openersOf fun o => o.uni.toList)
  | .bidi => (c.mapOpeners fun o => { o with bidi := none }).wake (c.openersOf fun o => o.bidi.toList)

def streamError (c : Core β ν) (id : StreamId) (send : Bool) : Option DirectionTerminal :=
  c.streams[id]?.bind fun s => if send then s.sendTerminal else s.recvTerminal

def parkSend (c : Core β ν) (id : StreamId) (finish waitingOutput : Bool) (waker : Waker) :
    Core β ν :=
  match c.streams[id]? with
  | none => c
  | some s =>
    let slot := replaceWaiter (if finish then s.finishWaiter else s.sendWaiter) waker
    let s := if finish then { s with finishWaiter := slot.1, finishWaitingOutput := waitingOutput }
      else { s with sendWaiter := slot.1, sendWaitingOutput := waitingOutput }
    let c := c.setStream id s
    if slot.2 then c.goOn else c

def parkRecv (c : Core β ν) (id : StreamId) (waker : Waker) : Core β ν :=
  match c.streams[id]? with
  | none => c
  | some s =>
    let slot := replaceWaiter s.recvWaiter waker
    let c := c.setStream id { s with recvWaiter := slot.1 }
    if slot.2 then c.goOn else c

def cleanup (c : Core β ν) (id : StreamId) : Core β ν :=
  match c.streams[id]? with
  | none => c
  | some s =>
    if !s.pendingAccept && s.lowerClosed && !s.sendHandle && !s.recvHandle && s.recv.isEmpty then
      { c with streams := c.streams.erase id }
    else c

def dropDirection (c : Core β ν) (id : StreamId) (send : Bool) : Core β ν :=
  (c.updateStream id fun s =>
    (if send then { s with sendHandle := false } else { s with recvHandle := false }, [])).cleanup id

/-- The queue of the streams that wait to be accepted, by directionality. -/
def pending (c : Core β ν) : AcceptKind → List StreamId
  | .uni => c.pendingUni
  | .bidi => c.pendingBidi

def acceptKind (id : StreamId) : AcceptKind :=
  match id.directionality with
  | .unidirectional => .uni
  | .bidirectional => .bidi

/-- A stream of the peer enters its queue. -/
def enqueue (c : Core β ν) (id : StreamId) : Core β ν :=
  let c := c.setStream id { pendingAccept := true }
  match acceptKind id with
  | .uni => { c with pendingUni := c.pendingUni ++ [id], acceptUni := none }.wake c.acceptUni.toList
  | .bidi => { c with pendingBidi := c.pendingBidi ++ [id], acceptBidi := none }.wake c.acceptBidi.toList

/-- The close that an adapter with too many pending streams asks for. -/
def overload (c : Core β ν) : Core β ν :=
  { c with
    close := c.close.orElse fun _ =>
      some (closeReason excessiveLoad "pending accept limit exceeded".toUTF8.toList)
    closeIsFailure := true }.fail (.application excessiveLoad)

/-- Whether the stream is known now, or the connection failed over it. -/
def discoverPeer (c : Core β ν) (id : StreamId) : Bool × Core β ν :=
  if c.streams.contains id then (true, c)
  else if id.initiator = c.localInitiator then
    (false, c.fail (.internal "unknown locally initiated stream"))
  else if c.pendingLimit ≤ c.pendingUni.length + c.pendingBidi.length then (false, c.overload)
  else (true, c.enqueue id)

/-- Data for a stream whose receive side was not shut down. -/
def receive (c : Core β ν) (id : StreamId) (s : StreamState) (data : Bytes) (fin : Bool) : Core β ν :=
  if data ≠ [] then
    (c.setStream id { s with recv := s.recv ++ [⟨data, fin⟩], recvWaiter := none }).wake
      s.recvWaiter.toList
  else if fin && s.recvTerminal.isNone then
    (c.setStream id { s with recvTerminal := some .finished, recvWaiter := none }).wake
      s.recvWaiter.toList
  else c

end Core

open Core

/-- How a direction of a closed stream ended. -/
def closedWith : Option ℕ → DirectionTerminal
  | some code => .reset code
  | none => .finished

/-- `StreamClosed` on a known stream. -/
def StreamState.lowerClose (s : StreamState) (rx tx : Option ℕ) : StreamState × List Waker :=
  ({ s with
      lowerClosed := true
      recvTerminal := s.recvTerminal.or (some (closedWith rx))
      sendTerminal := s.sendTerminal.or (some (closedWith tx))
      recvWaiter := none
      sendWaiter := none
      finishWaiter := none }, s.waiters)

/-- An operation of the layer below, its failure as a value. -/
def lowerCall {α : Type} (m : ConnectionM β ν α) : CoreM β ν (Except Error α) :=
  within lower (fun c lower => { c with lower }) (attempt m)

/-- The task that polls of the layer below register. -/
def lowerWaker : Waker := 0

section Native
variable [Dwnx ν]

/-! ## Receiving -/

/-- Connection credit for bytes nobody will read. -/
def refund (bytes : ℕ) : CoreM β ν Unit := do
  match ← lowerCall (extendConnectionCredit bytes) with
  | .ok () => pure ()
  | .error error => modify (·.fail (.fromLower error))

def routeData (id : StreamId) (data : Bytes) (fin : Bool) : CoreM β ν Unit := do
  let c ← get
  if !c.receiveDirectionValid id then
    set (c.fail (.internal "QMux delivered data on an impossible receive direction"))
  else
    let (known, c) := if c.streams.contains id then (true, c) else c.discoverPeer id
    set c
    if known then
      match c.streams[id]? with
      | none => fail "discovered stream"
      | some s =>
        if s.recvShutdownSent then
          if data ≠ [] then refund data.length
        else set (c.receive id s data fin)

def route (event : Event) : CoreM β ν Unit := do
  modify fun c => { c with routed := c.routed ++ [event] }
  match event with
  | .streamData id _ data fin => routeData id data fin
  | .streamOpened id =>
    modify fun c =>
      if id.initiator = c.localInitiator then
        c.fail (.internal "QMux reported a locally initiated stream as peer-opened")
      else (c.discoverPeer id).2
  | .streamClosed id rx tx => modify fun c => (c.updateStream id (·.lowerClose rx tx)).cleanup id
  | .streamReset id _ code =>
    modify (·.updateStream id fun s =>
      ({ s with recvTerminal := s.recvTerminal.or (some (.reset code)) }).takeRecv)
  | .stopSending id code =>
    modify (·.updateStream id fun s =>
      ({ s with sendTerminal := s.sendTerminal.or (some (.stopped code)), writing := none }).takeSenders)
  | .streamDataCredit id _ => modify (·.updateStream id StreamState.takeSenders)
  | .connectionDataCredit _ => modify wakeAllSenders
  | .streamLimit kind _ =>
    match kind with
    | .localBidi => modify (·.wakeOpeners .bidi)
    | .localUni => modify (·.wakeOpeners .uni)
    | .remoteBidi | .remoteUni => pure ()
  | .peerTransportParams => modify fun c => ((c.wakeOpeners .bidi).wakeOpeners .uni).wakeAllSenders

/-- A loop of `drive_turn` over the events already queued below: the budget that is left. -/
def routeQueued : ℕ → CoreM β ν ℕ
  | 0 => pure 0
  | budget + 1 => do
    match ← lowerCall takeEvent with
    | .ok (some event) =>
      route event
      if (← get).terminal.isSome then pure budget else routeQueued budget
    | _ => pure (budget + 1)

variable [AsyncByteStream β]

/-- The part of `drive_turn` that polls the layer below: the budget that is left, and whether the
poll gave an event. -/
def routePolled (fuel budget : ℕ) : CoreM β ν (ℕ × Bool) := do
  match ← lowerCall (pollNextEvent fuel lowerWaker) with
  | .ok (.ready event) =>
    route event
    if (← get).terminal.isSome then pure (budget - 1, true)
    else return (← routeQueued (budget - 1), true)
  | .error error =>
    modify (·.fail (.fromLower error))
    pure (budget, false)
  | .ok .pending => return (← routeQueued budget, false)

/-- `drive_turn` behind its first loop. -/
def finishTurn (fuel queuedBefore budget : ℕ) : CoreM β ν Unit := do
  let (budget, ready) ← if 0 < budget then routePolled fuel budget else pure (0, false)
  modify fun c =>
    if c.terminal.isNone && decide (c.lower.out.filled < queuedBefore) then c.wakeOutputSenders else c
  if budget = 0 || ready then modify goOn

def driveTurn (fuel : ℕ) : CoreM β ν Unit := do
  let c ← get
  if c.terminal.isSome then pure ()
  else
    let budget ← routeQueued routeBudget
    if (← get).terminal.isSome then pure () else finishTurn fuel c.lower.out.filled budget

/-! ## Accepting and opening -/

omit [AsyncByteStream β] [Dwnx ν] in
def parkAccept (c : Core β ν) (kind : AcceptKind) (waker : Waker) : Core β ν :=
  match kind with
  | .uni =>
    let slot := replaceWaiter c.acceptUni waker
    let c := { c with acceptUni := slot.1 }
    if slot.2 then c.goOn else c
  | .bidi =>
    let slot := replaceWaiter c.acceptBidi waker
    let c := { c with acceptBidi := slot.1 }
    if slot.2 then c.goOn else c

/-- The first stream of a queue, taken out of it. -/
def popPending (c : Core β ν) (kind : AcceptKind) (rest : List StreamId) : Core β ν :=
  match kind with
  | .uni => { c with pendingUni := rest }
  | .bidi => { c with pendingBidi := rest }

/-- The handles of an accepted stream exist from here on. -/
def StreamState.accept (s : StreamState) (kind : AcceptKind) : StreamState :=
  { s with pendingAccept := false, recvHandle := true, sendHandle := s.sendHandle || kind = .bidi }

def accept (kind : AcceptKind) (waker : Waker) :
    CoreM β ν (Except ConnectionTerminal (Option StreamId)) := do
  let c ← get
  match c.terminal with
  | some terminal => pure (.error terminal)
  | none =>
    match c.pending kind with
    | id :: rest =>
      match c.streams[id]? with
      | none =>
        set (popPending c kind rest)
        fail "queued stream"
      | some s =>
        set { (popPending c kind rest).setStream id (s.accept kind) with
          accepted := c.accepted ++ [id] }
        pure (.ok (some id))
    | [] =>
      set (parkAccept c kind waker)
      pure (.ok none)

def OpenKind.directionality : OpenKind → Directionality
  | .uni => .unidirectional
  | .bidi => .bidirectional

def parkOpen (c : Core β ν) (opener : ℕ) (kind : OpenKind) (waker : Waker) : Core β ν :=
  let slots := c.openers.getD opener {}
  match kind with
  | .uni =>
    let slot := replaceWaiter slots.uni waker
    let c := { c with openers := c.openers.insert opener { slots with uni := slot.1 } }
    if slot.2 then c.goOn else c
  | .bidi =>
    let slot := replaceWaiter slots.bidi waker
    let c := { c with openers := c.openers.insert opener { slots with bidi := slot.1 } }
    if slot.2 then c.goOn else c

def openStream (opener : ℕ) (kind : OpenKind) (waker : Waker) :
    CoreM β ν (Except ConnectionTerminal (Option StreamId)) := do
  match (← get).terminal with
  | some terminal => pure (.error terminal)
  | none =>
    match ← lowerCall (tryOpen kind.directionality) with
    | .error error =>
      modify (·.fail (.fromLower error))
      pure (.error (.fromLower error))
    | .ok (.opened id) =>
      modify (·.setStream id { sendHandle := true, recvHandle := decide (kind = .bidi) })
      pure (.ok (some id))
    | .ok .blocked =>
      modify (parkOpen · opener kind waker)
      pure (.ok none)

/-! ## Giving a direction up -/

/-- The part of `discard_receive` behind the shutdown: what was held is drained and credited. -/
def drainReceived (id : StreamId) (s : StreamState) (code : ℕ) :
    CoreM β ν (Except ConnectionTerminal Unit) := do
  let bytes := (s.recv.map (·.data.length)).sum
  modify (·.setStream id { s with recvTerminal := s.recvTerminal.or (some (.stopped code)), recv := [] })
  if bytes = 0 then pure (.ok ())
  else
    match ← lowerCall (extendConnectionCredit bytes) with
    | .ok () => pure (.ok ())
    | .error error => pure (.error (.fromLower error))

def discardReceive (id : StreamId) (code : ℕ) : CoreM β ν (Except ConnectionTerminal Unit) := do
  match (← get).streams[id]? with
  | none => pure (.ok ())
  | some s =>
    if s.recvTerminal.isNone && !s.recvShutdownSent then
      match ← lowerCall (shutdownStream id .read code) with
      | .error error => pure (.error (.fromLower error))
      | .ok () => drainReceived id { s with recvShutdownSent := true } code
    else drainReceived id s code

def resetSend (id : StreamId) (code : ℕ) : CoreM β ν (Except ConnectionTerminal Unit) := do
  match (← get).streams[id]? with
  | none => pure (.ok ())
  | some s =>
    if s.sendTerminal.isSome then pure (.ok ())
    else if s.sendShutdownSent then
      modify (·.setStream id { s with sendTerminal := some (.reset code) })
      pure (.ok ())
    else
      match ← lowerCall (shutdownStream id .write code) with
      | .error error => pure (.error (.fromLower error))
      | .ok () =>
        modify (·.setStream id { s with sendTerminal := some (.reset code), sendShutdownSent := true })
        pure (.ok ())

end Native

end Ngnet.HyperiumCore
