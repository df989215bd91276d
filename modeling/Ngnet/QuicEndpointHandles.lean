import Ngnet.QuicEndpoint

/-!
# The handles of a QUIC endpoint

`Endpoint` and `Connection`, and the owners of detached connections: what each of their calls does to what
they share with the driver. A call that looks at the state before it queues something is two actions. What
an owner does with its connection is not modelled: it may queue any datagram at any time.
-/

namespace Ngnet.QuicEndpoint
open QmuxVarints QmuxStreams

variable {κ σ π : Type}

def notRunning : Error := ⟨.driverGone, "the endpoint driver is not running", none, none⟩

/-- What handles, and the owners of detached connections, do. -/
inductive Action
  /-- `connect` or `connect_detached`, up to queueing the dial. -/
  | connect (remote : Address) (serverName : Option String) (detach : Bool)
  /-- One of the calls that are about to queue their dial queues it. -/
  | pushDial (c : ℕ)
  | acceptDetached
  /-- A `Connecting` resolves. -/
  | connected (c : ℕ)
  /-- `Accepting::take_ready`, and the connection it resolves to. -/
  | takeReady
  -- a `Connection`
  | openStream (c : ℕ) (bidi : Bool)
  | takeOpened (c : ℕ) (directionality : Directionality)
  /-- `write`, up to queueing it. -/
  | write (c : ℕ) (write : Write)
  | pushWrite (c : ℕ)
  | read (c : ℕ) (stream : StreamId)
  | acceptStream (c : ℕ)
  | resetStream (c : ℕ) (stream : StreamId) (code : ℕ)
  | stopSending (c : ℕ) (stream : StreamId) (code : ℕ)
  | close (c : ℕ) (code : ℕ) (reason : Bytes)
  | dropHandle (c : ℕ)
  -- a `Detaching` and a `DetachedConnection`
  | collect (key : Option ℕ)
  | giveUp (c : ℕ)
  | abandon (c : ℕ)
  | markAbandoned (c : ℕ)
  | takeInbound (c : ℕ)
  | takeObserved (c : ℕ)
  /-- The handlers fire within a call that the owner makes. -/
  | note (c : ℕ) (notes : List Note)
  | send (c : ℕ) (datagram : Bytes)
  | sendClose (c : ℕ) (datagram : Bytes)
  | release (c : ℕ)
  | dropDetached (c : ℕ)

namespace Handle

/-- Changes the entry of a key, which is `default` where there is none. -/
def modifyEntry {α β : Type} [DecidableEq α] (entries : List (α × β)) (key : α) (default : β) (f : β → β) : List (α × β) :=
  match entries.find? (·.1 = key) with
  | some (_, value) => (key, f value) :: entries.filter (·.1 ≠ key)
  | none => (key, f default) :: entries

def absorbOne (h : Handle) : Observed → Handle
  | .data stream bytes fin => { h with incoming := modifyEntry h.incoming stream {} fun slot =>
      { slot with bytes := slot.bytes ++ bytes, finished := slot.finished || fin } }
  | .opened stream => { h with pendingStreams := h.pendingStreams ++ [stream] }
  | .closed stream receiving _ => { h with incoming := modifyEntry h.incoming stream {} fun slot =>
      { slot with finished := true, reset := slot.reset.or receiving } }
  | .reset stream code => { h with incoming := modifyEntry h.incoming stream {} fun slot =>
      { slot with finished := true, reset := some (slot.reset.getD code) } }
  | .stopSending stream code => { h with stopped := modifyEntry h.stopped stream code fun _ => code }
  | .acked stream len => { h with acked := modifyEntry h.acked stream 0 (· + len) }
  | .locallyOpened _ | .handshakeCompleted | .streamsExtended _ => h

def absorb (h : Handle) (observed : List Observed) : Handle := observed.foldl absorbOne h

end Handle

namespace World

def setHandle (w : World κ σ π) (c : ℕ) (handle : Option Handle) : World κ σ π :=
  { w with handles := Function.update w.handles c handle }

/-- `Connection::absorb`. -/
def absorb (w : World κ σ π) (c : ℕ) (handle : Handle) : Handle × World κ σ π :=
  (handle.absorb (w.shareds c).observed, w.modifyShared c ({ · with observed := [] }))

/-- `take_ready`, which looks at `n` more candidates. -/
def takeReady (shareds : ℕ → ConnectionShared) : ℕ → List ℕ → Option ℕ × List ℕ
  | 0, accepted => (none, accepted)
  | _, [] => (none, [])
  | n + 1, candidate :: accepted =>
    if (shareds candidate).established then (some candidate, accepted)
    else if (shareds candidate).closed then takeReady shareds n accepted
    else takeReady shareds n (accepted ++ [candidate])

def connect (w : World κ σ π) (remote : Address) (serverName : Option String) (detach : Bool) : World κ σ π :=
  let w' := ({ w.ask { detach } with
    detaching := if detach then w.created :: w.detaching else w.detaching } : World κ σ π).onHistory fun h =>
      { h with dialled := w.created :: h.dialled }
  if w.endpoint.gone then w'.modifyShared w.created (·.fail notRunning)
  else { w' with connecting := w.connecting ++ [⟨remote, serverName, w.created⟩] }

def pushDial (w : World κ σ π) (c : ℕ) : World κ σ π :=
  match w.connecting.find? (·.shared = c) with
  | none => w
  | some dial => { w with
    connecting := w.connecting.eraseP (·.shared = c)
    endpoint := { w.endpoint with dials := w.endpoint.dials ++ [dial] } }

/-- Queues a command of a handle. -/
def command (w : World κ σ π) (c : ℕ) (command : Command) : World κ σ π :=
  match w.handles c with
  | some _ => w.modifyShared c (·.push command)
  | none => w

/-- The same, of one whose connection has not ended. -/
def commandIfOpen (w : World κ σ π) (c : ℕ) (command : Command) : World κ σ π :=
  if (w.shareds c).closed then w else w.command c command

def write (w : World κ σ π) (c : ℕ) (write : Write) : World κ σ π :=
  match w.handles c with
  | none => w
  | some handle =>
    if handle.writing.isSome || (w.shareds c).closed then w
    else
      let (handle, w) := w.absorb c handle
      if (handle.stopped.find? (·.1 = write.stream)).isSome then w.setHandle c (some handle)
      else w.setHandle c (some { handle with writing := some write })

def pushWrite (w : World κ σ π) (c : ℕ) : World κ σ π :=
  match w.handles c with
  | none => w
  | some handle =>
    match handle.writing with
    | none => w
    | some write => ((w.modifyShared c (·.push (.write write.stream write.data write.fin))).setHandle c
        (some { handle with writing := none })).onHistory fun h => { h with written := h.written ++ [(c, write)] }

/-- A poll of `ReadStream`, up to registering its waker. -/
def read (w : World κ σ π) (c : ℕ) (stream : StreamId) : World κ σ π :=
  match w.handles c with
  | none => w
  | some handle =>
    let (handle, w) := w.absorb c handle
    match handle.incoming.find? (·.1 = stream) with
    | none => w.setHandle c (some handle)
    | some (_, slot) =>
      if slot.bytes.isEmpty then w.setHandle c (some handle)
      else (w.modifyShared c (·.push (.extendCredit stream slot.bytes.length))).setHandle c (some { handle with
        incoming := Handle.modifyEntry handle.incoming stream {} ({ · with bytes := [] }) })

def acceptStream (w : World κ σ π) (c : ℕ) : World κ σ π :=
  match w.handles c with
  | none => w
  | some handle =>
    let (handle, w) := w.absorb c handle
    w.setHandle c (some { handle with pendingStreams := handle.pendingStreams.tail })

def dropHandle (w : World κ σ π) (c : ℕ) : World κ σ π := (w.commandIfOpen c (.close 0 [])).setHandle c none

/-- `DetachQueue::take`: a caller takes the connection it asked for, or an acceptor one of those accepted. -/
def collect (w : World κ σ π) (key : Option ℕ) : World κ σ π :=
  if key.all (w.detaching.contains ·) then
    match w.ready.find? (·.key = key) with
    | none => w
    | some d => { w with
        ready := w.ready.eraseP (·.key = key)
        detaching := w.detaching.filter (some · ≠ key)
        owned := d.shared :: w.owned }
  else w

/-- A `Detaching` settles with an error. -/
def giveUp (w : World κ σ π) (c : ℕ) : World κ σ π :=
  if (w.shareds c).closed || w.endpoint.gone then { w with detaching := w.detaching.filter (· ≠ c) } else w

/-- A `Detaching` is dropped that has not settled: `DetachQueue::abandon`. -/
def abandon (w : World κ σ π) (c : ℕ) : World κ σ π :=
  if c ∈ w.detaching then
    let w' := { w with detaching := w.detaching.filter (· ≠ c), dropping := c :: w.dropping }
    match w.ready.find? (·.key = some c) with
    | none => w'
    | some d => { w'.modifyShared d.shared (·.markTerminal) with ready := w.ready.eraseP (·.key = some c) }
  else w

/-- The end of that drop. -/
def markAbandoned (w : World κ σ π) (c : ℕ) : World κ σ π :=
  if c ∈ w.dropping then
    ({ w.modifyShared c (·.markTerminal) with dropping := w.dropping.filter (· ≠ c) } : World κ σ π).onHistory fun h =>
      { h with abandoned := c :: h.abandoned }
  else w

/-- The handlers of a detached connection fire. -/
def note (w : World κ σ π) (c : ℕ) (notes : List Note) : World κ σ π :=
  if c ∈ w.owned then
    (w.modifyShared c fun s => notes.foldl .note s).recordRoutes c (notes.filterMap Note.routing)
  else w

/-- What the owner of a detached connection does to what it shares with the endpoint. -/
def own (w : World κ σ π) (c : ℕ) (f : ConnectionShared → ConnectionShared) : World κ σ π :=
  if c ∈ w.owned then w.modifyShared c f else w

def send (w : World κ σ π) (c : ℕ) (datagram : Bytes) : World κ σ π :=
  if c ∈ w.owned && (w.shareds c).outboundHasRoom then
    (w.modifyShared c (·.queueOutbound datagram)).recordProduced (some c) datagram
  else w

def sendClose (w : World κ σ π) (c : ℕ) (datagram : Bytes) : World κ σ π :=
  if c ∈ w.owned && (w.shareds c).closeOutbound.isNone then
    (w.modifyShared c (·.queueCloseOutbound datagram)).recordProduced (some c) datagram
  else w

def act (w : World κ σ π) : Action → World κ σ π
  | .connect remote serverName detach => w.connect remote serverName detach
  | .pushDial c => w.pushDial c
  | .acceptDetached => { w with endpoint := { w.endpoint with detachedAccepts := true } }
  | .connected c =>
    if (w.shareds c).established && !(w.shareds c).detach && (w.handles c).isNone then w.setHandle c (some {}) else w
  | .takeReady =>
    let (found, accepted) := takeReady w.shareds w.endpoint.accepted.length w.endpoint.accepted
    let w := { w with endpoint := { w.endpoint with accepted } }
    match found with
    | some c => w.setHandle c (some {})
    | none => w
  | .openStream c bidi => w.command c (.openStream bidi)
  | .takeOpened c directionality =>
    w.modifyShared c fun s => { s with observed := s.observed.eraseP fun event => match event with
      | .locallyOpened id => id.directionality = directionality
      | _ => false }
  | .write c write => w.write c write
  | .pushWrite c => w.pushWrite c
  | .read c stream => w.read c stream
  | .acceptStream c => w.acceptStream c
  | .resetStream c stream code => w.commandIfOpen c (.reset stream code)
  | .stopSending c stream code => w.commandIfOpen c (.stopSending stream code)
  | .close c code reason => w.command c (.close code reason)
  | .dropHandle c => w.dropHandle c
  | .collect key => w.collect key
  | .giveUp c => w.giveUp c
  | .abandon c => w.abandon c
  | .markAbandoned c => w.markAbandoned c
  | .takeInbound c => w.own c fun s => { s with inbound := s.inbound.tail }
  | .takeObserved c => w.own c ({ · with observed := [] })
  | .note c notes => w.note c notes
  | .send c datagram => w.send c datagram
  | .sendClose c datagram => w.sendClose c datagram
  | .release c => w.own c (·.markTerminal)
  | .dropDetached c => { w with owned := w.owned.erase c }

end World

end Ngnet.QuicEndpoint
