import Ngnet.QuicEndpointHandles

/-!
# The driver of a QUIC endpoint and its handles

`EndpointDriver` as a program over the operations of `QuicEndpoint`: the passes of `poll`, from draining
the dials to rearming the timer, and what is run when the driver is dropped. `endpoint` puts it together
with what handles and the owners of detached connections do in between.

A driver whose socket fails tells every connection so and stops.
-/

namespace Ngnet.QuicEndpointDriver
open QmuxVarints QmuxStreams InterleavedPrograms QuicEndpoint
open QmuxConnection (Poll)

abbrev DriverM (κ : Type) := Prog (Op κ) Error

structure Config where
  datagramsPerPass : ℕ := 64
  accepts : Bool := false
  deriving DecidableEq, Repr

variable {κ σ π α : Type}

/-- `poll` on a failure of the socket. -/
def stop : DriverM κ α := do
  perform (.failAll socketFailed)
  perform .markGone
  Prog.fail socketFailed

/-! ## Reading -/

def dialAll : ℕ → DriverM κ Unit
  | 0 => pure ()
  | n + 1 => do
    perform .dial
    dialAll n

def absorb (index : ℕ) : DriverM κ Unit := do
  let observed ← perform (.takeObserved index)
  if observed.isEmpty then pure ()
  else do
    perform (.setRetained index)
    if observed.contains .handshakeCompleted then perform (.markEstablished index)
    perform (.handOver index)
    perform (.putBack index observed)

def deliver (index : ℕ) (datagram : Bytes) : DriverM κ Unit := do
  if ← perform (.deliver index datagram) then absorb index

/-- `dispatch`; a datagram that is too short to be a packet draws nothing. -/
def dispatch (config : Config) (datagram : Bytes) (source : Address) : DriverM κ Unit := do
  match ← perform (.route datagram) with
  | some index => deliver index datagram
  | none =>
    if !config.accepts then pure ()
    else if datagram.length < 21 then pure ()
    else
      match ← perform (.begin datagram source) with
      | some index => do
        deliver index datagram
        perform (.announce index)
      | none => pure ()

/-- The loop of `read_datagrams`. -/
def readDatagrams (config : Config) : ℕ → Bool → DriverM κ Bool
  | 0, progressed => pure progressed
  | n + 1, progressed => do
    match ← perform .pollRecv with
    | .ready (.ok (datagram, source)) => do
      dispatch config datagram source
      readDatagrams config n true
    | .ready (.error ()) => stop
    | .pending => pure progressed

/-! ## Service -/

/-- The loop of `apply_commands`. -/
def runCommands (index : ℕ) : ℕ → DriverM κ Unit
  | 0 => pure ()
  | n + 1 => do
    if ← perform (.runCommand index) then runCommands index n

def applyCommands (index : ℕ) : DriverM κ Unit := do
  runCommands index (← perform (.takeCommands index))

def handleExpiry (index : ℕ) : DriverM κ Unit := do
  if ← perform (.handleExpiry index) then absorb index

/-- The loop of `service`. -/
def serviceEach : List ℕ → DriverM κ Unit
  | [] => pure ()
  | index :: indices => do
    perform (.applyRoutes index)
    applyCommands index
    handleExpiry index
    serviceEach indices

def flushOutbox : ℕ → DriverM κ Unit
  | 0 => Prog.outOfFuel
  | fuel + 1 => do
    match ← perform .sendOutbox with
    | .sent => flushOutbox fuel
    | .nothing | .refused => pure ()
    | .failed => stop

def flushConnection (index : ℕ) : ℕ → DriverM κ Unit
  | 0 => Prog.outOfFuel
  | fuel + 1 => do
    match ← perform (.sendNext index) with
    | .sent => flushConnection index fuel
    | .nothing | .refused => pure ()
    | .failed => stop

def flushEach (fuel : ℕ) : List ℕ → DriverM κ Unit
  | [] => pure ()
  | index :: indices => do
    flushConnection index fuel
    flushEach fuel indices

def flush (fuel : ℕ) : DriverM κ Unit := do
  flushOutbox fuel
  flushEach fuel (← perform .keys)

def findDead : List ℕ → DriverM κ (List ℕ)
  | [] => pure []
  | index :: indices => do
    let done ← perform (.isDone index)
    let dead ← findDead indices
    pure (if done then index :: dead else dead)

def removeDead : List ℕ → DriverM κ Unit
  | [] => pure ()
  | index :: dead => do
    perform (.remove index)
    removeDead dead

def evict : DriverM κ Unit := do
  removeDead (← findDead (← perform .keys))

def service (fuel : ℕ) : DriverM κ Unit := do
  serviceEach (← perform .keys)
  flush fuel
  evict

/-! ## Polls -/

/-- The loop of `poll`, which yields once it has read. -/
def passes (config : Config) (fuel : ℕ) : ℕ → DriverM κ Unit
  | 0 => pure ()
  | n + 1 => do
    dialAll (← perform .drainDials)
    let read ← readDatagrams config config.datagramsPerPass false
    service fuel
    let fired ← perform .rearm
    if read then pure ()
    else if !fired && !(← perform .hasPending) then pure ()
    else passes config fuel n

def run (config : Config) (fuel : ℕ) : ℕ → DriverM κ Unit
  | 0 => Prog.outOfFuel
  | n + 1 => do
    perform .await
    passes config fuel 8
    run config fuel n

def driverDropped : Error := ⟨.driverGone, "the endpoint driver was dropped", none, none⟩

def dialDropped : Error :=
  ⟨.driverGone, "the endpoint driver was dropped before this connection was opened", none, none⟩

/-- `Drop` of the driver. -/
def drop : Prog (Op κ) Empty Unit := do
  perform (.failAll driverDropped)
  perform (.failDials dialDropped)
  perform .markGone

def yields : {β : Type} → Op κ β → Bool
  | _, .await => true
  | _, _ => false

/-! ## The endpoint -/

/-- A driver, and the handles that act in between. -/
def endpoint [Transport κ] [Socket σ] [Platform π κ] (config : Config) (fuel : ℕ) :
    System (Op κ) Error Unit (World κ σ π) Action where
  program := run config fuel fuel
  cleanup := drop
  yields := yields
  act action w := w.act action

/-- `build` and `build_detachable`. -/
def built (socket : σ) (platform : π) (detachable : Bool) : World κ σ π where
  driver := { socket, platform, detachable }

end Ngnet.QuicEndpointDriver
