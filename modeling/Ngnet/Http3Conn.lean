import Mathlib.Data.List.Sort
import Ngnet.Http3OutgoingBodies
import Ngnet.Http3Handles

/-!
# The HTTP/3 state machine and what it reports

The crate `ngnet-h3`: `conn.rs`, `state.rs`, `callbacks.rs` and `send.rs`, with `http/events.rs` and
`http/body/outgoing.rs`. nghttp3 is a parameter, the class `Nghttp3`. Within a call it calls back any
number of times, for any streams, before it returns; such a call is a tree, `Native`, that branches
on what the data callback answers.

The driver registers no handler for deferred credit and silences no section, so neither is here. The
lent buffer and the clock are left out: a chunk is the same bytes whether it is a view or a copy.
-/

namespace Ngnet.Http3Conn
open QmuxVarints QmuxStreams Http3Heads Http3Handles
open Http3OutgoingBodies hiding Event step reached

/-! ## Streams and observations -/

def isLocalUnidirectional (stream : StreamId) (role : Role) : Bool :=
  stream.directionality = .unidirectional &&
    decide (stream.initiator = match role with
      | .client => Initiator.client
      | .server => Initiator.server)

def isClientBidirectional (stream : StreamId) : Bool :=
  stream.directionality = .bidirectional && stream.initiator = .client

inductive FieldSection | headers | trailers
  deriving DecidableEq, Repr

structure StreamClosed where
  receiving : Option ℕ
  sending : Option ℕ
  deriving DecidableEq, Repr

inductive Shutdown
  | notice
  | noStreamsFrom (stream : StreamId)
  | noPushesFrom (id : ℕ)
  deriving DecidableEq, Repr

structure PeerSettings where
  maxFieldSectionSize : ℕ
  qpackMaxDtableCapacity : ℕ
  qpackBlockedStreams : ℕ
  enableConnectProtocol : Bool
  h3Datagram : Bool
  deriving DecidableEq, Repr

inductive Observation
  | head (stream : StreamId) (fieldSection : FieldSection) (fields : List Field)
  | data (stream : StreamId) (bytes : Bytes)
  | ended (stream : StreamId)
  | closed (stream : StreamId) (closed : StreamClosed)
  | shutdown (shutdown : Shutdown)
  | settings (settings : PeerSettings)
  deriving DecidableEq, Repr

/-- A field section being accumulated. The section that began it is never read back. -/
structure Partial where
  fieldSection : Option FieldSection := none
  fields : List Field := []
  deriving DecidableEq, Repr

structure Events where
  partials : List (StreamId × Partial) := []
  observed : List Observation := []
  deriving DecidableEq, Repr

namespace Events

/-- Applies `f` to the partial section of a stream, which is made if there is none. -/
def onSlot (stream : StreamId) (f : Partial → Partial) : List (StreamId × Partial) → List (StreamId × Partial)
  | [] => [(stream, f {})]
  | entry :: rest => if entry.1 = stream then (stream, f entry.2) :: rest else entry :: onSlot stream f rest

def beginSection (events : Events) (stream : StreamId) (fieldSection : FieldSection) : Events :=
  { events with partials := onSlot stream (fun _ => ⟨some fieldSection, []⟩) events.partials }

def pushField (events : Events) (stream : StreamId) (name value : Bytes) : Events :=
  { events with
    partials := onSlot stream (fun slot => { slot with fields := slot.fields ++ [(name, value)] }) events.partials }

def push (events : Events) (observation : Observation) : Events :=
  { events with observed := events.observed ++ [observation] }

def endSection (events : Events) (stream : StreamId) (fieldSection : FieldSection) : Events :=
  match events.partials.find? (·.1 = stream) with
  | none => events
  | some entry =>
    { events with partials := events.partials.eraseP (·.1 = stream) }.push
      (.head stream fieldSection entry.2.fields)

def pushClosed (events : Events) (stream : StreamId) (closed : StreamClosed) : Events :=
  { events with partials := events.partials.filter (·.1 ≠ stream) }.push (.closed stream closed)

def isClosedOf (stream : StreamId) : Observation → Bool
  | .closed other _ => other = stream
  | _ => false

def discardClosedSince (events : Events) (checkpoint : ℕ) (stream : StreamId) : Events :=
  { events with
    observed := events.observed.take checkpoint ++
      (events.observed.drop checkpoint).filter fun observation => !isClosedOf stream observation }

end Events

/-! ## nghttp3 -/

structure Offer where
  stream : StreamId
  slices : List Bytes
  fin : Bool
  deriving DecidableEq, Repr

def Offer.len (offer : Offer) : ℕ := (offer.slices.map List.length).sum

inductive Callback
  | deferredConsume (stream : StreamId) (consumed : ℕ)
  | beginSection (stream : StreamId) (fieldSection : FieldSection)
  | field (stream : StreamId) (name value : Bytes)
  | endSection (stream : StreamId) (fieldSection : FieldSection)
  | recvData (stream : StreamId) (data : Bytes)
  | endStream (stream : StreamId)
  | ackedStreamData (stream : StreamId) (datalen : ℕ)
  | streamClose (stream : StreamId) (closed : StreamClosed)
  | stopSending (stream : StreamId) (code : ℕ)
  | resetStream (stream : StreamId) (code : ℕ)
  | shutdown (id : ℤ)
  | recvSettings (settings : PeerSettings)
  deriving DecidableEq, Repr

/-- What nghttp3 does within one call. A failure is its error code. -/
inductive Native (ν α : Type)
  | returns (result : Except ℤ α) (raw : ν)
  | callback (call : Callback) (next : Native ν α)
  | readData (stream : StreamId) (veccnt : ℕ) (next : DataResult → Native ν α)

/-- The calls during which nghttp3 calls back. -/
inductive NativeCall : Type → Type
  | readStream (stream : StreamId) (data : Bytes) (fin : Bool) : NativeCall ℕ
  | writevStream : NativeCall (Option Offer)
  | closeStream (stream : StreamId) (closed : StreamClosed) : NativeCall Unit
  | addAckOffset (stream : StreamId) (n : ℕ) : NativeCall Unit

class Nghttp3 (ν : Type) where
  call : {α : Type} → NativeCall α → ν → Native ν α
  bindControlStream : StreamId → ν → Option ℤ × ν
  bindQpackStreams : StreamId → StreamId → ν → Option ℤ × ν
  submitRequest : StreamId → List Header → Bool → ν → Option ℤ × ν
  submitResponse : StreamId → List Header → Bool → ν → Option ℤ × ν
  submitTrailers : StreamId → List Header → ν → Option ℤ × ν
  addWriteOffset : StreamId → ℕ → ν → Option ℤ × ν
  blockStream : StreamId → ν → ν
  unblockStream : StreamId → ν → Option ℤ × ν
  resumeStream : StreamId → ν → Option ℤ × ν
  shutdownStreamRead : StreamId → ν → Option ℤ × ν
  shutdownStreamWrite : StreamId → ν → ν
  shutdown : ν → Option ℤ × ν
  isFatal : ℤ → Bool
  inferAppErrorCode : ℤ → ℕ

/-! ## Outgoing bodies -/

inductive Ending
  | clean
  | trailers (fields : HeaderMap)
  | failed
  deriving DecidableEq, Repr

/-- How the pulls before the `n`-th have stopped the body, if they have. -/
def stoppedBy (body : CallerBody) : ℕ → Option Stop
  | 0 => none
  | n + 1 =>
    match stoppedBy body n, (body.pulls n).2 with
    | some stop, _ => some stop
    | none, .pending => none
    | none, stop => some stop

/-- The chunks of a pull that have bytes in them, retained as they are. -/
def pieces (chunks : List Bytes) : List RetainedBytes := (chunks.filter (· ≠ [])).map fun chunk => ⟨chunk, chunk⟩

/-- `Outgoing::next`, at its `n`-th call. -/
def pulled (body : CallerBody) (n : ℕ) : BodyOutcome :=
  match stoppedBy body n with
  | some .failed => .defer
  | some _ => .eof []
  | none =>
    match body.pulls n with
    | (chunks, .pending) => if pieces chunks = [] then .defer else .wrote (pieces chunks)
    | (chunks, .clean) => .eof (pieces chunks)
    | (chunks, .trailers _) => .eofWithTrailers (pieces chunks)
    | (_, .failed) => .defer

/-- The ending that the `n`-th call of `Outgoing::next` leaves word of. -/
def endingOf (body : CallerBody) (n : ℕ) : Option Ending :=
  match stoppedBy body n, (body.pulls n).2 with
  | some _, _ => none
  | none, .pending => none
  | none, .clean => some .clean
  | none, .trailers fields => some (.trailers fields)
  | none, .failed => some .failed

/-- `Outgoing` in the entry that retains what it handed over. `ending` says where it leaves word. -/
structure Outgoing where
  body : CallerBody
  ending : ℕ
  entry : BodyEntry

def Outgoing.new (body : CallerBody) (ending : ℕ) : Outgoing := ⟨body, ending, .new (pulled body)⟩

/-! ## The connection -/

structure Offsets where
  committed : ℕ := 0
  acked : ℕ := 0
  deriving DecidableEq, Repr

/-- `crate::Error`; its category is never consulted here. -/
structure CoreError where
  context : String
  native : Option ℤ := none
  unusable : Bool := false
  deriving DecidableEq, Repr

def invalidInput (context : String) : CoreError := { context }

def unusableError : CoreError where
  context := "the connection encountered an unrecoverable error and cannot be used"
  unusable := true

structure Conn (ν : Type) where
  raw : ν
  role : Role
  bodies : List (StreamId × Outgoing) := []
  offsets : List (StreamId × Offsets) := []
  unclaimedCredit : List (StreamId × ℕ) := []
  control : Option StreamId := none
  qpack : Option (StreamId × StreamId) := none
  shutdownStarted : Bool := false
  poison : Option String := none

variable {ν α : Type}

/-- The entry of a stream in a map. -/
def lookup {γ : Type} (stream : StreamId) (entries : List (StreamId × γ)) : Option γ :=
  (entries.find? (·.1 = stream)).map (·.2)

def forget {γ : Type} (stream : StreamId) (entries : List (StreamId × γ)) : List (StreamId × γ) :=
  entries.filter (·.1 ≠ stream)

def replace {γ : Type} (stream : StreamId) (value : γ) (entries : List (StreamId × γ)) : List (StreamId × γ) :=
  (stream, value) :: forget stream entries

section Errors
variable [Nghttp3 ν]

def CoreError.isFatal (ν : Type) [Nghttp3 ν] (error : CoreError) : Bool :=
  error.unusable || error.native.any (Nghttp3.isFatal ν)

/-- `From<crate::Error> for Error`. -/
def ofCore (ν : Type) [Nghttp3 ν] (error : CoreError) : Error where
  kind := if error.isFatal ν then .connection else .stream
  detail := "the HTTP/3 state machine failed"
  code := error.native.map (Nghttp3.inferAppErrorCode ν)

namespace Conn

/-- `record`: what a failed call leaves. -/
def record (c : Conn ν) (code : ℤ) (context : String) (pathIsFatal : Bool) : CoreError × Conn ν :=
  if pathIsFatal || Nghttp3.isFatal ν code then
    (⟨context, some code, true⟩, { c with poison := c.poison <|> some context, bodies := [], offsets := [] })
  else (⟨context, some code, false⟩, c)

/-- A native call that answers with a code. -/
def native (c : Conn ν) (f : ν → Option ℤ × ν) (context : String) : Except CoreError Unit × Conn ν :=
  match f c.raw with
  | (none, raw) => (.ok (), { c with raw })
  | (some code, raw) =>
    let (error, c) := { c with raw }.record code context false
    (.error error, c)

/-! ## Calls that do not call back -/

def unused (c : Conn ν) (stream : StreamId) : Bool :=
  c.control ≠ some stream && !c.qpack.any fun (encoder, decoder) => encoder = stream || decoder = stream

def requireLocalUnidirectional (c : Conn ν) (stream : StreamId) : Except CoreError Unit :=
  if isLocalUnidirectional stream c.role then .ok ()
  else .error (invalidInput (match stream.directionality with
    | .bidirectional => "a connection-level stream must be unidirectional, not bidirectional"
    | .unidirectional => "a connection-level stream must be opened by this endpoint, not the peer"))

def requireUnused (c : Conn ν) (stream : StreamId) : Except CoreError Unit :=
  if c.unused stream then .ok ()
  else .error (invalidInput "that stream has already been declared for another connection-level role")

def requireBound (c : Conn ν) : Except CoreError Unit :=
  if c.control = none then .error (invalidInput
    "the control stream has not been bound; HTTP/3 requires one before an exchange")
  else if c.qpack = none then .error (invalidInput
    "the QPACK streams have not been bound; HTTP/3 requires them before an exchange")
  else .ok ()

/-- Behind the checks that a call makes before it reaches nghttp3. -/
def checked (c : Conn ν) (checks : List (Except CoreError Unit)) (call : Conn ν → Except CoreError Unit × Conn ν) :
    Except CoreError Unit × Conn ν :=
  match c.poison with
  | some _ => (.error unusableError, c)
  | none =>
    match checks.findSome? (fun
      | .error error => some error
      | .ok () => none) with
    | some error => (.error error, c)
    | none => call c

def check (holds : Bool) (context : String) : Except CoreError Unit :=
  if holds then .ok () else .error (invalidInput context)

def bindControlStream (c : Conn ν) (stream : StreamId) : Except CoreError Unit × Conn ν :=
  c.checked [c.requireLocalUnidirectional stream,
      check (c.control ≠ some stream) "the control stream has already been bound to this stream",
      check (c.control = none) "the control stream has already been bound", c.requireUnused stream] fun c =>
    match c.native (Nghttp3.bindControlStream stream) "could not bind the control stream" with
    | (.ok (), c) => (.ok (), { c with control := some stream })
    | failed => failed

def bindQpackStreams (c : Conn ν) (encoder decoder : StreamId) : Except CoreError Unit × Conn ν :=
  c.checked [c.requireLocalUnidirectional encoder, c.requireLocalUnidirectional decoder,
      check (encoder ≠ decoder) "the QPACK encoder and decoder cannot share one stream",
      check (c.qpack = none) "the QPACK streams have already been bound",
      c.requireUnused encoder, c.requireUnused decoder] fun c =>
    match c.native (Nghttp3.bindQpackStreams encoder decoder) "could not bind the QPACK streams" with
    | (.ok (), c) => (.ok (), { c with qpack := some (encoder, decoder) })
    | failed => failed

/-- `attach_body`, the submission, and `detach_attached` where it fails. -/
def submit (c : Conn ν) (stream : StreamId) (body : Option Outgoing) (f : Bool → ν → Option ℤ × ν) (context : String) :
    Except CoreError Unit × Conn ν :=
  match body with
  | none => c.native (f false) context
  | some body =>
    if (lookup stream c.bodies).isSome then
      (.error (invalidInput "that stream already carries an outgoing body"), c)
    else match { c with bodies := (stream, body) :: c.bodies }.native (f true) context with
      | (.ok (), c) => (.ok (), c)
      | (.error error, c) => (.error error, { c with bodies := forget stream c.bodies })

def submitRequest (c : Conn ν) (stream : StreamId) (fields : List Header) (body : Option Outgoing) :
    Except CoreError Unit × Conn ν :=
  c.checked [check (c.role = .client) "only a client submits requests; a server submits responses",
      check (isClientBidirectional stream) "a request needs a client-initiated bidirectional stream",
      c.requireBound] fun c =>
    c.submit stream body (Nghttp3.submitRequest stream fields) "could not submit the request"

def submitResponse (c : Conn ν) (stream : StreamId) (fields : List Header) (body : Option Outgoing) :
    Except CoreError Unit × Conn ν :=
  c.checked [check (c.role = .server) "only a server submits responses; a client submits requests",
      check (isClientBidirectional stream)
        "a response belongs on the client-initiated stream its request arrived on",
      c.requireBound] fun c =>
    c.submit stream body (Nghttp3.submitResponse stream fields) "could not submit the response"

def submitTrailers (c : Conn ν) (stream : StreamId) (fields : List Header) : Except CoreError Unit × Conn ν :=
  c.checked [check (isClientBidirectional stream)
      "trailers belong on a client-initiated bidirectional stream, not a connection-level one",
      c.requireBound] fun c =>
    c.native (Nghttp3.submitTrailers stream fields) "could not submit the trailers"

def recordCommitted (c : Conn ν) (stream : StreamId) (n : ℕ) : Conn ν :=
  if n = 0 then c
  else
    let offsets := (lookup stream c.offsets).getD {}
    let committed := min (offsets.committed + n) (2 ^ 64 - 1)
    { c with offsets := replace stream { offsets with committed } c.offsets }

/-- `SendGuard::commit`. -/
def commit (c : Conn ν) (offer : Offer) (accepted : ℕ) : Except CoreError Unit × Conn ν :=
  if offer.len < accepted then (.error (invalidInput "committed more bytes than were offered"), c)
  else match c.native (Nghttp3.addWriteOffset offer.stream accepted) "could not record the bytes written" with
    | (.ok (), c) => (.ok (), c.recordCommitted offer.stream accepted)
    | failed => failed

def shutdown (c : Conn ν) : Except CoreError Unit × Conn ν :=
  c.checked [check c.control.isSome
        "the control stream has not been bound; connection-level frames have nowhere to go",
      check (!c.shutdownStarted)
        "the graceful shutdown has already been started, and its cut-off may not be raised"] fun c =>
    match c.native Nghttp3.shutdown "could not start the graceful shutdown" with
    | (.ok (), c) => (.ok (), { c with shutdownStarted := true })
    | failed => failed

end Conn

/-- The calls during which nothing calls back. -/
inductive ConnCall
  | bindControlStream (stream : StreamId)
  | bindQpackStreams (encoder decoder : StreamId)
  | submitRequest (stream : StreamId) (fields : List Header) (body : Option Outgoing)
  | submitResponse (stream : StreamId) (fields : List Header) (body : Option Outgoing)
  | submitTrailers (stream : StreamId) (fields : List Header)
  | commit (offer : Offer) (accepted : ℕ)
  | blockStream (stream : StreamId)
  | unblockStream (stream : StreamId)
  | resumeStream (stream : StreamId)
  | shutdownStreamRead (stream : StreamId)
  | shutdownStreamWrite (stream : StreamId)
  | shutdown

namespace Conn

def call (c : Conn ν) : ConnCall → Except CoreError Unit × Conn ν
  | .bindControlStream stream => c.bindControlStream stream
  | .bindQpackStreams encoder decoder => c.bindQpackStreams encoder decoder
  | .submitRequest stream fields body => c.submitRequest stream fields body
  | .submitResponse stream fields body => c.submitResponse stream fields body
  | .submitTrailers stream fields => c.submitTrailers stream fields
  | .commit offer accepted => c.commit offer accepted
  | .blockStream stream => c.checked [] fun c => (.ok (), { c with raw := Nghttp3.blockStream stream c.raw })
  | .unblockStream stream => c.checked [] fun c =>
    c.native (Nghttp3.unblockStream stream) "could not unblock the stream"
  | .resumeStream stream => c.checked [] fun c =>
    c.native (Nghttp3.resumeStream stream) "could not resume the stream"
  | .shutdownStreamRead stream => c.checked [] fun c =>
    c.native (Nghttp3.shutdownStreamRead stream) "could not shut down the stream's read side"
  | .shutdownStreamWrite stream => c.checked [] fun c =>
    (.ok (), { c with raw := Nghttp3.shutdownStreamWrite stream c.raw })
  | .shutdown => c.shutdown

/-! ## Calls that call back -/

def isPeerReadable (c : Conn ν) (stream : StreamId) : Bool :=
  isClientBidirectional stream ||
    (stream.directionality = .unidirectional && !isLocalUnidirectional stream c.role)

/-- `BodyRegistry::record_acked`. -/
def recordAcked (c : Conn ν) (stream : StreamId) (n : ℕ) : Except CoreError Unit × Conn ν :=
  if n = 0 then (.ok (), c)
  else match lookup stream c.offsets with
    | none => (.error (invalidInput
        "that stream has nothing outstanding to acknowledge; it was never written to, or it has already closed"), c)
    | some offsets =>
      let acked := offsets.acked + n
      if 2 ^ 64 ≤ acked ∨ offsets.committed < acked then
        (.error (invalidInput
          "more bytes were reported acknowledged than were ever written to that stream"), c)
      else (.ok (), { c with offsets := replace stream { offsets with acked } c.offsets })

/-- What a call checks and records before it reaches nghttp3. -/
def enter {α : Type} (c : Conn ν) (call : NativeCall α) : Except CoreError (Native ν α) × Conn ν :=
  let (checks, c) : Except CoreError Unit × Conn ν :=
    match c.poison with
    | some _ => (.error unusableError, c)
    | none =>
      match call with
      | .readStream stream _ _ => (check (c.isPeerReadable stream) ("that stream cannot carry data from the peer; " ++
          "a locally-initiated unidirectional stream is written to, never read from"), c)
      | .writevStream => (c.requireBound, c)
      | .closeStream _ _ => (.ok (), c)
      | .addAckOffset stream n => c.recordAcked stream n
  (checks.map fun _ => Nghttp3.call call c.raw, c)

/-- How a failed call is reported, and whether its path alone makes the connection unusable. -/
def failureOf {α : Type} : NativeCall α → String × Bool
  | .readStream _ _ _ => ("could not read stream data", true)
  | .writevStream => ("could not collect data to send", true)
  | .closeStream _ _ => ("could not close the stream", false)
  | .addAckOffset _ _ => ("could not record acknowledged bytes", false)

def leave {α : Type} (c : Conn ν) (call : NativeCall α) (result : Except ℤ α) (raw : ν) :
    Except CoreError α × Conn ν :=
  match result with
  | .ok a => (.ok a, { c with raw })
  | .error code =>
    let (error, c) := { c with raw }.record code (failureOf call).1 (failureOf call).2
    (.error error, c)

/-- `Deliveries::hold_credit`. -/
def holdCredit (c : Conn ν) (stream : StreamId) (consumed : ℕ) : Conn ν :=
  let held := (lookup stream c.unclaimedCredit).getD 0
  { c with unclaimedCredit := replace stream (min (held + consumed) (2 ^ 64 - 1)) c.unclaimedCredit }

/-- `BodyRegistry::forget` and `Deliveries::forget`. -/
def forgetStream (c : Conn ν) (stream : StreamId) : Conn ν :=
  { c with
    bodies := forget stream c.bodies
    offsets := forget stream c.offsets
    unclaimedCredit := forget stream c.unclaimedCredit }

/-- `acked_stream_data_cb`. -/
def ackedStreamData (c : Conn ν) (stream : StreamId) (datalen : ℕ) : Conn ν :=
  match lookup stream c.bodies with
  | none => c
  | some body => { c with bodies := replace stream { body with entry := body.entry.onAcked datalen } c.bodies }

/-- `read_data_cb`, and the ending that the body leaves word of when it is consulted. -/
def readData (c : Conn ν) (stream : StreamId) (veccnt : ℕ) : DataResult × Option (ℕ × Ending) × Conn ν :=
  match lookup stream c.bodies with
  | none => (.callbackFailure, none, c)
  | some body =>
    let (result, entry) := Http3OutgoingBodies.readData body.entry veccnt
    let ending := if entry.consulted = body.entry.consulted then none else endingOf body.body body.entry.consulted
    (result, ending.map (body.ending, ·), { c with bodies := replace stream { body with entry } c.bodies })

/-- `Deliveries::take_credit`, in ascending order of the streams. -/
def takeCredit (c : Conn ν) : List (StreamId × ℕ) × Conn ν :=
  (c.unclaimedCredit.insertionSort fun a b => a.1.val ≤ b.1.val, { c with unclaimedCredit := [] })

end Conn

end Errors

def noticeStreamId : ℤ := 2 ^ 62 - 4

def noticePushId : ℤ := 2 ^ 62 - 1

/-- `classify_shutdown`. -/
def classifyShutdown (role : Role) (id : ℤ) : Shutdown :=
  match role with
  | .client =>
    if id = noticeStreamId then .notice
    else match StreamId.new id with
      | some stream => .noStreamsFrom stream
      | none => .noPushesFrom (id % 2 ^ 64).toNat
  | .server => if id = noticePushId then .notice else .noPushesFrom (id % 2 ^ 64).toNat

end Ngnet.Http3Conn
