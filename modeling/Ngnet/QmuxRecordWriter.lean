import Ngnet.QmuxErrors
import Ngnet.QmuxStreams
import Ngnet.StatefulPrograms

/-!
# The record writer over the native library

`write.rs`, `stream_io.rs` and the part of `conn.rs` that calls dwnx. The native library is
not part of the repository: it is a parameter, the class `Dwnx`, whose calls answer and may
run any number of handlers before they return. A call to serialise answers with a finished
record, which is the return value of the C function and the bytes it left at the front of the
buffer, or with one of its signals.

Every native call is kept in the order it was made (`Conn.calls`), with what was submitted
and what was answered. Time reaches nothing but the native library and is part of it here.
-/

namespace Ngnet.QmuxRecordWriter
open QmuxVarints QmuxErrors QmuxStreams StatefulPrograms

/-! ## The native library -/

/-- The arguments of `dwnx_conn_writev_stream`. -/
structure Writev where
  room : ℕ
  fin : Bool
  stream : Option StreamId
  data : List Bytes
  deriving DecidableEq, Repr

inductive WritevResult
  | record (bytes : Bytes)
  | writeMore
  | streamDataBlocked
  | streamShutWr
  | failed (kind : CoreErrorKind)
  deriving DecidableEq, Repr

/-- The answer of a call to serialise: `*pdatalen` is `none` where dwnx leaves `-1`. -/
structure WritevAnswer where
  result : WritevResult
  pdatalen : Option ℕ
  deriving DecidableEq, Repr

/-- How many bytes of the submitted data went into the record, where the signal reports it:
`none` means that the record carried other frames instead. -/
def WritevAnswer.taken (answer : WritevAnswer) : Option ℕ :=
  match answer.result with
  | .record _ | .writeMore => answer.pdatalen
  | .streamDataBlocked | .streamShutWr | .failed _ => none

/-- An answer, and the handlers that ran before it. -/
structure Reply (α : Type) where
  answer : α
  callbacks : List Event

class Dwnx (ν : Type) where
  writev : Writev → ν → Reply WritevAnswer × ν
  read : Bytes → ν → Reply (Except CoreErrorKind ReadOutcome) × ν
  openStream : Directionality → ν → Reply (Except CoreErrorKind OpenOutcome) × ν
  shutdownStream : StreamId → Shutdown → ℕ → ν → Reply (Except CoreErrorKind Unit) × ν
  extendMaxStreamOffset : StreamId → ℕ → ν → Reply (Except CoreErrorKind Unit) × ν
  extendMaxOffset : ℕ → ν → Reply Unit × ν
  extendMaxStreams : Directionality → ℕ → ν → Reply Unit × ν
  maxDataLeft : ν → ℕ

/-- A call to serialise takes a beginning of the data it was given and fills at most the
buffer it was given. -/
class LawfulDwnx (ν : Type) [Dwnx ν] : Prop where
  takes_le : ∀ (call : Writev) (raw : ν) (taken : ℕ),
    (Dwnx.writev call raw).1.answer.taken = some taken → taken ≤ call.data.flatten.length
  record_le : ∀ (call : Writev) (raw : ν) (record : Bytes),
    (Dwnx.writev call raw).1.answer.result = .record record → record.length ≤ call.room

/-- A native call with its answer. -/
inductive NativeCall
  | writev (call : Writev) (answer : WritevAnswer)
  | read (bytes : Bytes) (answer : Except CoreErrorKind ReadOutcome)
  | openStream (kind : Directionality) (answer : Except CoreErrorKind OpenOutcome)
  | shutdownStream (stream : StreamId) (half : Shutdown) (appErrorCode : ℕ)
      (answer : Except CoreErrorKind Unit)
  | extendMaxStreamData (stream : StreamId) (bytes : ℕ) (answer : Except CoreErrorKind Unit)
  | extendMaxData (bytes : ℕ)
  | extendMaxStreams (kind : Directionality) (count : ℕ)

/-! ## Wakers and the handlers -/

/-- The task a poll registers. -/
abbrev Waker := ℕ

/-- `Signals`: who waits for flow-control credit, who waits for read-ahead capacity, and the
wakes issued so far. -/
structure Signals where
  credit : Option Waker := none
  readAhead : Option Waker := none
  woken : List Waker := []
  deriving DecidableEq, Repr

namespace Signals

/-- The waker a slot is left with, and the one that is displaced and woken. -/
def park (held : Option Waker) (cx : Waker) : Option Waker × List Waker :=
  if held = some cx then (held, []) else (some cx, held.toList)

def parkCredit (s : Signals) (cx : Waker) : Signals :=
  let (held, displaced) := park s.credit cx
  { s with credit := held, woken := s.woken ++ displaced }

def parkReadAhead (s : Signals) (cx : Waker) : Signals :=
  let (held, displaced) := park s.readAhead cx
  { s with readAhead := held, woken := s.woken ++ displaced }

def wakeCredit (s : Signals) : Signals :=
  { s with credit := none, woken := s.woken ++ s.credit.toList }

def wakeReadAhead (s : Signals) : Signals :=
  { s with readAhead := none, woken := s.woken ++ s.readAhead.toList }

/-- `cx.waker().wake_by_ref()`. -/
def wake (s : Signals) (cx : Waker) : Signals := { s with woken := s.woken ++ [cx] }

end Signals

/-- The state machine with the queue and the signals its handlers reach. The calls made so
far and the events ever queued are kept beside it. -/
structure Conn (ν : Type) where
  raw : ν
  role : Role
  events : List Event := []
  signals : Signals := {}
  calls : List NativeCall := []
  raised : List Event := []

variable {ν : Type}

namespace Conn

def pushEvent (conn : Conn ν) (event : Event) : Conn ν :=
  { conn with events := conn.events ++ [event], raised := conn.raised ++ [event] }

/-- A handler queues its event; the one for stream credit also wakes the parked writer. -/
def raise (conn : Conn ν) (event : Event) : Conn ν :=
  let conn := conn.pushEvent event
  match event with
  | .streamDataCredit _ _ => { conn with signals := conn.signals.wakeCredit }
  | _ => conn

/-- One native call: its handlers run before it returns. -/
def withBridge {α : Type} (call : ν → Reply α × ν) (log : α → NativeCall) (conn : Conn ν) :
    α × Conn ν :=
  let (reply, raw) := call conn.raw
  let conn := { conn with raw, calls := conn.calls ++ [log reply.answer] }
  (reply.answer, reply.callbacks.foldl raise conn)

theorem raise_eq (conn : Conn ν) (event : Event) :
    ∃ signals, conn.raise event = { conn.pushEvent event with signals } := by
  cases event <;> exact ⟨_, rfl⟩

theorem foldl_raise_eq (callbacks : List Event) :
    ∀ conn : Conn ν, ∃ signals, callbacks.foldl raise conn =
      { conn with
        events := conn.events ++ callbacks
        raised := conn.raised ++ callbacks
        signals } := by
  induction callbacks with
  | nil => intro conn; exact ⟨conn.signals, by simp⟩
  | cons event rest ih =>
    intro conn
    obtain ⟨s, hs⟩ := raise_eq conn event
    obtain ⟨s', hs'⟩ := ih (conn.raise event)
    exact ⟨s', by rw [List.foldl_cons, hs', hs]; simp [pushEvent]⟩

theorem withBridge_eq {α : Type} (call : ν → Reply α × ν) (log : α → NativeCall) (conn : Conn ν) :
    ∃ signals, conn.withBridge call log = ((call conn.raw).1.answer,
      { conn with
        raw := (call conn.raw).2
        calls := conn.calls ++ [log (call conn.raw).1.answer]
        events := conn.events ++ (call conn.raw).1.callbacks
        raised := conn.raised ++ (call conn.raw).1.callbacks
        signals }) := by
  obtain ⟨s, hs⟩ := foldl_raise_eq (call conn.raw).1.callbacks
    { conn with raw := (call conn.raw).2, calls := conn.calls ++ [log (call conn.raw).1.answer] }
  exact ⟨s, congrArg (Prod.mk (call conn.raw).1.answer) hs⟩

/-- `b` is `a` after native calls that all satisfy `P`, and their handlers. -/
structure Extends (P : NativeCall → Prop) (a b : Conn ν) : Prop where
  role : b.role = a.role
  calls : ∃ new, b.calls = a.calls ++ new ∧ ∀ call ∈ new, P call
  events : ∃ callbacks, b.events = a.events ++ callbacks ∧ b.raised = a.raised ++ callbacks

variable {P : NativeCall → Prop}

theorem Extends.refl (conn : Conn ν) : Extends P conn conn :=
  ⟨rfl, ⟨[], by simp⟩, ⟨[], by simp⟩⟩

theorem Extends.trans {a b c : Conn ν} (h : Extends P a b)
    (h' : Extends P b c) : Extends P a c := by
  obtain ⟨new, hcalls, hnew⟩ := h.calls
  obtain ⟨new', hcalls', hnew'⟩ := h'.calls
  obtain ⟨callbacks, hevents, hraised⟩ := h.events
  obtain ⟨callbacks', hevents', hraised'⟩ := h'.events
  refine ⟨h'.role.trans h.role, ⟨new ++ new', by rw [hcalls', hcalls, List.append_assoc], ?_⟩,
    ⟨callbacks ++ callbacks', by rw [hevents', hevents, List.append_assoc],
      by rw [hraised', hraised, List.append_assoc]⟩⟩
  intro call hcall
  rcases List.mem_append.mp hcall with h | h
  · exact hnew call h
  · exact hnew' call h

theorem withBridge_extends {α : Type} (call : ν → Reply α × ν)
    (log : α → NativeCall) (hP : ∀ answer, P (log answer)) (conn : Conn ν) :
    Extends P conn (conn.withBridge call log).2 := by
  obtain ⟨signals, heq⟩ := withBridge_eq call log conn
  rw [heq]
  exact ⟨rfl, ⟨_, rfl, by simpa using hP _⟩, ⟨_, rfl, rfl⟩⟩

theorem pushEvent_extends (conn : Conn ν) (signals : Signals)
    (event : Event) : Extends P conn ({ conn with signals }.pushEvent event) :=
  ⟨rfl, ⟨[], by simp [pushEvent]⟩, ⟨[event], rfl, rfl⟩⟩

variable [Dwnx ν]

def writev (call : Writev) (conn : Conn ν) : WritevAnswer × Conn ν :=
  conn.withBridge (Dwnx.writev call) (.writev call)

def read (bytes : Bytes) (conn : Conn ν) : Except CoreErrorKind ReadOutcome × Conn ν :=
  conn.withBridge (Dwnx.read bytes) (.read bytes)

def openStream (kind : Directionality) (conn : Conn ν) :
    Except CoreErrorKind OpenOutcome × Conn ν :=
  conn.withBridge (Dwnx.openStream kind) (.openStream kind)

def shutdownStream (stream : StreamId) (half : Shutdown) (appErrorCode : ℕ) (conn : Conn ν) :
    Except CoreErrorKind Unit × Conn ν :=
  conn.withBridge (Dwnx.shutdownStream stream half appErrorCode)
    (.shutdownStream stream half appErrorCode)

def extendMaxStreamData (stream : StreamId) (bytes : ℕ) (conn : Conn ν) :
    Except CoreErrorKind Unit × Conn ν :=
  conn.withBridge (Dwnx.extendMaxStreamOffset stream bytes) (.extendMaxStreamData stream bytes)

def extendMaxData (bytes : ℕ) (conn : Conn ν) : Unit × Conn ν :=
  conn.withBridge (Dwnx.extendMaxOffset bytes) fun _ => .extendMaxData bytes

def extendMaxStreams (kind : Directionality) (count : ℕ) (conn : Conn ν) : Unit × Conn ν :=
  conn.withBridge (Dwnx.extendMaxStreams kind count) fun _ => .extendMaxStreams kind count

def maxDataLeft (conn : Conn ν) : ℕ := Dwnx.maxDataLeft conn.raw

end Conn

/-! ## Building a record -/

def minUsableBuffer : ℕ := 3

def maxVectors : ℕ := 16

/-- The first `room` fragments that are not empty, and whether these were all of them. -/
def gather : ℕ → List Bytes → List Bytes × Bool
  | _, [] => ([], true)
  | room, fragment :: rest =>
    if fragment = [] then gather room rest
    else match room with
      | 0 => ([], false)
      | room + 1 =>
        let (vectors, whole) := gather room rest
        (fragment :: vectors, whole)

structure VectoredWriteRequest where
  stream : Option StreamId
  data : List Bytes
  fin : Bool
  deriving DecidableEq, Repr

def controlOnly : VectoredWriteRequest := ⟨none, [[]], false⟩

inductive Push
  | accepted (consumed : Option ℕ)
  | complete (consumed : Option ℕ)
  | streamBlocked
  | streamClosed
  deriving DecidableEq, Repr

/-- The record being built in a buffer of `room` bytes: `record` is what dwnx reported
finished, `started` whether it holds the buffer. -/
structure RecordWriter (ν : Type) where
  conn : Conn ν
  room : ℕ
  record : Option Bytes
  started : Bool
  tooSmall : Bool

abbrev WriterM (ν : Type) (α : Type) := Program CoreErrorKind (RecordWriter ν) α

namespace RecordWriter

def new (conn : Conn ν) (room : ℕ) : RecordWriter ν :=
  ⟨conn, room, none, false, decide (room < minUsableBuffer)⟩

variable [Dwnx ν]

/-- The call that `push_vectored` makes for a request. -/
def submission (room : ℕ) (request : VectoredWriteRequest) : Writev :=
  let (vectors, whole) := gather maxVectors request.data
  ⟨room, request.fin && whole, request.stream, vectors⟩

/-- How the writer stands after an answer, its connection aside. -/
def settle (w : RecordWriter ν) : WritevResult → RecordWriter ν
  | .record bytes => { w with record := some bytes, started := false }
  | .streamDataBlocked | .streamShutWr => w
  | .writeMore | .failed _ => { w with started := true }

def pushVectored (request : VectoredWriteRequest) : WriterM ν Push := do
  let w ← get
  if w.tooSmall || w.record.isSome then pure (.complete none)
  else
    let (answer, conn) := w.conn.writev (submission w.room request)
    set ({ w with conn }.settle answer.result)
    match answer.result with
    | .record _ => pure (.complete answer.pdatalen)
    | .writeMore => pure (.accepted answer.pdatalen)
    | .streamDataBlocked => pure .streamBlocked
    | .streamShutWr => pure .streamClosed
    | .failed kind => fail kind

theorem pushVectored_closed {w : RecordWriter ν} (request : VectoredWriteRequest)
    (h : (w.tooSmall || w.record.isSome) = true) :
    pushVectored request w = .ok (.complete none) w := by
  rw [pushVectored, bind_ok get_apply, if_pos h]
  rfl

theorem pushVectored_open {w : RecordWriter ν} {request : VectoredWriteRequest}
    {answer : WritevAnswer} {conn : Conn ν} (h : ¬(w.tooSmall || w.record.isSome) = true)
    (hcall : w.conn.writev (submission w.room request) = (answer, conn)) :
    pushVectored request w = match answer.result with
      | .record bytes =>
        .ok (.complete answer.pdatalen) { w with conn, record := some bytes, started := false }
      | .writeMore => .ok (.accepted answer.pdatalen) { w with conn, started := true }
      | .streamDataBlocked => .ok .streamBlocked { w with conn }
      | .streamShutWr => .ok .streamClosed { w with conn }
      | .failed kind => .error (.failed kind) { w with conn, started := true } := by
  rw [pushVectored, bind_ok get_apply, if_neg h, hcall]
  obtain ⟨result, pdatalen⟩ := answer
  cases result <;> rfl

/-- Closes the record; its bytes are empty when there was nothing to send or no room. -/
def finish : WriterM ν Bytes := do
  let w ← get
  if w.tooSmall then pure []
  else
    if w.record.isNone then
      let _ ← pushVectored controlOnly
    let w ← get
    pure (w.record.getD [])

/-- `Drop`: an abandoned record is closed and thrown away. -/
def drop (w : RecordWriter ν) : Conn ν :=
  if w.started then (w.conn.writev ⟨w.room, false, none, []⟩).2 else w.conn

end RecordWriter

/-- Builds a record in `room` bytes; a writer that a failure abandons is dropped. -/
def Conn.record [Dwnx ν] {α : Type} (room : ℕ) (build : WriterM ν α) :
    Program CoreErrorKind (Conn ν) α := fun conn =>
  match build (RecordWriter.new conn room) with
  | .ok a w => .ok a w.conn
  | .error (.failed kind) w => .error (.failed kind) w.drop
  | .error .outOfFuel w => .error .outOfFuel w.conn

end Ngnet.QmuxRecordWriter
