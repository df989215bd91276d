import Mathlib.Algebra.BigOperators.Group.List.Basic
import Ngnet.HyperiumHandles
import Ngnet.QmuxConnectionSteps

/-!
# What a critical section can do to the core

Every critical section of `h3-ngnet-qmux` is a sequence of the steps listed in `CoreStep`, each
with the condition under which the program takes it. An invariant of whole runs is proved by
going through this list once; the programs are not looked at again. The section itself is the
parameter of the relation: only a poll of the driver completes the driver, only a close asks for
one, and only the last section of `poll_send` parks without having looked at the terminal.
-/

namespace Ngnet.HyperiumSteps
open QmuxVarints QmuxCloseCodec QmuxErrors QmuxStreams StatefulPrograms QmuxRecordWriter
open QmuxConnection HyperiumCore Core HyperiumHandles Relation

variable {β ν : Type}

/-! ## The map of streams -/

instance : Std.TransOrd StreamId := inferInstanceAs <| Std.TransCmp (compareOn StreamId.val)

instance : Std.LawfulEqOrd StreamId where
  eq_of_compare {a b} h := by
    have hval : a.val = b.val := Std.LawfulEqOrd.eq_of_compare h
    cases a
    cases b
    subst hval
    rfl

theorem compare_eq_iff {a b : StreamId} : compare a b = .eq ↔ a = b :=
  Std.LawfulEqOrd.compare_eq_iff_eq

@[simp] theorem getElem?_setStream (c : Core β ν) (id id' : StreamId) (s : StreamState) :
    (c.setStream id s).streams[id']? = if id = id' then some s else c.streams[id']? := by
  show (c.streams.insert id s)[id']? = _
  simp only [Std.TreeMap.getElem?_insert, compare_eq_iff]

@[simp] theorem getElem?_mapStreams (c : Core β ν) (f : StreamState → StreamState) (id : StreamId) :
    (c.mapStreams f).streams[id]? = c.streams[id]?.map f := by
  show (c.streams.map fun _ s => f s)[id]? = _
  rw [Std.TreeMap.getElem?_map]

theorem contains_iff {c : Core β ν} {id : StreamId} :
    c.streams.contains id = true ↔ ∃ s, c.streams[id]? = some s := by
  rw [Std.TreeMap.contains_eq_isSome_getElem?, Option.isSome_iff_exists]

theorem contains_eq_false_iff {c : Core β ν} {id : StreamId} :
    c.streams.contains id = false ↔ c.streams[id]? = none := by
  rw [Std.TreeMap.contains_eq_isSome_getElem?, Option.isSome_eq_false_iff, Option.isNone_iff_eq_none]

/-! ## A failed core -/

section Fail
variable (c : Core β ν) (terminal : ConnectionTerminal)

@[simp] theorem fail_lower : (c.fail terminal).lower = c.lower := by
  rw [Core.fail]
  split <;> rfl

@[simp] theorem fail_role : (c.fail terminal).role = c.role := by
  rw [Core.fail]
  split <;> rfl

@[simp] theorem fail_pendingLimit : (c.fail terminal).pendingLimit = c.pendingLimit := by
  rw [Core.fail]
  split <;> rfl

@[simp] theorem fail_pending (kind : AcceptKind) : (c.fail terminal).pending kind = c.pending kind := by
  rw [Core.fail]
  split <;> cases kind <;> rfl

@[simp] theorem fail_routed : (c.fail terminal).routed = c.routed := by
  rw [Core.fail]
  split <;> rfl

@[simp] theorem fail_accepted : (c.fail terminal).accepted = c.accepted := by
  rw [Core.fail]
  split <;> rfl

@[simp] theorem fail_close : (c.fail terminal).close = c.close := by
  rw [Core.fail]
  split <;> rfl

@[simp] theorem fail_closeIsFailure : (c.fail terminal).closeIsFailure = c.closeIsFailure := by
  rw [Core.fail]
  split <;> rfl

@[simp] theorem fail_driverComplete : (c.fail terminal).driverComplete = c.driverComplete := by
  rw [Core.fail]
  split <;> rfl

@[simp] theorem fail_driverError : (c.fail terminal).driverError = c.driverError := by
  rw [Core.fail]
  split <;> rfl

@[simp] theorem fail_terminal : (c.fail terminal).terminal = some (c.terminal.getD terminal) := by
  rw [Core.fail]
  cases hterminal : c.terminal with
  | some first => exact hterminal
  | none => rfl

theorem fail_lookup (id : StreamId) : (c.fail terminal).streams[id]? =
    c.streams[id]?.map fun s => if c.terminal.isSome then s else s.abandon := by
  rw [Core.fail]
  split
  · simp
  · exact getElem?_mapStreams _ _ _

end Fail

/-! ## Below the core -/

/-- The stream a native call opened. -/
def opened : NativeCall → Option StreamId
  | .openStream _ (.ok (.opened id)) => some id
  | _ => none

/-- The connection credit a native call gave. -/
def credit : NativeCall → ℕ
  | .extendMaxData bytes => bytes
  | _ => 0

def openedIds (calls : List NativeCall) : List StreamId := calls.filterMap opened

def credited (calls : List NativeCall) : ℕ := (calls.map credit).sum

/-- The layer below went on, and gave `bytes` of connection credit. -/
structure Below (bytes : ℕ) (l m : Connection β ν) : Prop where
  calls : l.conn.calls <+: m.conn.calls
  credited : credited m.conn.calls = credited l.conn.calls + bytes

theorem Below.refl (l : Connection β ν) : Below 0 l l := ⟨List.prefix_rfl, rfl⟩

theorem Below.trans {a b : ℕ} {l m n : Connection β ν} (h : Below a l m) (h' : Below b m n) :
    Below (a + b) l n :=
  ⟨h.calls.trans h'.calls, by rw [h'.credited, h.credited, Nat.add_assoc]⟩

/-! ## Steps -/

/-- The stream an event is about. -/
def named : Event → Option StreamId
  | .streamData id _ _ _ | .streamOpened id | .streamClosed id _ _ | .streamReset id _ _
  | .stopSending id _ | .streamDataCredit id _ => some id
  | .connectionDataCredit _ | .streamLimit _ _ | .peerTransportParams => none

/-- The event closes the stream. -/
def closes (id : StreamId) : Event → Prop
  | .streamClosed id' _ _ => id' = id
  | _ => False

/-- The event ends what is received on the stream. -/
def endsReceive (id : StreamId) : Event → Prop
  | .streamData id' _ _ fin => id' = id ∧ fin = true
  | .streamReset id' _ _ | .streamClosed id' _ _ => id' = id
  | _ => False

def Closed (routed : List Event) (id : StreamId) : Prop := ∃ event ∈ routed, closes id event

def ReceiveEnded (routed : List Event) (id : StreamId) : Prop := ∃ event ∈ routed, endsReceive id event

/-- A stream of the peer that is not known and has room in the queues. -/
structure Fresh (c : Core β ν) (id : StreamId) : Prop where
  unknown : c.streams[id]? = none
  peer : id.initiator ≠ c.localInitiator
  room : c.pendingUni.length + c.pendingBidi.length < c.pendingLimit

/-- The core that an event finds: the stream it names may be discovered over it. -/
def Met (c : Core β ν) (id : StreamId) (d : Core β ν) : Prop := d = c ∨ Fresh c id ∧ d = c.enqueue id

/-- The change of a stream that no queue, no credit and no handle depends on. -/
structure Mild (routed : List Event) (mayPark : Prop) (id : StreamId) (s t : StreamState) : Prop where
  pendingAccept : t.pendingAccept = s.pendingAccept
  recv : t.recv = s.recv
  recvHandle : t.recvHandle = s.recvHandle
  recvShutdownSent : t.recvShutdownSent = s.recvShutdownSent
  lowerClosed : t.lowerClosed = s.lowerClosed ∨ Closed routed id
  recvTerminal : t.recvTerminal = s.recvTerminal ∨ ReceiveEnded routed id
  waiters : mayPark ∨ (s.waiters = [] → t.waiters = [])

/-- Nobody waits for a stream to be accepted or opened. -/
structure NoneWaits (c : Core β ν) : Prop where
  acceptUni : c.acceptUni = none
  acceptBidi : c.acceptBidi = none
  openers : ∀ (opener : ℕ) (slots : OpenerWaiters), c.openers[opener]? = some slots → slots = {}

/-- The section may park: it is the last one of `poll_send`, or the connection has not ended. -/
def MayPark (sec : Section) (c : Core β ν) : Prop :=
  (∃ id chunk waker, sec = .sendWrite id chunk waker) ∨ c.terminal = none

/-- What was received on a stream is taken from it, and the connection ends over the credit. -/
def Losing (id : StreamId) (c d : Core β ν) : Prop :=
  d.streams = c.streams ∨ ∃ s t, c.streams[id]? = some s ∧ d.streams = c.streams.insert id t ∧
    t.pendingAccept = s.pendingAccept ∧ t.lowerClosed = s.lowerClosed ∧ t.waiters = s.waiters

/-- The event was routed. -/
def observe (c : Core β ν) (event : Event) : Core β ν := { c with routed := c.routed ++ [event] }

inductive CoreStep (sec : Section) : Core β ν → Core β ν → Prop
  | effects {c : Core β ν} (effects : Effects) : CoreStep sec c { c with effects }
  | lower {c : Core β ν} {l : Connection β ν} (below : Below 0 c.lower l) :
      CoreStep sec c { c with lower := l }
  | observed {c d : Core β ν} {event : Event} (empty : event.dataLen = 0)
      (met : d = c ∨ ∃ id, named event = some id ∧ Met c id d) :
      CoreStep sec c (observe d event)
  | arrived {c d : Core β ν} {id : StreamId} {s : StreamState} {offset : ℕ} {data : Bytes} {fin : Bool}
      (valid : c.receiveDirectionValid id = true) (met : Met c id d) (here : d.streams[id]? = some s)
      (live : s.recvShutdownSent = false) (nonempty : data ≠ []) :
      CoreStep sec c (observe (d.setStream id { s with recv := s.recv ++ [⟨data, fin⟩], recvWaiter := none })
        (.streamData id offset data fin))
  | refunded {c : Core β ν} {id : StreamId} {offset : ℕ} {data : Bytes} {fin : Bool} {l : Connection β ν}
      (below : Below data.length c.lower l) :
      CoreStep sec c (observe { c with lower := l } (.streamData id offset data fin))
  | failed {c d : Core β ν} (id : StreamId) (terminal : ConnectionTerminal) (bytes : ℕ)
      (below : Below bytes c.lower d.lower) (routed : c.routed <+: d.routed) (losing : Losing id c d)
      (same : d = { c with lower := d.lower, routed := d.routed, streams := d.streams }) :
      CoreStep sec c (d.fail terminal)
  | overloaded {c d : Core β ν} (routed : c.routed <+: d.routed)
      (same : d = { c with routed := d.routed }) : CoreStep sec c d.overload
  | closed {c : Core β ν} {code : ℕ} {reason : Bytes} (asked : sec = .close code reason) :
      CoreStep sec c (c.requestClose code reason)
  | accepted {c : Core β ν} {kind : AcceptKind} {id : StreamId} {rest : List StreamId} {s : StreamState}
      (asked : ∃ waker, sec = .accept kind waker) (first : c.pending kind = id :: rest) (here : c.streams[id]? = some s) :
      CoreStep sec c { (popPending c kind rest).setStream id (s.accept kind) with
        accepted := c.accepted ++ [id] }
  | panicked {c : Core β ν} {kind : AcceptKind} {id : StreamId} {rest : List StreamId}
      (first : c.pending kind = id :: rest) (unknown : c.streams[id]? = none) :
      CoreStep sec c (popPending c kind rest)
  | openedStream {c : Core β ν} {kind : OpenKind} {id : StreamId} {l : Connection β ν} (below : Below 0 c.lower l)
      (calls : c.lower.conn.calls ++ [.openStream kind.directionality (.ok (.opened id))] <+: l.conn.calls) :
      CoreStep sec c ({ c with lower := l }.setStream id
        { sendHandle := true, recvHandle := decide (kind = OpenKind.bidi) })
  | slots {c : Core β ν} {acceptUni acceptBidi : Option Waker} {openers : Std.TreeMap ℕ OpenerWaiters}
      {nextOpener : ℕ}
      (kept : c.terminal = none ∨
        (NoneWaits c → NoneWaits { c with acceptUni, acceptBidi, openers, nextOpener })) :
      CoreStep sec c { c with acceptUni, acceptBidi, openers, nextOpener }
  | updated {c : Core β ν} {id : StreamId} {s t : StreamState} (here : c.streams[id]? = some s)
      (mild : Mild c.routed (MayPark sec c) id s t) : CoreStep sec c (c.setStream id t)
  | swept {c : Core β ν} {f : StreamState → StreamState}
      (mild : ∀ id s, Mild c.routed (MayPark sec c) id s (f s)) : CoreStep sec c (c.mapStreams f)
  | read {c : Core β ν} {id : StreamId} {s : StreamState} {item : Received} {rest : List Received}
      {l : Connection β ν} (here : c.streams[id]? = some s) (first : s.recv = item :: rest)
      (below : Below item.data.length c.lower l) :
      CoreStep sec c ({ c with lower := l }.setStream id { s with recv := rest })
  | readLast {c : Core β ν} {id : StreamId} {s : StreamState} {item : Received} {rest : List Received}
      {l : Connection β ν} (here : c.streams[id]? = some s) (first : s.recv = item :: rest)
      (last : item.fin = true) (below : Below item.data.length c.lower l) :
      CoreStep sec c (({ c with lower := l }.setStream id { s with recv := rest }).setStream id
        { s with recv := rest, recvTerminal := some .finished })
  | discarded {c : Core β ν} {id : StreamId} {s : StreamState} {shutdownSent : Bool}
      {terminal : DirectionTerminal} {l : Connection β ν} (here : c.streams[id]? = some s)
      (ended : shutdownSent = true ∨ shutdownSent = s.recvShutdownSent ∧ s.recvTerminal.isSome = true)
      (below : Below (s.recv.map (·.data.length)).sum c.lower l) :
      CoreStep sec c ({ c with lower := l }.setStream id { s with
        recvShutdownSent := shutdownSent
        recvTerminal := s.recvTerminal.or (some terminal)
        recv := [] })
  | dropped {c : Core β ν} {id : StreamId} {s : StreamState} (here : c.streams[id]? = some s)
      (drained : c.terminal.isSome = true ∨ s.recv = [] ∧ s.recvTerminal.isSome = true) :
      CoreStep sec c (c.setStream id { s with recvHandle := false })
  | retired {c : Core β ν} {id : StreamId} {s : StreamState} (here : c.streams[id]? = some s)
      (pending : s.pendingAccept = false) (lowerClosed : s.lowerClosed = true) (drained : s.recv = []) :
      CoreStep sec c { c with streams := c.streams.erase id }
  | resolved {c : Core β ν} (asked : sec = .driver) (driverComplete : Bool)
      (driverError : Option AdapterError) (ended : c.terminal.isSome = true ∨ c.close.isSome = true) :
      CoreStep sec c { c with driverComplete, driverError }

/-! ## What the layer below did -/

section Lower
variable [Dwnx ν]

variable {l m : Connection β ν}

omit [Dwnx ν] in
theorem below_of_new {new : List NativeCall} {bytes : ℕ}
    (h : m.conn.calls = l.conn.calls ++ new) (hnew : (new.map credit).sum = bytes) :
    Below bytes l m := by
  constructor
  · exact ⟨new, h.symm⟩
  · rw [credited, h, List.map_append, List.sum_append, hnew]
    rfl

omit [Dwnx ν] in
theorem below_of_calls (h : m.conn.calls = l.conn.calls) : Below 0 l m :=
  below_of_new (by rw [h, List.append_nil]) rfl

variable {D : Prop}

theorem below_of_step
    (h : QmuxConnectionSteps.Step (QmuxConnectionSteps.isCredit · = false) D l m) : Below 0 l m := by
  cases h with
  | native calls =>
    obtain ⟨new, hnew, hcalls⟩ := calls.calls
    apply below_of_new hnew
    apply List.sum_eq_zero
    intro bytes hbytes
    obtain ⟨call, hcall, rfl⟩ := List.mem_map.mp hbytes
    have hquiet := hcalls call hcall
    cases call <;> first | rfl | cases hquiet
  | queueClose reason _ _ =>
    apply below_of_calls
    rw [QmuxConnectionSteps.queued_eq]
    rfl
  | latch error =>
    apply below_of_calls
    rw [Connection.latch_eq]
  | _ => exact below_of_calls rfl

theorem below_of_steps
    (h : ReflTransGen (QmuxConnectionSteps.Step (QmuxConnectionSteps.isCredit · = false) D) l m) :
    Below 0 l m := by
  induction h with
  | refl => exact .refl l
  | tail _ hstep ih => exact ih.trans (below_of_step hstep)

/-- The program gives no connection credit. -/
def Quietly {α : Type} (m : ConnectionM β ν α) : Prop :=
  ∀ l, Ensures m l (fun _ l' => Below 0 l l') fun _ l' => Below 0 l l'

theorem quietly_of_moves {α : Type} {m : ConnectionM β ν α}
    {Q : Connection β ν → α → Connection β ν → Prop}
    (h : ∀ l, Moves (QmuxConnectionSteps.Step (QmuxConnectionSteps.isCredit · = false) D) m l (Q l)) :
    Quietly m := by
  intro l
  exact Ensures.mono (h l) (fun _ _ hm => below_of_steps hm.1) fun _ _ hm => below_of_steps hm

theorem takeEvent_quietly : Quietly (takeEvent : ConnectionM β ν (Option Event)) :=
  quietly_of_moves fun l => (QmuxConnectionSteps.takeEvent_goes (D := True) trivial l).moves

theorem shutdownStream_quietly (id : StreamId) (half : Shutdown) (code : ℕ) :
    Quietly (shutdownStream id half code : ConnectionM β ν Unit) :=
  quietly_of_moves fun l => (QmuxConnectionSteps.shutdownStream_goes (D := True) (fun _ h => h) id half code l).moves

theorem tryWriteStream_quietly (id : StreamId) (data : Bytes) (fin : Bool) :
    Quietly (tryWriteStream id data fin : ConnectionM β ν StreamWrite) :=
  quietly_of_moves fun l =>
    (QmuxConnectionSteps.tryWriteStreamVectored_goes (D := True) (fun _ h => h) id [data] fin l).moves

theorem extendConnectionCredit_below (bytes : ℕ) (l : Connection β ν) :
    Ensures (extendConnectionCredit bytes) l (fun _ m => Below bytes l m)
      fun e m => (∃ error, e = .failed error) ∧ Below 0 l m := by
  cases hterminal : l.terminal with
  | some error =>
    have hended : (extendConnectionCredit bytes : ConnectionM β ν Unit) l = .error (.failed error) l :=
      bind_error (checkTerminal_ended hterminal)
    exact (ensures_of_error hended).mpr ⟨⟨error, rfl⟩, .refl l⟩
  | none =>
    have hcalls : (l.conn.extendMaxData bytes).2.calls = l.conn.calls ++ [.extendMaxData bytes] := by
      obtain ⟨signals, heq⟩ := Conn.withBridge_eq (Dwnx.extendMaxOffset bytes)
        (fun _ => .extendMaxData bytes) l.conn
      rw [Conn.extendMaxData, heq]
    rw [extendConnectionCredit, ensures_bind, ensures_of_ok (checkTerminal_open hterminal),
      ensures_modify, ensures_get]
    split
    · rw [ensures_modify, ensures_of_ok modify_apply]
      exact below_of_new hcalls (by simp [credit])
    · rw [ensures_of_ok modify_apply]
      exact below_of_new hcalls (by simp [credit])

theorem extendStreamCredit_below (id : StreamId) (bytes : ℕ) (l : Connection β ν) :
    Ensures (extendStreamCredit id bytes) l (fun _ m => Below 0 l m)
      fun e m => (∃ error, e = .failed error) ∧ Below 0 l m := by
  cases hterminal : l.terminal with
  | some error =>
    have hended : (extendStreamCredit id bytes : ConnectionM β ν Unit) l = .error (.failed error) l :=
      bind_error (checkTerminal_ended hterminal)
    exact (ensures_of_error hended).mpr ⟨⟨error, rfl⟩, .refl l⟩
  | none =>
    have hcalls : ∃ answer, (l.conn.extendMaxStreamData id bytes).2.calls =
        l.conn.calls ++ [.extendMaxStreamData id bytes answer] := by
      obtain ⟨signals, heq⟩ := Conn.withBridge_eq (Dwnx.extendMaxStreamOffset id bytes)
        (.extendMaxStreamData id bytes) l.conn
      rw [Conn.extendMaxStreamData, heq]
      exact ⟨_, rfl⟩
    obtain ⟨answer, hcalls⟩ := hcalls
    rw [extendStreamCredit, ensures_bind, ensures_of_ok (checkTerminal_open hterminal), ensures_bind,
      native, ensures_get, ensures_bind, ensures_of_ok set_apply]
    cases (l.conn.extendMaxStreamData id bytes).1 with
    | ok _ =>
      rw [ensures_pure, ensures_of_ok modify_apply]
      exact below_of_new hcalls rfl
    | error kind =>
      rw [ensures_fail]
      exact ⟨⟨_, rfl⟩, below_of_new hcalls rfl⟩

theorem creditRead_below (id : StreamId) (bytes : ℕ) (l : Connection β ν) :
    Ensures (creditRead id bytes) l (fun _ m => Below bytes l m)
      fun e m => (∃ error, e = .failed error) ∧ Below 0 l m := by
  rw [creditRead, ensures_bind]
  refine Ensures.mono (extendStreamCredit_below id bytes l) ?_ fun _ _ h => h
  intro _ m hm
  refine Ensures.mono (extendConnectionCredit_below bytes m) ?_ ?_
  · intro _ n hn
    simpa using hm.trans hn
  · intro e n hn
    exact ⟨hn.1, hm.trans hn.2⟩

theorem tryOpen_below (kind : Directionality) (l : Connection β ν) :
    Ensures (tryOpen kind) l (fun result m => Below 0 l m ∧ ∀ id, result = .opened id →
        l.conn.calls ++ [.openStream kind (.ok (.opened id))] <+: m.conn.calls)
      fun e m => (∃ error, e = .failed error) ∧ Below 0 l m := by
  cases hterminal : l.terminal with
  | some error =>
    have hended : (tryOpen kind : ConnectionM β ν StreamOpen) l = .error (.failed error) l :=
      bind_error (checkTerminal_ended hterminal)
    exact (ensures_of_error hended).mpr ⟨⟨error, rfl⟩, .refl l⟩
  | none =>
    have hcalls : (l.conn.openStream kind).2.calls =
        l.conn.calls ++ [.openStream kind (l.conn.openStream kind).1] := by
      obtain ⟨signals, heq⟩ := Conn.withBridge_eq (Dwnx.openStream kind) (.openStream kind) l.conn
      rw [Conn.openStream, heq]
    rw [tryOpen, ensures_bind, ensures_of_ok (checkTerminal_open hterminal), ensures_bind,
      native, ensures_get, ensures_bind, ensures_of_ok set_apply]
    cases hanswer : (l.conn.openStream kind).1 with
    | error error =>
      rw [ensures_fail]
      exact ⟨⟨_, rfl⟩, below_of_new hcalls rfl⟩
    | ok result =>
      rw [hanswer] at hcalls
      rw [ensures_pure]
      cases result with
      | opened id =>
        rw [ensures_modify, ensures_pure]
        refine ⟨below_of_new hcalls rfl, ?_⟩
        rintro _ ⟨rfl⟩
        exact hcalls ▸ List.prefix_rfl
      | blocked =>
        rw [ensures_pure]
        exact ⟨below_of_new hcalls rfl, by simp⟩

variable [AsyncByteStream β]

theorem pollNextEvent_quietly (fuel : ℕ) (cx : Waker) :
    Quietly (pollNextEvent fuel cx : ConnectionM β ν (Poll Event)) :=
  quietly_of_moves fun l => (QmuxConnectionSteps.pollNextEvent_moves (D := True) (fun _ => id) trivial fuel
    cx l).weaken fun _ _ => QmuxConnectionSteps.Quiet.step

theorem pollPump_quietly (fuel : ℕ) (cx : Waker) :
    Quietly (pollPump fuel cx : ConnectionM β ν (Poll Unit)) :=
  quietly_of_moves fun l => (QmuxConnectionSteps.pollPump_goes (D := True) (fun _ => id) fuel cx l).moves

theorem pollClose_quietly (fuel : ℕ) (cx : Waker) (reason : CloseReason) :
    Quietly (pollClose fuel cx reason : ConnectionM β ν (Poll Unit)) :=
  quietly_of_moves fun l => QmuxConnectionSteps.pollClose_moves (D := True) (fun _ => id) fuel cx reason l

end Lower

/-! ## Programs over the core -/

/-- The program takes steps of the section, and an `expect` in it fails only under `X`. -/
def Acts {α : Type} (sec : Section) (X : Prop) (m : CoreM β ν α) (c : Core β ν)
    (Q : α → Core β ν → Prop) : Prop :=
  Ensures m c (fun a d => ReflTransGen (CoreStep sec) c d ∧ Q a d)
    fun e d => (e = .outOfFuel ∨ X) ∧ ReflTransGen (CoreStep sec) c d

section Rules
variable {α γ : Type} {sec : Section} {X : Prop} {m : CoreM β ν α} {f : α → CoreM β ν γ} {c d : Core β ν}
  {Q Q' : α → Core β ν → Prop} {R : γ → Core β ν → Prop}

theorem Acts.pure {a : α} (h : Q a c) : Acts sec X (pure a) c Q := ensures_pure.mpr ⟨.refl, h⟩

theorem Acts.panic {message : Panic} (h : X) : Acts sec X (fail message) c Q :=
  ensures_fail.mpr ⟨.inr h, .refl⟩

theorem Acts.behind (hcd : ReflTransGen (CoreStep sec) c d) (h : Acts sec X m d Q) :
    Ensures m d (fun a e => ReflTransGen (CoreStep sec) c e ∧ Q a e)
      fun e t => (e = .outOfFuel ∨ X) ∧ ReflTransGen (CoreStep sec) c t :=
  Ensures.mono h (fun _ _ ⟨hde, hQ⟩ => ⟨hcd.trans hde, hQ⟩) fun _ _ ⟨he, hde⟩ => ⟨he, hcd.trans hde⟩

theorem Acts.mono (h : Acts sec X m c Q) (hQ : ∀ a d, Q a d → Q' a d) : Acts sec X m c Q' :=
  Ensures.mono h (fun a d ⟨hcd, ha⟩ => ⟨hcd, hQ a d ha⟩) fun _ _ h => h

theorem Acts.bind (h : Acts sec X m c Q) (hf : ∀ a d, Q a d → Acts sec X (f a) d R) :
    Acts sec X (m >>= f) c R := by
  refine ensures_bind.mpr (Ensures.mono h ?_ fun _ _ h => h)
  rintro a d ⟨hcd, hQ⟩
  exact (hf a d hQ).behind hcd

theorem Acts.outcome (h : Acts sec X m c Q) : ReflTransGen (CoreStep sec) c (outcome m c).2 := by
  unfold StatefulPrograms.outcome
  obtain ⟨a, d, hm, hcd, -⟩ | ⟨e, d, hm, -, hcd⟩ := Ensures.cases h
  · rwa [hm]
  · rwa [hm]

theorem Acts.get {f : Core β ν → CoreM β ν γ} (h : Acts sec X (f c) c R) : Acts sec X (get >>= f) c R :=
  ensures_get.mpr h

theorem Acts.steps {m : CoreM β ν PUnit} {f : PUnit → CoreM β ν γ} (hm : m c = .ok ⟨⟩ d)
    (hcd : ReflTransGen (CoreStep sec) c d) (hf : Acts sec X (f ⟨⟩) d R) : Acts sec X (m >>= f) c R := by
  rw [Acts, ensures_bind, ensures_of_ok hm]
  exact hf.behind hcd

theorem Acts.modifyLast {g : Core β ν → Core β ν} {R : PUnit → Core β ν → Prop}
    (hcd : ReflTransGen (CoreStep sec) c (g c)) (hR : R ⟨⟩ (g c)) :
    Acts sec X (modify g : CoreM β ν PUnit) c R := (ensures_of_ok modify_apply).mpr ⟨hcd, hR⟩

theorem Acts.modify {g : Core β ν → Core β ν} {f : PUnit → CoreM β ν γ}
    (hcd : ReflTransGen (CoreStep sec) c (g c)) (hf : Acts sec X (f ⟨⟩) (g c) R) :
    Acts sec X (modify g >>= f) c R := .steps rfl hcd hf

theorem Acts.set {f : PUnit → CoreM β ν γ} (hcd : ReflTransGen (CoreStep sec) c d)
    (hf : Acts sec X (f ⟨⟩) d R) : Acts sec X (set d >>= f) c R := .steps rfl hcd hf

theorem ensures_lowerCall {m : ConnectionM β ν α} {f : Except Error α → CoreM β ν γ}
    {A : α → Connection β ν → Prop} {B : Connection β ν → Prop} {E : Halt Panic → Core β ν → Prop}
    (hm : Ensures m c.lower A fun e l => (∃ error, e = .failed error) ∧ B l)
    (hok : ∀ a l, A a l → Ensures (f (.ok a)) { c with lower := l } R E)
    (herror : ∀ error l, B l → Ensures (f (.error error)) { c with lower := l } R E) :
    Ensures (lowerCall m >>= f) c R E := by
  rw [ensures_bind, lowerCall, ensures_within, ensures_attempt]
  refine Ensures.mono hm hok ?_
  rintro _ l ⟨⟨error, rfl⟩, hl⟩
  exact herror error l hl

theorem Acts.below {m : ConnectionM β ν α} {f : Except Error α → CoreM β ν γ} (hm : Quietly m)
    (hf : ∀ r l, Below 0 c.lower l → Acts sec X (f r) { c with lower := l } R) :
    Acts sec X (lowerCall m >>= f) c R := by
  rw [Acts, ensures_bind, lowerCall, ensures_within, ensures_attempt]
  refine Ensures.mono (hm c.lower) ?_ ?_
  · intro a l hl
    exact (hf (.ok a) l hl).behind (.single (.lower hl))
  · intro e l hl
    cases e with
    | failed error => exact (hf (.error error) l hl).behind (.single (.lower hl))
    | outOfFuel => exact ⟨.inl rfl, .single (.lower hl)⟩

end Rules

/-! ## The operations of the core -/

section Operations
variable {sec : Section} {c : Core β ν} {id : StreamId}

theorem wake_steps (wakes : List Waker) : ReflTransGen (CoreStep sec) c (c.wake wakes) :=
  .single (.effects _)

theorem goOn_steps : ReflTransGen (CoreStep sec) c c.goOn := .single (.effects _)

theorem fail_steps (terminal : ConnectionTerminal) : ReflTransGen (CoreStep sec) c (c.fail terminal) :=
  .single (.failed ⟨0, by decide⟩ terminal 0 (.refl _) List.prefix_rfl (.inl rfl) rfl)

variable {s : StreamState}

theorem setStream_steps {t : StreamState} (here : c.streams[id]? = some s)
    (mild : Mild c.routed (MayPark sec c) id s t) : ReflTransGen (CoreStep sec) c (c.setStream id t) :=
  .single (.updated here mild)

theorem updateStream_steps {f : StreamState → StreamState × List Waker}
    (mild : ∀ s, Mild c.routed (MayPark sec c) id s (f s).1) :
    ReflTransGen (CoreStep sec) c (c.updateStream id f) := by
  rw [updateStream]
  cases here : c.streams[id]? with
  | none => exact .refl
  | some s => exact (setStream_steps here (mild s)).trans (wake_steps _)

theorem setStream_lookup : (c.setStream id s).streams[id]? = some s := by
  rw [getElem?_setStream, if_pos rfl]

theorem updateStream_eq {f : StreamState → StreamState × List Waker}
    (here : c.streams[id]? = some s) : c.updateStream id f = (c.setStream id (f s).1).wake (f s).2 := by
  rw [updateStream, here]

theorem cleanup_steps : ReflTransGen (CoreStep sec) c (c.cleanup id) := by
  rw [cleanup]
  cases here : c.streams[id]? with
  | none => exact .refl
  | some s =>
    dsimp only
    split
    · rename_i h
      simp only [Bool.and_eq_true, Bool.not_eq_true', List.isEmpty_iff] at h
      exact .single (.retired here h.1.1.1.1 h.1.1.1.2 h.2)
    · exact .refl

theorem goOn_if_steps {d : Core β ν} (h : ReflTransGen (CoreStep sec) c d) (new : Bool) :
    ReflTransGen (CoreStep sec) c (if new then d.goOn else d) := by
  cases new with
  | false => exact h
  | true => exact h.trans goOn_steps

theorem parkSend_steps (finish waitingOutput : Bool) (waker : Waker) (mayPark : MayPark sec c) :
    ReflTransGen (CoreStep sec) c (c.parkSend id finish waitingOutput waker) := by
  rw [parkSend]
  cases here : c.streams[id]? with
  | none => exact .refl
  | some s =>
    apply goOn_if_steps
    apply setStream_steps here
    cases finish with
    | false => exact ⟨rfl, rfl, rfl, rfl, .inl rfl, .inl rfl, .inl mayPark⟩
    | true => exact ⟨rfl, rfl, rfl, rfl, .inl rfl, .inl rfl, .inl mayPark⟩

theorem parkRecv_steps (waker : Waker) (mayPark : MayPark sec c) :
    ReflTransGen (CoreStep sec) c (c.parkRecv id waker) := by
  rw [parkRecv]
  cases here : c.streams[id]? with
  | none => exact .refl
  | some s =>
    apply goOn_if_steps
    exact setStream_steps here ⟨rfl, rfl, rfl, rfl, .inl rfl, .inl rfl, .inl mayPark⟩

theorem parkAccept_steps (kind : AcceptKind) (waker : Waker) (live : c.terminal = none) :
    ReflTransGen (CoreStep sec) c (parkAccept c kind waker) := by
  cases kind with
  | uni => exact goOn_if_steps (.single (.slots (.inl live))) _
  | bidi => exact goOn_if_steps (.single (.slots (.inl live))) _

theorem parkOpen_steps (opener : ℕ) (kind : OpenKind) (waker : Waker) (live : c.terminal = none) :
    ReflTransGen (CoreStep sec) c (parkOpen c opener kind waker) := by
  cases kind with
  | uni => exact goOn_if_steps (.single (.slots (.inl live))) _
  | bidi => exact goOn_if_steps (.single (.slots (.inl live))) _

theorem mapOpeners_steps {f : OpenerWaiters → OpenerWaiters} (hf : f {} = {}) :
    ReflTransGen (CoreStep sec) c (c.mapOpeners f) := by
  refine .single (.slots (.inr fun h => ⟨h.acceptUni, h.acceptBidi, ?_⟩))
  intro opener slots hslots
  rw [Std.TreeMap.getElem?_map] at hslots
  obtain ⟨old, hold, rfl⟩ := Option.map_eq_some_iff.mp hslots
  rw [h.openers opener old hold, hf]

theorem wakeOpeners_steps (kind : OpenKind) : ReflTransGen (CoreStep sec) c (c.wakeOpeners kind) := by
  cases kind with
  | uni => exact (mapOpeners_steps rfl).trans (wake_steps _)
  | bidi => exact (mapOpeners_steps rfl).trans (wake_steps _)

theorem waiters_eq_nil :
    s.waiters = [] ↔ s.recvWaiter = none ∧ s.sendWaiter = none ∧ s.finishWaiter = none := by
  simp [StreamState.waiters]

theorem wakeAllSenders_steps : ReflTransGen (CoreStep sec) c c.wakeAllSenders := by
  refine .trans (.single (.swept ?_)) (wake_steps _)
  intro id s
  refine ⟨rfl, rfl, rfl, rfl, .inl rfl, .inl rfl, .inr ?_⟩
  intro h
  rw [waiters_eq_nil] at h ⊢
  exact ⟨h.1, rfl, rfl⟩

theorem wakeOutputSenders_steps : ReflTransGen (CoreStep sec) c c.wakeOutputSenders := by
  refine .trans (.single (.swept ?_)) (wake_steps _)
  intro id s
  refine ⟨rfl, rfl, rfl, rfl, .inl rfl, .inl rfl, .inr ?_⟩
  intro h
  rw [waiters_eq_nil] at h ⊢
  simp [StreamState.outputDrained, h]

theorem stopWriting_steps : ReflTransGen (CoreStep sec) c (stopWriting c id) :=
  updateStream_steps fun _ => ⟨rfl, rfl, rfl, rfl, .inl rfl, .inl rfl, .inr fun h => h⟩

theorem allocateOpener_steps : ReflTransGen (CoreStep sec) c c.allocateOpener.2 := by
  refine .single (.slots (.inr fun h => ⟨h.acceptUni, h.acceptBidi, ?_⟩))
  intro opener slots hslots
  rw [Std.TreeMap.getElem?_insert] at hslots
  split at hslots
  · exact (Option.some.inj hslots).symm
  · exact h.openers opener slots hslots

theorem removeOpener_steps (opener : ℕ) : ReflTransGen (CoreStep sec) c (c.removeOpener opener) := by
  refine .single (.slots (.inr fun h => ⟨h.acceptUni, h.acceptBidi, ?_⟩))
  intro other slots hslots
  rw [Std.TreeMap.getElem?_erase] at hslots
  split at hslots
  · cases hslots
  · exact h.openers other slots hslots

end Operations

/-! ## Routing -/

section Routing
variable {sec : Section} {X : Prop} {c d : Core β ν} {id : StreamId} {event : Event}

theorem mem_observe : event ∈ (observe c event).routed :=
  List.mem_append.mpr (.inr (List.mem_singleton.mpr rfl))

theorem enqueue_observe : (observe c event).enqueue id = observe (c.enqueue id) event := by
  rw [enqueue, enqueue]
  cases acceptKind id <;> rfl

theorem enqueue_streams : (c.enqueue id).streams = c.streams.insert id { pendingAccept := true } := by
  rw [enqueue]
  cases acceptKind id <;> rfl

theorem enqueue_lookup : (c.enqueue id).streams[id]? = some { pendingAccept := true } := by
  rw [enqueue_streams, Std.TreeMap.getElem?_insert_self]

theorem observe_steps (empty : event.dataLen = 0) : ReflTransGen (CoreStep sec) c (observe c event) :=
  .single (.observed empty (.inl rfl))

theorem observe_met_steps (empty : event.dataLen = 0) (name : named event = some id) (met : Met c id d) :
    ReflTransGen (CoreStep sec) c (observe d event) :=
  .single (.observed empty (.inr ⟨id, name, met⟩))

theorem observe_fail_steps (terminal : ConnectionTerminal) :
    ReflTransGen (CoreStep sec) c ((observe c event).fail terminal) :=
  .single (.failed ⟨0, by decide⟩ terminal 0 (.refl _) (List.prefix_append _ _) (.inl rfl) rfl)

theorem observe_overload_steps : ReflTransGen (CoreStep sec) c (observe c event).overload :=
  .single (.overloaded (List.prefix_append _ _) rfl)

theorem discoverPeer_cases (c : Core β ν) (id : StreamId) (event : Event) :
    (∃ d, (observe c event).discoverPeer id = (true, observe d event) ∧ Met c id d ∧
      ∃ s, d.streams[id]? = some s) ∨
    (∃ terminal, (observe c event).discoverPeer id = (false, (observe c event).fail terminal)) ∨
    (observe c event).discoverPeer id = (false, (observe c event).overload) := by
  rw [discoverPeer]
  split
  · rename_i known
    exact .inl ⟨c, rfl, .inl rfl, contains_iff.mp known⟩
  rename_i unknown
  split
  · exact .inr (.inl ⟨_, rfl⟩)
  rename_i peer
  split
  · exact .inr (.inr rfl)
  rename_i room
  have fresh : Fresh c id :=
    ⟨contains_eq_false_iff.mp (Bool.eq_false_iff.mpr unknown), peer, Nat.lt_of_not_le room⟩
  exact .inl ⟨c.enqueue id, by rw [enqueue_observe], .inr ⟨fresh, rfl⟩, _, enqueue_lookup⟩

theorem streamOpened_steps : ReflTransGen (CoreStep sec) c
    (if id.initiator = (observe c (.streamOpened id)).localInitiator then
      (observe c (.streamOpened id)).fail
        (.internal "QMux reported a locally initiated stream as peer-opened")
    else ((observe c (.streamOpened id)).discoverPeer id).2) := by
  split
  · exact observe_fail_steps _
  · rcases discoverPeer_cases c id (.streamOpened id) with ⟨d, hfound, met, -⟩ | ⟨terminal, hfailed⟩ | hfull
    · rw [hfound]
      exact observe_met_steps rfl rfl met
    · rw [hfailed]
      exact observe_fail_steps _
    · rw [hfull]
      exact observe_overload_steps

theorem receive_acts {s : StreamState} {offset : ℕ} {data : Bytes} {fin : Bool}
    (valid : c.receiveDirectionValid id = true) (met : Met c id d) (here : d.streams[id]? = some s)
    (live : s.recvShutdownSent = false) :
    ReflTransGen (CoreStep sec) c
      ((observe d (.streamData id offset data fin)).receive id s data fin) := by
  rw [receive]
  by_cases hdata : data = []
  · subst hdata
    have hseen : ReflTransGen (CoreStep sec) c (observe d (.streamData id offset [] fin)) :=
      observe_met_steps rfl rfl met
    rw [if_neg (by simp)]
    split
    · rename_i hfin
      obtain ⟨rfl, -⟩ := Bool.and_eq_true_iff.mp hfin
      refine hseen.trans (.trans ?_ (wake_steps _))
      apply setStream_steps (c := observe d _) here
      refine ⟨rfl, rfl, rfl, rfl, .inl rfl, .inr ?_, .inr ?_⟩
      · exact ⟨_, mem_observe, rfl, rfl⟩
      · intro h
        rw [waiters_eq_nil] at h ⊢
        exact ⟨rfl, h.2⟩
    · exact hseen
  · rw [if_pos hdata]
    exact .trans (.single (.arrived valid met here live hdata)) (wake_steps _)

variable [Dwnx ν]

theorem refund_acts {offset : ℕ} {data : Bytes} {fin : Bool} :
    Ensures (refund data.length) (observe c (.streamData id offset data fin))
      (fun _ d => ReflTransGen (CoreStep sec) c d)
      fun e d => (e = .outOfFuel ∨ X) ∧ ReflTransGen (CoreStep sec) c d := by
  rw [refund]
  apply ensures_lowerCall (c := observe c _) (extendConnectionCredit_below data.length c.lower)
  · intro _ l below
    exact ensures_pure.mpr (.single (.refunded below))
  · intro error l below
    apply (ensures_of_ok modify_apply).mpr
    exact .single (.failed id _ 0 below (List.prefix_append _ _) (.inl rfl) rfl)

theorem routeData_acts (offset : ℕ) (data : Bytes) (fin : Bool) :
    Ensures (routeData id data fin) (observe c (.streamData id offset data fin))
      (fun _ d => ReflTransGen (CoreStep sec) c d)
      fun e d => (e = .outOfFuel ∨ X) ∧ ReflTransGen (CoreStep sec) c d := by
  rw [routeData, ensures_get]
  split
  · exact (ensures_of_ok set_apply).mpr (observe_fail_steps _)
  rename_i hvalid
  have valid : (observe c (.streamData id offset data fin)).receiveDirectionValid id = true := by
    simpa using hvalid
  have hfind : (if (observe c (.streamData id offset data fin)).streams.contains id then
        (true, observe c (.streamData id offset data fin))
      else (observe c (.streamData id offset data fin)).discoverPeer id) =
      (observe c (.streamData id offset data fin)).discoverPeer id := by
    split
    · rename_i known
      rw [discoverPeer, if_pos known]
    · rfl
  rw [hfind]
  rcases discoverPeer_cases c id (.streamData id offset data fin) with
    ⟨d, hfound, met, s, here⟩ | ⟨terminal, hfailed⟩ | hfull
  · rw [hfound]
    dsimp only
    rw [ensures_bind, ensures_of_ok set_apply, if_pos rfl]
    have hlookup : (observe d (.streamData id offset data fin)).streams[id]? = some s := here
    rw [hlookup]
    dsimp only
    cases hsent : s.recvShutdownSent with
    | true =>
      -- a stream that was only now discovered has its receive side open
      have hknown : d = c := by
        rcases met with rfl | ⟨-, rfl⟩
        · rfl
        · rw [enqueue_lookup] at here
          cases here
          cases hsent
      subst hknown
      rw [if_pos rfl]
      split
      · exact refund_acts
      · rename_i hempty
        obtain rfl : data = [] := not_not.mp hempty
        exact ensures_pure.mpr (observe_steps rfl)
    | false =>
      rw [if_neg (by simp)]
      exact (ensures_of_ok set_apply).mpr (receive_acts valid met here hsent)
  · rw [hfailed]
    dsimp only
    rw [ensures_bind, ensures_of_ok set_apply, if_neg (by simp), ensures_pure]
    exact observe_fail_steps _
  · rw [hfull]
    dsimp only
    rw [ensures_bind, ensures_of_ok set_apply, if_neg (by simp), ensures_pure]
    exact observe_overload_steps

theorem route_acts (event : Event) : Acts sec X (route event) c fun _ _ => True := by
  have hlast {f : Core β ν → Core β ν} (h : ReflTransGen (CoreStep sec) c (f (observe c event))) :
      Ensures (modify f : CoreM β ν Unit) (observe c event)
        (fun _ d => ReflTransGen (CoreStep sec) c d ∧ True)
        fun e d => (e = .outOfFuel ∨ X) ∧ ReflTransGen (CoreStep sec) c d :=
    (ensures_of_ok modify_apply).mpr ⟨h, trivial⟩
  rw [Acts, route.eq_def, ensures_modify]
  cases event with
  | streamData id offset data fin =>
    exact Ensures.mono (routeData_acts offset data fin) (fun _ _ h => ⟨h, trivial⟩) fun _ _ h => h
  | streamOpened id => exact hlast streamOpened_steps
  | streamClosed id rx tx =>
    refine hlast (.trans (observe_steps rfl) (.trans (updateStream_steps fun s => ?_) cleanup_steps))
    refine ⟨rfl, rfl, rfl, rfl, .inr ⟨_, mem_observe, rfl⟩, .inr ⟨_, mem_observe, rfl⟩, .inr fun _ => ?_⟩
    exact waiters_eq_nil.mpr ⟨rfl, rfl, rfl⟩
  | streamReset id finalSize code =>
    refine hlast (.trans (observe_steps rfl) (updateStream_steps fun s => ?_))
    refine ⟨rfl, rfl, rfl, rfl, .inl rfl, .inr ⟨_, mem_observe, rfl⟩, .inr fun h => ?_⟩
    rw [waiters_eq_nil] at h ⊢
    exact ⟨rfl, h.2⟩
  | stopSending id code =>
    refine hlast (.trans (observe_steps rfl) (updateStream_steps fun s => ?_))
    refine ⟨rfl, rfl, rfl, rfl, .inl rfl, .inl rfl, .inr fun h => ?_⟩
    rw [waiters_eq_nil] at h ⊢
    exact ⟨h.1, rfl, rfl⟩
  | streamDataCredit id maxData =>
    refine hlast (.trans (observe_steps rfl) (updateStream_steps fun s => ?_))
    refine ⟨rfl, rfl, rfl, rfl, .inl rfl, .inl rfl, .inr fun h => ?_⟩
    rw [waiters_eq_nil] at h ⊢
    exact ⟨h.1, rfl, rfl⟩
  | connectionDataCredit available => exact hlast (.trans (observe_steps rfl) wakeAllSenders_steps)
  | streamLimit kind maxStreams =>
    cases kind with
    | localBidi => exact hlast (.trans (observe_steps rfl) (wakeOpeners_steps _))
    | localUni => exact hlast (.trans (observe_steps rfl) (wakeOpeners_steps _))
    | remoteBidi => exact ensures_pure.mpr ⟨observe_steps rfl, trivial⟩
    | remoteUni => exact ensures_pure.mpr ⟨observe_steps rfl, trivial⟩
  | peerTransportParams =>
    exact hlast (.trans (observe_steps rfl) (.trans (wakeOpeners_steps _)
      (.trans (wakeOpeners_steps _) wakeAllSenders_steps)))

theorem routeQueued_acts (budget : ℕ) :
    ∀ c : Core β ν, Acts sec X (routeQueued budget) c fun _ _ => True := by
  induction budget with
  | zero => intro c; exact Acts.pure trivial
  | succ budget ih =>
    intro c
    rw [routeQueued]
    apply Acts.below takeEvent_quietly
    intro r l _
    split
    · apply Acts.bind (route_acts _)
      intro _ d _
      apply Acts.get
      split
      · exact Acts.pure trivial
      · exact ih d
    · exact Acts.pure trivial

variable [AsyncByteStream β]

theorem routePolled_acts (fuel budget : ℕ) : Acts sec X (routePolled fuel budget) c fun _ _ => True := by
  rw [routePolled]
  apply Acts.below (pollNextEvent_quietly fuel lowerWaker)
  intro r l _
  split
  · apply Acts.bind (route_acts _)
    intro _ d _
    apply Acts.get
    split
    · exact Acts.pure trivial
    · exact Acts.bind (routeQueued_acts _ d) fun _ _ _ => Acts.pure trivial
  · exact Acts.modify (fail_steps _) (Acts.pure trivial)
  · exact Acts.bind (routeQueued_acts _ _) fun _ _ _ => Acts.pure trivial

theorem finishTurn_acts (fuel queuedBefore budget : ℕ) :
    Acts sec X (finishTurn fuel queuedBefore budget) c fun _ _ => True := by
  have hwoken (d : Core β ν) : ReflTransGen (CoreStep sec) d
      (if d.terminal.isNone && decide (d.lower.out.filled < queuedBefore) then d.wakeOutputSenders else d) := by
    split
    · exact wakeOutputSenders_steps
    · exact .refl
  have hlast (again : Bool) (d : Core β ν) :
      Acts sec X (if again then modify goOn else pure () : CoreM β ν Unit) d fun _ _ => True := by
    cases again with
    | false => exact Acts.pure trivial
    | true => exact Acts.modifyLast goOn_steps trivial
  rw [finishTurn]
  split
  · exact Acts.bind (routePolled_acts fuel budget) fun _ d _ => Acts.modify (hwoken d) (hlast _ _)
  · exact Acts.bind (Acts.pure (Q := fun _ _ => True) trivial) fun _ d _ =>
      Acts.modify (hwoken d) (hlast _ _)

theorem driveTurn_acts (fuel : ℕ) : Acts sec X (driveTurn fuel) c fun _ _ => True := by
  rw [driveTurn]
  apply Acts.get
  split
  · exact Acts.pure trivial
  · apply Acts.bind (routeQueued_acts _ c)
    intro budget d _
    apply Acts.get
    split
    · exact Acts.pure trivial
    · exact finishTurn_acts fuel _ budget

end Routing

/-! ## The handles -/

section Handles
variable {sec : Section} {X : Prop} {c : Core β ν} {id : StreamId}

/-- Every stream of a queue is known. -/
def Queued (c : Core β ν) : Prop := ∀ kind, ∀ id ∈ c.pending kind, ∃ s, c.streams[id]? = some s

theorem accept_acts (kind : AcceptKind) (waker : Waker) (queued : ¬ Queued c → X) :
    Acts (.accept kind waker) X (accept kind waker) c fun _ _ => True := by
  rw [accept]
  apply Acts.get
  cases hterminal : c.terminal with
  | some terminal => exact Acts.pure trivial
  | none =>
    cases hpending : c.pending kind with
    | nil => exact Acts.set (parkAccept_steps kind waker hterminal) (Acts.pure trivial)
    | cons id rest =>
      dsimp only
      cases here : c.streams[id]? with
      | some s => exact Acts.set (.single (.accepted ⟨waker, rfl⟩ hpending here)) (Acts.pure trivial)
      | none =>
        apply Acts.set (.single (.panicked hpending here))
        apply Acts.panic
        apply queued
        intro hknown
        obtain ⟨s, hs⟩ := hknown kind id (by rw [hpending]; exact List.mem_cons_self)
        rw [here] at hs
        cases hs

/-- The receive side of the stream is drained, or the connection has ended. -/
def Drained (id : StreamId) (c : Core β ν) : Prop :=
  c.terminal.isSome = true ∨ ∀ s, c.streams[id]? = some s → s.recv = [] ∧ s.recvTerminal.isSome = true

theorem dropDirection_steps (drained : Drained id c) :
    ReflTransGen (CoreStep sec) c (c.dropDirection id false) := by
  refine .trans ?_ cleanup_steps
  rw [updateStream]
  cases here : c.streams[id]? with
  | none => exact .refl
  | some s => exact .trans (.single (.dropped here (drained.imp_right fun h => h s here))) (wake_steps _)

theorem failOver_acts {α : Type} (terminal : ConnectionTerminal) (a : α) :
    Acts sec X (failOver terminal a) c fun _ _ => True :=
  Acts.modify (fail_steps terminal) (Acts.pure trivial)

theorem orFail_acts (result : Except ConnectionTerminal Unit) :
    Acts sec X (orFail result) c fun _ _ => True := by
  cases result with
  | ok _ => exact Acts.pure trivial
  | error terminal => exact Acts.modifyLast (fail_steps terminal) trivial

theorem park_acts {α : Type} (finish output : Bool) (waker : Waker) (a : α) (mayPark : MayPark sec c) :
    Acts sec X (park id finish output waker a) c fun _ _ => True :=
  Acts.modify (parkSend_steps finish _ waker mayPark) (Acts.pure trivial)

variable {s : StreamState}

theorem sent_mild {routed : List Event} {mayPark : Prop} {t : StreamState}
    (h : t = { s with writing := t.writing, sendTerminal := t.sendTerminal
                      sendShutdownSent := t.sendShutdownSent, sendHandle := t.sendHandle }) :
    Mild routed mayPark id s t := by
  rw [h]
  exact ⟨rfl, rfl, rfl, rfl, .inl rfl, .inl rfl, .inr fun hs => hs⟩

theorem keepWriting_acts (data : Buf) (here : c.streams[id]? = some s) :
    Acts sec X (keepWriting id data) c fun _ d => d.terminal = c.terminal := by
  rw [keepWriting]
  apply Acts.get
  rw [here]
  exact Acts.modifyLast (setStream_steps here (sent_mild rfl)) rfl

theorem live_of_sendTerminal (h : sendTerminal c id = none) : c.terminal = none := by
  rw [sendTerminal.eq_def] at h
  cases hterminal : c.terminal with
  | none => rfl
  | some terminal =>
    rw [hterminal] at h
    cases h

variable [Dwnx ν]

theorem openStream_acts (opener : ℕ) (kind : OpenKind) (waker : Waker) :
    Acts sec X (openStream opener kind waker) c fun _ _ => True := by
  rw [openStream]
  apply Acts.get
  cases hterminal : c.terminal with
  | some terminal => exact Acts.pure trivial
  | none =>
    apply ensures_lowerCall (tryOpen_below kind.directionality c.lower)
    · rintro result l ⟨below, hcalls⟩
      cases result with
      | opened id =>
        rw [ensures_modify, ensures_pure]
        exact ⟨.single (.openedStream below (hcalls id rfl)), trivial⟩
      | blocked =>
        rw [ensures_modify, ensures_pure]
        refine ⟨.trans (.single (.lower below)) (parkOpen_steps opener kind waker hterminal), trivial⟩
    · intro error l below
      rw [ensures_modify, ensures_pure]
      exact ⟨.trans (.single (.lower below)) (fail_steps _), trivial⟩

theorem drainReceived_acts {code : ℕ} (here : c.streams[id]? = some s) (shutdownSent : Bool)
    (ended : shutdownSent = true ∨ shutdownSent = s.recvShutdownSent ∧ s.recvTerminal.isSome = true) :
    Acts sec X (drainReceived id { s with recvShutdownSent := shutdownSent } code >>= orFail) c
      fun _ => Drained id := by
  have hdrained (l : Connection β ν) : Drained id ({ c with lower := l }.setStream id { s with
      recvShutdownSent := shutdownSent, recvTerminal := s.recvTerminal.or (some (.stopped code)), recv := [] }) := by
    right
    intro t ht
    rw [getElem?_setStream, if_pos rfl] at ht
    cases ht
    refine ⟨rfl, ?_⟩
    cases s.recvTerminal <;> rfl
  rw [drainReceived, Acts, ensures_bind, ensures_modify]
  dsimp only
  split
  · rename_i hzero
    rw [ensures_pure, orFail, ensures_pure]
    refine ⟨.single (.discarded here ended ?_), hdrained c.lower⟩
    rw [hzero]
    exact .refl _
  · apply ensures_lowerCall (c := c.setStream id _) (extendConnectionCredit_below _ c.lower)
    · intro _ l below
      rw [ensures_pure, orFail, ensures_pure]
      exact ⟨.single (.discarded here ended below), hdrained l⟩
    · intro error l below
      rw [ensures_pure, orFail, ensures_of_ok modify_apply]
      refine ⟨.single (.failed id _ 0 below List.prefix_rfl (.inr ⟨s, _, here, rfl, rfl, rfl, rfl⟩) rfl), ?_⟩
      exact .inl (by rw [fail_terminal]; rfl)

theorem discardReceive_acts (code : ℕ) :
    Acts sec X (discardReceive id code >>= orFail) c fun _ => Drained id := by
  rw [discardReceive, bind_assoc]
  apply Acts.get
  cases here : c.streams[id]? with
  | none =>
    dsimp only
    rw [Acts, ensures_bind, ensures_pure, orFail, ensures_pure]
    exact ⟨.refl, .inr fun s hs => by rw [here] at hs; cases hs⟩
  | some s =>
    dsimp only
    split
    · rw [bind_assoc]
      apply Acts.below (shutdownStream_quietly id .read code)
      intro r l below
      cases r with
      | error error =>
        dsimp only
        rw [Acts, ensures_bind, ensures_pure, orFail, ensures_of_ok modify_apply]
        exact ⟨fail_steps _, .inl (by rw [fail_terminal]; rfl)⟩
      | ok _ => exact drainReceived_acts (c := { c with lower := l }) here _ (.inl rfl)
    · rename_i hended
      have hcase : s.recvShutdownSent = true ∨ s.recvTerminal.isSome = true := by
        cases hsent : s.recvShutdownSent <;> cases hterminal : s.recvTerminal <;> simp_all
      rcases hcase with hsent | hterminal
      · exact drainReceived_acts here s.recvShutdownSent (.inl hsent)
      · exact drainReceived_acts here s.recvShutdownSent (.inr ⟨rfl, hterminal⟩)

theorem stopSending_acts (code : ℕ) : Acts sec X (stopSending id code) c fun _ _ => True :=
  (discardReceive_acts code).mono fun _ _ _ => trivial

theorem dropRecv_acts : Acts sec X (dropRecv id) c fun _ _ => True := by
  show Acts sec X (discardReceive id abandoned >>= fun r => orFail r >>= fun _ => _) c _
  rw [← bind_assoc]
  apply Acts.bind (discardReceive_acts abandoned)
  intro _ d drained
  exact Acts.modifyLast (dropDirection_steps drained) trivial

omit [Dwnx ν] in
theorem pollEmpty_acts (waker : Waker) (live : c.terminal = none) : Acts sec X (match c.streamError id false with
    | some .finished | some (.stopped _) => pure (.ready (.ok none))
    | some (.reset code) => pure (.ready (.error (.terminated code)))
    | none => do
      set (c.parkRecv id waker)
      pure .pending : CoreM β ν (Poll (Except StreamError (Option Bytes)))) c fun _ _ => True := by
  split
  · exact Acts.pure trivial
  · exact Acts.pure trivial
  · exact Acts.pure trivial
  · exact Acts.set (parkRecv_steps waker (.inr live)) (Acts.pure trivial)

theorem pollData_acts (waker : Waker) : Acts sec X (pollData id waker) c fun _ _ => True := by
  rw [pollData]
  apply Acts.get
  cases hterminal : c.terminal with
  | some terminal => exact Acts.pure trivial
  | none =>
    cases here : c.streams[id]? with
    | none => exact pollEmpty_acts waker hterminal
    | some s =>
      cases hrecv : s.recv with
      | nil =>
        simp only [Option.map_some, hrecv]
        exact pollEmpty_acts waker hterminal
      | cons item rest =>
        simp only [Option.map_some, hrecv]
        rw [Acts, ensures_bind, ensures_of_ok set_apply]
        apply ensures_lowerCall (c := c.setStream id _) (creditRead_below id item.data.length c.lower)
        · intro _ l below
          dsimp only
          split
          · rename_i hfin
            rw [ensures_modify, ensures_modify, ensures_pure, updateStream_eq
              (c := { c.setStream id { s with recv := rest } with lower := l }) setStream_lookup]
            refine ⟨.trans (.single (.readLast here hrecv hfin below)) (.trans (wake_steps _) goOn_steps), trivial⟩
          · rw [ensures_modify, ensures_pure]
            exact ⟨.trans (.single (.read here hrecv below)) goOn_steps, trivial⟩
        · intro error l below
          dsimp only
          rw [failOver, ensures_modify, ensures_pure]
          exact ⟨.single (.failed id _ 0 below List.prefix_rfl (.inr ⟨s, _, here, rfl, rfl, rfl, rfl⟩) rfl),
            trivial⟩

theorem resetSend_acts (code : ℕ) : Acts sec X (resetSend id code) c fun _ _ => True := by
  rw [resetSend]
  apply Acts.get
  cases here : c.streams[id]? with
  | none => exact Acts.pure trivial
  | some s =>
    dsimp only
    split
    · exact Acts.pure trivial
    split
    · exact Acts.modify (setStream_steps here (sent_mild rfl)) (Acts.pure trivial)
    · apply Acts.below (shutdownStream_quietly id .write code)
      intro r l _
      cases r with
      | error error => exact Acts.pure trivial
      | ok _ => exact Acts.modify (setStream_steps here (sent_mild rfl)) (Acts.pure trivial)

theorem resetStream_acts (code : ℕ) : Acts sec X (resetStream id code) c fun _ _ => True := by
  rw [resetStream]
  apply Acts.modify stopWriting_steps
  exact Acts.bind (resetSend_acts code) fun r _ _ => orFail_acts r

theorem dropSend_acts : Acts sec X (dropSend id) c fun _ _ => True := by
  have hdrop (d : Core β ν) : Acts sec X (modify (·.dropDirection id true) : CoreM β ν Unit) d fun _ _ => True := by
    refine Acts.modifyLast (.trans ?_ cleanup_steps) trivial
    exact updateStream_steps fun s => sent_mild rfl
  rw [dropSend]
  apply Acts.modify stopWriting_steps
  apply Acts.get
  split
  · apply Acts.bind (resetSend_acts abandoned)
    intro r d _
    exact Acts.bind (orFail_acts r) fun _ d _ => hdrop d
  · exact hdrop _

theorem offerRetained_acts (data : Buf) (waker : Waker) (here : c.streams[id]? = some s)
    (live : c.terminal = none) : Acts sec X (offerRetained id data waker) c fun _ _ => True := by
  rw [offerRetained]
  apply Acts.below (tryWriteStream_quietly id data.chunk false)
  intro r l _
  have hkeep (data : Buf) (finish output : Bool) (step : WriteStep) : Acts sec X (do
      keepWriting id data
      park id finish output waker step) { c with lower := l } fun _ _ => True := by
    apply Acts.bind (keepWriting_acts (c := { c with lower := l }) data here)
    intro _ d hd
    exact park_acts finish output waker step (.inr (hd.trans live))
  split
  · split
    · exact failOver_acts _ _
    split
    · exact hkeep _ _ _ _
    · apply Acts.modify goOn_steps
      split
      · exact Acts.pure trivial
      · apply Acts.bind (keepWriting_acts (c := Core.goOn { c with lower := l }) _ here)
        intro _ d hd
        split
        · exact park_acts false true waker _ (.inr (hd.trans live))
        · exact Acts.pure trivial
  · exact hkeep _ _ _ _
  · exact hkeep _ _ _ _
  · exact failOver_acts _ _

theorem retainedTurn_acts (waker : Waker) : Acts sec X (retainedTurn id waker) c fun _ _ => True := by
  rw [retainedTurn]
  apply Acts.get
  cases hterminal : sendTerminal c id with
  | some error => exact Acts.pure trivial
  | none =>
    have live := live_of_sendTerminal hterminal
    cases here : c.streams[id]? with
    | none => exact Acts.pure trivial
    | some s =>
      cases hwriting : s.writing with
      | none =>
        simp only [Option.bind_some, hwriting]
        exact Acts.pure trivial
      | some data =>
        simp only [Option.bind_some, hwriting]
        apply Acts.modify (updateStream_steps fun s => sent_mild rfl)
        rw [updateStream_eq here]
        split
        · exact Acts.pure trivial
        split
        · exact failOver_acts _ _
        · exact offerRetained_acts data waker (s := { s with writing := none }) setStream_lookup live

omit [Dwnx ν] in
theorem sendData_acts (data : Buf) : Acts sec X (sendData id data) c fun _ _ => True := by
  rw [sendData]
  apply Acts.get
  cases sendTerminal c id with
  | some error => exact Acts.pure trivial
  | none =>
    cases here : c.streams[id]? with
    | none => exact Acts.pure trivial
    | some s =>
      dsimp only
      split
      · exact Acts.pure trivial
      · exact Acts.set (setStream_steps here (sent_mild rfl)) (Acts.pure trivial)

omit [Dwnx ν] in
theorem finishCheck_acts : Acts sec X (finishCheck id) c fun _ _ => True := by
  rw [finishCheck]
  apply Acts.get
  cases c.terminal with
  | some terminal => exact Acts.pure trivial
  | none => exact Acts.pure trivial

theorem finishWrite_acts (waker : Waker) : Acts sec X (finishWrite id waker) c fun _ _ => True := by
  rw [finishWrite]
  apply Acts.get
  cases live : c.terminal with
  | some terminal => exact Acts.pure trivial
  | none =>
    dsimp only
    split
    · exact Acts.pure trivial
    · exact Acts.pure trivial
    · apply Acts.below (tryWriteStream_quietly id [] true)
      intro r l _
      split
      · split
        · apply Acts.modify (updateStream_steps fun s => sent_mild rfl)
          exact Acts.modify goOn_steps (Acts.pure trivial)
        · exact failOver_acts _ _
      · exact park_acts true true waker _ (.inr live)
      · exact park_acts true false waker _ (.inr live)
      · exact failOver_acts _ _

theorem sendWrite_acts (chunk : Bytes) (waker : Waker) (mayPark : MayPark sec c) :
    Acts sec X (sendWrite id chunk waker) c fun _ _ => True := by
  rw [sendWrite]
  apply Acts.below (tryWriteStream_quietly id chunk false)
  intro r l _
  split
  · split
    · exact failOver_acts _ _
    split
    · exact park_acts false true waker _ mayPark
    · exact Acts.modify goOn_steps (Acts.pure trivial)
  · exact park_acts false true waker _ mayPark
  · exact park_acts false false waker _ mayPark
  · exact failOver_acts _ _

/-! ## The driver -/

variable [AsyncByteStream β]

omit [Dwnx ν] [AsyncByteStream β] in
theorem complete_acts (error : AdapterError) (ended : c.terminal.isSome = true ∨ c.close.isSome = true) :
    Acts .driver X (complete error) c fun _ _ => True :=
  Acts.modify (.single (.resolved rfl _ _ ended)) (Acts.pure trivial)

theorem driveClose_acts (fuel : ℕ) {reason : CloseReason} (asked : c.close = some reason)
    (failure : ¬ (c.closeIsFailure = true → c.terminal.isSome = true) → X) :
    Acts .driver X (driveClose fuel reason) c fun _ _ => True := by
  have hended : c.terminal.isSome = true ∨ c.close.isSome = true := .inr (by rw [asked]; rfl)
  rw [driveClose]
  apply Acts.below (pollClose_quietly fuel lowerWaker reason)
  intro r l _
  split
  · apply Acts.modify (.single (.resolved (c := { c with lower := l }) rfl _ _ hended))
    apply Acts.get
    split
    · rename_i hfailure
      cases hterminal : c.terminal with
      | some terminal =>
        dsimp only
        exact complete_acts _ (.inl rfl)
      | none =>
        dsimp only
        apply Acts.panic
        apply failure
        intro h
        have hsome := h hfailure
        rw [hterminal] at hsome
        cases hsome
    · exact Acts.pure trivial
  · exact complete_acts _ hended
  · exact Acts.pure trivial

theorem drivePump_acts (fuel : ℕ) : Acts .driver X (drivePump fuel) c fun _ _ => True := by
  rw [drivePump]
  apply Acts.get
  apply Acts.below (pollPump_quietly fuel lowerWaker)
  intro r l _
  apply Acts.modify
  · split
    · exact wakeOutputSenders_steps
    · exact .refl
  · cases r with
    | error error =>
      exact Acts.modify (fail_steps _) (complete_acts _ (.inl (by rw [fail_terminal]; rfl)))
    | ok _ => exact Acts.pure trivial

theorem driveEvents_acts (fuel : ℕ) : Acts .driver X (driveEvents fuel) c fun _ _ => True := by
  rw [driveEvents]
  apply Acts.bind (driveTurn_acts fuel)
  intro _ d _
  apply Acts.get
  cases hterminal : d.terminal with
  | some terminal =>
    dsimp only
    split
    · exact Acts.modify goOn_steps (Acts.pure trivial)
    · exact complete_acts _ (.inl (by rw [hterminal]; rfl))
  | none =>
    dsimp only
    split
    · exact Acts.pure trivial
    · exact drivePump_acts fuel

theorem pollDriver_acts (fuel : ℕ)
    (failure : ¬ (c.closeIsFailure = true → c.terminal.isSome = true) → X) :
    Acts .driver X (pollDriver fuel) c fun _ _ => True := by
  rw [pollDriver]
  apply Acts.get
  split
  · cases c.driverError with
    | some error => exact Acts.pure trivial
    | none => exact Acts.pure trivial
  · cases hclose : c.close with
    | some reason => exact driveClose_acts fuel hclose failure
    | none => exact driveEvents_acts fuel

end Handles

/-! ## Sections and runs -/

section Runs
variable [Dwnx ν] [AsyncByteStream β] {c : Core β ν}

/-- What the `expect`s of the crate rely on. -/
structure Expected (c : Core β ν) : Prop where
  queued : Queued c
  failure : c.closeIsFailure = true → c.terminal.isSome = true

variable {sec : Section}

omit [Dwnx ν] [AsyncByteStream β] in
theorem map_acts {α γ : Type} {X : Prop} {m : CoreM β ν α} (f : α → γ)
    (h : Acts sec X m c fun _ _ => True) : Acts sec X (f <$> m) c fun _ _ => True :=
  Acts.bind h fun _ _ _ => Acts.pure trivial

theorem program_acts (fuel : ℕ) (sec : Section) (c : Core β ν) :
    Acts sec (¬ Expected c) (sec.program fuel) c fun _ _ => True := by
  have hqueued : ¬ Queued c → ¬ Expected c := fun h expected => h expected.queued
  have hfailure : ¬ (c.closeIsFailure = true → c.terminal.isSome = true) → ¬ Expected c :=
    fun h expected => h expected.failure
  cases sec with
  | route event => exact map_acts _ (route_acts event)
  | driver => exact map_acts _ (pollDriver_acts fuel hfailure)
  | accept kind waker => exact map_acts _ (accept_acts kind waker hqueued)
  | openStream opener kind waker => exact map_acts _ (openStream_acts opener kind waker)
  | allocateOpener => exact Acts.get (Acts.set allocateOpener_steps (Acts.pure trivial))
  | removeOpener id => exact map_acts _ (Acts.modifyLast (removeOpener_steps id) trivial)
  | close code reason => exact map_acts _ (Acts.modifyLast (.single (.closed rfl)) trivial)
  | sendCheck id => exact Acts.get (Acts.pure trivial)
  | retainedTurn id waker => exact map_acts _ (retainedTurn_acts waker)
  | sendData id data => exact map_acts _ (sendData_acts data)
  | finishCheck id => exact map_acts _ finishCheck_acts
  | finishWrite id waker => exact map_acts _ (finishWrite_acts waker)
  | reset id code => exact map_acts _ (resetStream_acts code)
  | sendGuard id => exact Acts.get (Acts.pure trivial)
  | sendWrite id chunk waker => exact map_acts _ (sendWrite_acts chunk waker (.inl ⟨id, chunk, waker, rfl⟩))
  | dropSend id => exact map_acts _ dropSend_acts
  | pollData id waker => exact map_acts _ (pollData_acts waker)
  | stopSending id code => exact map_acts _ (stopSending_acts code)
  | dropRecv id => exact map_acts _ dropRecv_acts

theorem step_steps (fuel : ℕ) (sec : Section) (c : Core β ν) :
    ReflTransGen (CoreStep sec) c (sec.step fuel c).2 ∧
      ((∃ message, (sec.step fuel c).1 = .error (.failed message)) → ¬ Expected c) := by
  have hstart : ReflTransGen (CoreStep sec) c { c with effects := {} } := .single (.effects _)
  have hacts := program_acts fuel sec { c with effects := {} }
  refine ⟨hstart.trans hacts.outcome, ?_⟩
  rw [Section.step, outcome]
  rcases Ensures.cases hacts with ⟨a, d, hrun, -⟩ | ⟨e, d, hrun, hpanic, -⟩
  · rw [hrun]
    nofun
  · rw [hrun]
    rintro ⟨message, heq⟩ expected
    cases heq
    rcases hpanic with heq | hx
    · cases heq
    · exact hx ⟨expected.queued, expected.failure⟩

/-- What is kept of the past only grows. -/
structure Grows (c d : Core β ν) : Prop where
  routed : c.routed <+: d.routed
  calls : c.lower.conn.calls <+: d.lower.conn.calls
  role : d.role = c.role
  limit : d.pendingLimit = c.pendingLimit

variable {d : Core β ν}

section
omit [Dwnx ν] [AsyncByteStream β]

theorem Grows.trans {c e : Core β ν} (h : Grows c d) (h' : Grows d e) : Grows c e :=
  ⟨h.routed.trans h'.routed, h.calls.trans h'.calls, h'.role.trans h.role, h'.limit.trans h.limit⟩

theorem Grows.refl (c : Core β ν) : Grows c c := ⟨List.prefix_rfl, List.prefix_rfl, rfl, rfl⟩

theorem enqueue_same (c : Core β ν) (id : StreamId) : ∃ streams pendingUni pendingBidi acceptUni acceptBidi effects,
    c.enqueue id = { c with streams, pendingUni, pendingBidi, acceptUni, acceptBidi, effects } := by
  rw [enqueue]
  cases acceptKind id <;> exact ⟨_, _, _, _, _, _, rfl⟩

theorem Met.grows {c : Core β ν} {id : StreamId} (h : Met c id d) : Grows c d := by
  rcases h with rfl | ⟨-, rfl⟩
  · exact .refl _
  · obtain ⟨_, _, _, _, _, _, heq⟩ := enqueue_same c id
    rw [heq]
    exact ⟨List.prefix_rfl, List.prefix_rfl, rfl, rfl⟩

theorem observed_grows {c : Core β ν} (event : Event) : Grows c (observe c event) :=
  ⟨List.prefix_append _ _, List.prefix_rfl, rfl, rfl⟩

theorem popPending_grows {c : Core β ν} (kind : AcceptKind) (rest : List StreamId) :
    Grows c (popPending c kind rest) := by
  cases kind <;> exact ⟨List.prefix_rfl, List.prefix_rfl, rfl, rfl⟩

theorem fail_grows {c : Core β ν} (terminal : ConnectionTerminal) (h : Grows c d) :
    Grows c (d.fail terminal) :=
  ⟨by rw [fail_routed]; exact h.routed, by rw [fail_lower]; exact h.calls, (fail_role d _).trans h.role,
    (fail_pendingLimit d _).trans h.limit⟩

theorem step_grows {c : Core β ν} (h : CoreStep sec c d) : Grows c d := by
  cases h with
  | lower below => exact ⟨List.prefix_rfl, below.calls, rfl, rfl⟩
  | observed _ met =>
    rcases met with rfl | ⟨id, -, met⟩
    · exact observed_grows _
    · exact met.grows.trans (observed_grows _)
  | arrived _ met _ _ _ => exact met.grows.trans ⟨List.prefix_append _ _, List.prefix_rfl, rfl, rfl⟩
  | refunded below => exact ⟨List.prefix_append _ _, below.calls, rfl, rfl⟩
  | failed _ terminal bytes below routed _ same =>
    apply fail_grows
    rw [same]
    exact ⟨routed, below.calls, rfl, rfl⟩
  | overloaded routed same =>
    apply fail_grows
    rw [same]
    exact ⟨routed, List.prefix_rfl, rfl, rfl⟩
  | closed _ =>
    rw [requestClose]
    split
    · exact .refl _
    · exact fail_grows _ ⟨List.prefix_rfl, List.prefix_rfl, rfl, rfl⟩
  | accepted _ _ _ => exact (popPending_grows _ _).trans ⟨List.prefix_rfl, List.prefix_rfl, rfl, rfl⟩
  | panicked _ _ => exact popPending_grows _ _
  | openedStream below _ => exact ⟨List.prefix_rfl, below.calls, rfl, rfl⟩
  | read _ _ below => exact ⟨List.prefix_rfl, below.calls, rfl, rfl⟩
  | readLast _ _ _ below => exact ⟨List.prefix_rfl, below.calls, rfl, rfl⟩
  | discarded _ _ below => exact ⟨List.prefix_rfl, below.calls, rfl, rfl⟩
  | _ => exact ⟨List.prefix_rfl, List.prefix_rfl, rfl, rfl⟩

theorem steps_grow {c : Core β ν} (h : ReflTransGen (CoreStep sec) c d) : Grows c d := by
  induction h with
  | refl => exact .refl _
  | tail _ hstep ih => exact ih.trans (step_grows hstep)

end

theorem run_grows (fuel : ℕ) (secs : List Section) :
    ∀ c : Core β ν, Grows c (run (Section.step fuel) secs c).2 := by
  induction secs with
  | nil => intro c; exact .refl c
  | cons sec rest ih => intro c; exact (steps_grow (step_steps fuel sec c).1).trans (ih _)

omit [Dwnx ν] [AsyncByteStream β] in
theorem live_before {c : Core β ν} (h : CoreStep sec c d) (live : d.terminal = none) :
    c.terminal = none := by
  have henqueue (id : StreamId) : (c.enqueue id).terminal = c.terminal := by
    obtain ⟨_, _, _, _, _, _, heq⟩ := enqueue_same c id
    rw [heq]
  cases h with
  | observed _ met =>
    rcases met with rfl | ⟨id, -, rfl | ⟨-, rfl⟩⟩
    · exact live
    · exact live
    · exact (henqueue id).symm.trans live
  | @arrived _ id _ _ _ _ _ met _ _ _ =>
    rcases met with rfl | ⟨-, rfl⟩
    · exact live
    · exact (henqueue id).symm.trans live
  | failed _ terminal _ _ _ _ same =>
    rw [fail_terminal] at live
    cases live
  | overloaded _ same =>
    rw [overload, fail_terminal] at live
    cases live
  | closed _ =>
    rw [requestClose] at live
    split at live
    · exact live
    · rw [fail_terminal] at live
      cases live
  | @accepted kind _ _ _ _ _ _ => cases kind <;> exact live
  | @panicked kind _ _ _ _ => cases kind <;> exact live
  | _ => exact live

section Preserves
variable {H I : Core β ν → Prop} (hpast : ∀ c d, Grows c d → H d → H c)
  (hstep : ∀ sec c d, CoreStep sec c d → H d → I c → I d)
include hpast hstep

omit [Dwnx ν] [AsyncByteStream β] in
theorem steps_keep {sec : Section} {c d : Core β ν} (h : ReflTransGen (CoreStep sec) c d) (hH : H d)
    (hI : I c) : I d := by
  induction h with
  | refl => exact hI
  | tail _ h ih => exact hstep _ _ _ h hH (ih (hpast _ _ (step_grows h) hH))

theorem run_keeps (fuel : ℕ) (secs : List Section) : ∀ c : Core β ν, I c →
    H (run (Section.step fuel) secs c).2 → I (run (Section.step fuel) secs c).2 := by
  induction secs with
  | nil => intro c hI _; exact hI
  | cons sec rest ih =>
    intro c hI hH
    exact ih _ (steps_keep hpast hstep (step_steps fuel sec c).1 (hpast _ _ (run_grows fuel rest _) hH) hI) hH

theorem run_expects (hexpected : ∀ c, I c → Expected c) (fuel : ℕ) (secs : List Section) :
    ∀ c : Core β ν, I c → H (run (Section.step fuel) secs c).2 →
      ∀ answer ∈ (run (Section.step fuel) secs c).1, ∀ message, answer ≠ .error (.failed message) := by
  induction secs with
  | nil => intro c _ _; nofun
  | cons sec rest ih =>
    intro c hI hH answer hanswer message heq
    rcases List.mem_cons.mp hanswer with rfl | hanswer
    · exact (step_steps fuel sec c).2 ⟨message, heq⟩ (hexpected c hI)
    · have hnext := steps_keep hpast hstep (step_steps fuel sec c).1 (hpast _ _ (run_grows fuel rest _) hH) hI
      exact ih _ hnext hH answer hanswer message heq

end Preserves

end Runs

end Ngnet.HyperiumSteps
