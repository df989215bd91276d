import Std.Data.TreeMap.Lemmas
import Ngnet.Http3Observations

/-!
# What the handlers of an HTTP/2 connection record

The handlers of `observing` in `http/driver.rs` of the crate `ngnet-h2`, behind the callbacks of `callbacks.rs`, with
`resolve` and the part of the driver that feeds what was received. Of a frame there is what `frame_info` reads. A
chunk is where its octets stand in memory; while a buffer is read from, its octets stand at its address, and memory is
arbitrary elsewhere. A slice is no longer than the address space is behind its address. A slice out of its bounds is a
panic.

libnghttp2 calls back for any streams in any order, within a `recv` or within a `send`. Between calls the driver
dispatches what was recorded. A `recv` that fails ends the connection and is left out.
-/

namespace Ngnet.Http2Observations
open QmuxVarints
open Http3Heads (Field)
open Http3Observations (Memory slice)

variable {β : Type}

/-! ## Frames -/

structure NativeFrame where
  streamId : ℤ
  kind : UInt8
  flags : UInt8
  cat : ℕ
  lastStreamId : ℤ
  errorCode : ℕ
  deriving DecidableEq, Repr

inductive HeaderCategory | request | response | pushResponse | trailing
  deriving DecidableEq, Repr

def HeaderCategory.fromNative : ℕ → Option HeaderCategory
  | 0 => some .request
  | 1 => some .response
  | 2 => some .pushResponse
  | 3 => some .trailing
  | _ => none

structure Goaway where
  lastStreamId : ℤ
  code : ℕ
  deriving DecidableEq, Repr

structure FrameInfo where
  streamId : ℤ
  kind : UInt8
  flags : UInt8
  category : Option HeaderCategory
  goaway : Option Goaway
  deriving DecidableEq, Repr

def frameTypeData : UInt8 := 0
def frameTypeHeaders : UInt8 := 1
def frameTypePushPromise : UInt8 := 5
def frameTypeGoaway : UInt8 := 7
def frameTypeContinuation : UInt8 := 9

def flagEndStream : UInt8 := 1
def flagEndHeaders : UInt8 := 4

def frameInfo (frame : NativeFrame) : FrameInfo where
  streamId := frame.streamId
  kind := frame.kind
  flags := frame.flags
  category := if frame.kind = frameTypeHeaders then HeaderCategory.fromNative frame.cat else none
  goaway := if frame.kind = frameTypeGoaway then some ⟨frame.lastStreamId, frame.errorCode⟩ else none

namespace FrameInfo

def isTrailers (frame : FrameInfo) : Bool := frame.category = some .trailing

def isEndStream (frame : FrameInfo) : Bool :=
  (frame.kind = frameTypeData ∨ frame.kind = frameTypeHeaders) ∧ frame.flags &&& flagEndStream ≠ 0

def isEndHeaders (frame : FrameInfo) : Bool :=
  (frame.kind = frameTypeHeaders ∨ frame.kind = frameTypePushPromise ∨ frame.kind = frameTypeContinuation) ∧
    frame.flags &&& flagEndHeaders ≠ 0

def opensABlock (frame : FrameInfo) : Bool :=
  frame.category = some .request ∨ frame.category = some .response ∨ frame.category = some .trailing

end FrameInfo

/-! ## The handlers -/

structure Span where
  offset : ℕ
  len : ℕ
  deriving DecidableEq, Repr

inductive Event (β : Type)
  | head (stream : ℤ) (fields : List Field)
  | trailers (stream : ℤ) (fields : List Field)
  | data (stream : ℤ) (span : Option Span) (data : Bytes)
  | ended (stream : ℤ)
  | goaway (lastStream : ℤ) (code : ℕ)
  | close (stream : ℤ) (code : ℕ) (failure : Option β)
  deriving DecidableEq, Repr

structure Events (β : Type) where
  openBlocks : Std.TreeMap ℤ (List Field) := {}
  list : List (Event β) := []
  base : ℕ := 0
  limit : ℕ := 0

def usizeMax : ℕ := 2 ^ 64 - 1

namespace Events

def push (events : Events β) (more : List (Event β)) : Events β := { events with list := events.list ++ more }

def onBeginHeaders (events : Events β) (frame : FrameInfo) : Events β :=
  if frame.opensABlock then { events with openBlocks := events.openBlocks.insert frame.streamId [] } else events

def onHeader (events : Events β) (frame : FrameInfo) (name value : Bytes) : Events β :=
  match events.openBlocks[frame.streamId]? with
  | some fields => { events with openBlocks := events.openBlocks.insert frame.streamId (fields ++ [(name, value)]) }
  | none => events

/-- What the completed block of a frame is recorded as. -/
def blockOf (frame : FrameInfo) (fields : List Field) : Event β :=
  if frame.isTrailers then .trailers frame.streamId fields else .head frame.streamId fields

/-- The part of `on_frame` behind the block. -/
def endOf (frame : FrameInfo) : List (Event β) :=
  (if 0 < frame.streamId ∧ frame.isEndStream then [.ended frame.streamId] else []) ++
    (frame.goaway.map fun goaway => .goaway goaway.lastStreamId goaway.code).toList

def onFrame (events : Events β) (frame : FrameInfo) : Events β :=
  if frame.kind = frameTypeHeaders ∧ frame.isEndHeaders then
    match events.openBlocks[frame.streamId]? with
    | some fields =>
      ({ events with openBlocks := events.openBlocks.erase frame.streamId }.push [blockOf frame fields]).push (endOf frame)
    | none => events.push (endOf frame)
  else events.push (endOf frame)

def onDataChunk (events : Events β) (stream : ℤ) (address : ℕ) (chunk : Bytes) : Events β :=
  let aliases := events.base ≤ address ∧ min (address + chunk.length) usizeMax ≤ events.limit ∧ chunk ≠ []
  events.push [.data stream (if aliases then some ⟨address - events.base, chunk.length⟩ else none)
    (if aliases then [] else chunk)]

def onStreamClose (events : Events β) (stream : ℤ) (code : ℕ) (failure : Option β) : Events β :=
  { events with openBlocks := events.openBlocks.erase stream }.push [.close stream code failure]

end Events

/-! ## The callbacks -/

structure Slice where
  address : ℕ
  length : ℕ
  fits : address + length ≤ usizeMax
  deriving DecidableEq, Repr

/-- `dataChunk` comes with what memory holds outside the buffer that is read from. -/
inductive Callback (β : Type)
  | beginHeaders (frame : NativeFrame)
  | header (frame : NativeFrame) (name value : Bytes)
  | frameRecv (frame : NativeFrame)
  | dataChunk (stream : ℤ) (rest : Memory) (chunk : Slice)
  | streamClose (stream : ℤ) (code : ℕ) (failure : Option β)

/-- A buffer that was received, and where it stands. -/
structure Buffer where
  address : ℕ
  bytes : Bytes
  fits : address + bytes.length ≤ usizeMax
  deriving DecidableEq, Repr

/-- What memory holds while a buffer is read from. -/
def Buffer.laid (buffer : Buffer) (rest : Memory) : Memory := fun address =>
  if buffer.address ≤ address ∧ address < buffer.address + buffer.bytes.length then
    buffer.bytes.getD (address - buffer.address) 0
  else rest address

/-- A callback, as it reaches the handlers. The promise of a push does not. -/
def Events.called (events : Events β) (buffer : Buffer) : Callback β → Events β
  | .beginHeaders frame =>
    if frame.kind = frameTypePushPromise then events else events.onBeginHeaders (frameInfo frame)
  | .header frame name value =>
    if frame.kind = frameTypePushPromise then events else events.onHeader (frameInfo frame) name value
  | .frameRecv frame => if frame.kind = frameTypePushPromise then events else events.onFrame (frameInfo frame)
  | .dataChunk stream rest chunk =>
    events.onDataChunk stream chunk.address (slice (buffer.laid rest) chunk.address chunk.length)
  | .streamClose stream code failure => events.onStreamClose stream code failure

/-! ## The driver -/

def resolveEvent (buffer : Bytes) : Event β → Option (Event β)
  | .data stream (some span) _ =>
    if span.offset + span.len ≤ buffer.length then
      some (.data stream none ((buffer.drop span.offset).take span.len))
    else none
  | event => some event

/-- `resolve`, from the mark on. -/
def Events.resolve (events : Events β) (buffer : Bytes) (mark : ℕ) : Option (Events β) := do
  let resolved ← (events.list.drop mark).mapM (resolveEvent buffer)
  some { events with list := events.list.take mark ++ resolved }

inductive Call (β : Type)
  | recv (buffer : Buffer) (callbacks : List (Callback β))
  | send (callbacks : List (Callback β))
  | dispatch

/-- The events, with those that the driver has dispatched. -/
structure Observer (β : Type) where
  events : Events β := {}
  dispatched : List (Event β) := []

/-- Where no buffer is read from. -/
def noBuffer : Buffer := ⟨0, [], Nat.zero_le _⟩

def Observer.step (o : Observer β) : Call β → Option (Observer β)
  | .recv buffer callbacks => do
    let mark := o.events.list.length
    let events := { o.events with base := buffer.address, limit := buffer.address + buffer.bytes.length }
    let events := callbacks.foldl (·.called buffer ·) events
    let events ← { events with base := 0, limit := 0 }.resolve buffer.bytes mark
    some { o with events }
  | .send callbacks => some { o with events := callbacks.foldl (·.called noBuffer ·) o.events }
  | .dispatch => some { events := { o.events with list := [] }, dispatched := o.dispatched ++ o.events.list }

def reached (calls : List (Call β)) : Option (Observer β) := calls.foldlM Observer.step {}

/-! ## What is reported of a stream -/

/-- A callback with the octets of its chunk. -/
inductive Heard (β : Type)
  | beginHeaders (frame : NativeFrame)
  | header (frame : NativeFrame) (name value : Bytes)
  | frameRecv (frame : NativeFrame)
  | data (stream : ℤ) (chunk : Bytes)
  | streamClose (stream : ℤ) (code : ℕ) (failure : Option β)
  deriving DecidableEq, Repr

def Callback.heard (buffer : Buffer) : Callback β → Heard β
  | .beginHeaders frame => .beginHeaders frame
  | .header frame name value => .header frame name value
  | .frameRecv frame => .frameRecv frame
  | .dataChunk stream rest chunk => .data stream (slice (buffer.laid rest) chunk.address chunk.length)
  | .streamClose stream code failure => .streamClose stream code failure

/-- The callbacks of a call, in their order. -/
def Call.heard : Call β → List (Heard β)
  | .recv buffer callbacks => callbacks.map (·.heard buffer)
  | .send callbacks => callbacks.map (·.heard noBuffer)
  | .dispatch => []

def history (calls : List (Call β)) : List (Heard β) := calls.flatMap Call.heard

/-- The block of a request, a response or trailers begins. -/
def opens (stream : ℤ) : Heard β → Bool
  | .beginHeaders frame => frame.streamId = stream ∧ frame.kind ≠ frameTypePushPromise ∧ (frameInfo frame).opensABlock
  | _ => false

/-- A block begins, is completed or is cut off. -/
def isBoundary (stream : ℤ) : Heard β → Bool
  | .beginHeaders frame => frame.streamId = stream ∧ frame.kind ≠ frameTypePushPromise ∧ (frameInfo frame).opensABlock
  | .frameRecv frame => frame.streamId = stream ∧ frame.kind = frameTypeHeaders ∧ (frameInfo frame).isEndHeaders
  | .streamClose other _ _ => other = stream
  | _ => false

def fieldOf (stream : ℤ) : Heard β → Option Field
  | .header frame name value =>
    if frame.streamId = stream ∧ frame.kind ≠ frameTypePushPromise then some (name, value) else none
  | _ => none

/-- The latest block of the stream has neither been completed nor been cut off. -/
def inBlock (stream : ℤ) (before : List (Heard β)) : Bool :=
  ((before.filter (isBoundary stream)).getLast?).any (opens stream)

/-- The fields of the stream since its latest block began. -/
def fieldsSince (stream : ℤ) (before : List (Heard β)) : List Field :=
  (before.reverse.takeWhile (!opens stream ·)).reverse.filterMap (fieldOf stream)

/-- The events that a callback is to be recorded as. -/
def told (before : List (Heard β)) : Heard β → List (Event β)
  | .frameRecv frame =>
    if frame.kind = frameTypePushPromise then []
    else
      (if frame.kind = frameTypeHeaders ∧ (frameInfo frame).isEndHeaders ∧ inBlock frame.streamId before then
        [Events.blockOf (frameInfo frame) (fieldsSince frame.streamId before)]
      else []) ++ Events.endOf (frameInfo frame)
  | .data stream chunk => [.data stream none chunk]
  | .streamClose stream code failure => [.close stream code failure]
  | _ => []

/-- The events of callbacks one after another. -/
def toldBy (before : List (Heard β)) : List (Heard β) → List (Event β)
  | [] => []
  | heard :: rest => told before heard ++ toldBy (before ++ [heard]) rest

theorem toldBy_append (before heard more : List (Heard β)) :
    toldBy before (heard ++ more) = toldBy before heard ++ toldBy (before ++ heard) more := by
  induction heard generalizing before with
  | nil => simp [toldBy]
  | cons first rest ih => simp [toldBy, ih]

theorem inBlock_concat (stream : ℤ) (before : List (Heard β)) (heard : Heard β) :
    inBlock stream (before ++ [heard]) = if isBoundary stream heard then opens stream heard else inBlock stream before := by
  rw [inBlock, List.filter_append]
  by_cases h : isBoundary stream heard = true
  · simp [h]
  · simp [h, inBlock]

theorem fieldsSince_concat (stream : ℤ) (before : List (Heard β)) (heard : Heard β) :
    fieldsSince stream (before ++ [heard]) =
      if opens stream heard then [] else fieldsSince stream before ++ (fieldOf stream heard).toList := by
  rw [fieldsSince, List.reverse_append, List.reverse_singleton, List.singleton_append, List.takeWhile_cons]
  by_cases h : opens stream heard = true
  · simp [h]
  · cases hfield : fieldOf stream heard with
    | none => simp [h, fieldsSince, hfield]
    | some field => simp [h, fieldsSince, hfield]

/-- The fields of a block: those reported of the stream since it began, with neither its completion, a close nor
another block of the stream between. -/
def BlockOf (stream : ℤ) (before : List (Heard β)) (fields : List Field) : Prop :=
  ∃ earlier begin since, before = earlier ++ begin :: since ∧ opens stream begin = true ∧
    (∀ heard ∈ since, isBoundary stream heard = false) ∧ fields = since.filterMap (fieldOf stream)

theorem isBoundary_of_opens {stream : ℤ} {heard : Heard β} (h : opens stream heard = true) :
    isBoundary stream heard = true := by
  cases heard with
  | beginHeaders frame => exact h
  | _ => cases h

theorem blockOf_of_inBlock {stream : ℤ} {before : List (Heard β)} (h : inBlock stream before = true) :
    BlockOf stream before (fieldsSince stream before) := by
  induction before using List.reverseRecOn with
  | nil => cases h
  | append_singleton before heard ih =>
    rw [inBlock_concat] at h
    rw [fieldsSince_concat]
    by_cases hopens : opens stream heard = true
    · rw [if_pos hopens]
      exact ⟨before, heard, [], rfl, hopens, by simp, rfl⟩
    · have hboundary : isBoundary stream heard = false := by
        by_contra hboundary
        rw [Bool.not_eq_false] at hboundary
        rw [if_pos hboundary] at h
        exact hopens h
      rw [if_neg (by simp [hboundary])] at h
      obtain ⟨earlier, begin, since, rfl, hbegin, hsince, hfields⟩ := ih h
      refine ⟨earlier, begin, since ++ [heard], by simp, hbegin, ?_, ?_⟩
      · intro other hother
        obtain hother | hother := List.mem_append.mp hother
        · exact hsince other hother
        · rw [List.mem_singleton.mp hother]
          exact hboundary
      · rw [if_neg hopens, hfields, List.filterMap_append]
        cases hfield : fieldOf stream heard <;> simp [hfield]

/-! ## Chunks -/

theorem slice_laid {buffer : Buffer} {rest : Memory} {address length : ℕ} (hbase : buffer.address ≤ address)
    (hlimit : address + length ≤ buffer.address + buffer.bytes.length) :
    slice (buffer.laid rest) address length = (buffer.bytes.drop (address - buffer.address)).take length := by
  apply List.ext_getElem
  · simp [slice]
    omega
  · intro i hi hi'
    have hi : i < length := by simpa [slice] using hi
    have hlaid : buffer.address ≤ address + i ∧ address + i < buffer.address + buffer.bytes.length := by omega
    have hlt : address + i - buffer.address < buffer.bytes.length := by omega
    simp only [slice, List.getElem_map, List.getElem_range, Buffer.laid, if_pos hlaid, List.getElem_take,
      List.getElem_drop, List.getD_eq_getElem?_getD, List.getElem?_eq_getElem hlt, Option.getD_some]
    congr 1
    omega

theorem onDataChunk_spec {events : Events β} {buffer : Buffer} (hbase : events.base = buffer.address)
    (hlimit : events.limit = buffer.address + buffer.bytes.length) (stream : ℤ) (rest : Memory) (chunk : Slice) :
    ∃ event, events.onDataChunk stream chunk.address (slice (buffer.laid rest) chunk.address chunk.length) =
        events.push [event] ∧
      resolveEvent buffer.bytes event =
        some (.data stream none (slice (buffer.laid rest) chunk.address chunk.length)) ∧
      (buffer.bytes = [] → event = .data stream none (slice (buffer.laid rest) chunk.address chunk.length)) := by
  have hlen : (slice (buffer.laid rest) chunk.address chunk.length).length = chunk.length := by simp [slice]
  have hmin : min (chunk.address + chunk.length) usizeMax = chunk.address + chunk.length := Nat.min_eq_left chunk.fits
  refine ⟨_, rfl, ?_, ?_⟩
  · rw [hbase, hlimit, hlen, hmin]
    by_cases h : buffer.address ≤ chunk.address ∧
        chunk.address + chunk.length ≤ buffer.address + buffer.bytes.length ∧
        slice (buffer.laid rest) chunk.address chunk.length ≠ []
    · rw [if_pos h, if_pos h, resolveEvent, if_pos (by simp only; omega), slice_laid h.1 h.2.1]
    · rw [if_neg h, if_neg h]
      rfl
  · intro hempty
    have hnot : ¬(buffer.address ≤ chunk.address ∧
        chunk.address + chunk.length ≤ buffer.address + buffer.bytes.length ∧
        slice (buffer.laid rest) chunk.address chunk.length ≠ []) := by
      rintro ⟨hge, hle, hne⟩
      have hpos := List.length_pos_iff.mpr hne
      rw [hempty, List.length_nil] at hle
      omega
    rw [hbase, hlimit, hlen, hmin, if_neg hnot, if_neg hnot]

/-! ## Runs -/

/-- Of each stream the fields of its block are kept, and of no other. -/
def Kept (before : List (Heard β)) (events : Events β) : Prop :=
  ∀ stream, events.openBlocks[stream]? = if inBlock stream before then some (fieldsSince stream before) else none

theorem getElem?_insertBlock (blocks : Std.TreeMap ℤ (List Field)) (key other : ℤ) (fields : List Field) :
    (blocks.insert key fields)[other]? = if key = other then some fields else blocks[other]? := by
  simp [Std.TreeMap.getElem?_insert]

theorem getElem?_eraseBlock (blocks : Std.TreeMap ℤ (List Field)) (key other : ℤ) :
    (blocks.erase key)[other]? = if key = other then none else blocks[other]? := by
  simp [Std.TreeMap.getElem?_erase]

theorem Kept.apart {before : List (Heard β)} {events after : Events β} (h : Kept before events) {heard : Heard β}
    (hblocks : after.openBlocks = events.openBlocks) (hboundary : ∀ stream, isBoundary stream heard = false)
    (hfield : ∀ stream, inBlock stream before = true → fieldOf stream heard = none) : Kept (before ++ [heard]) after := by
  intro stream
  have hopens : opens stream heard = false := by
    by_contra hopens
    have hnone := hboundary stream
    rw [isBoundary_of_opens (Bool.not_eq_false _ ▸ hopens)] at hnone
    cases hnone
  rw [hblocks, h, inBlock_concat, fieldsSince_concat, hboundary, hopens]
  cases hin : inBlock stream before with
  | false => simp
  | true => simp [hfield stream hin]

theorem Kept.without {before : List (Heard β)} {events after : Events β} (h : Kept before events) (stream : ℤ)
    {heard : Heard β} (hblocks : after.openBlocks = events.openBlocks.erase stream)
    (hboundary : ∀ other, isBoundary other heard = decide (stream = other)) (hopens : ∀ other, opens other heard = false)
    (hfield : ∀ other, fieldOf other heard = none) : Kept (before ++ [heard]) after := by
  intro other
  rw [hblocks, getElem?_eraseBlock, h, inBlock_concat, fieldsSince_concat, hboundary, hopens, hfield]
  by_cases heq : stream = other
  · simp [heq]
  · simp [heq]

theorem Kept.onBeginHeaders {before : List (Heard β)} {events : Events β} (h : Kept before events) {frame : NativeFrame}
    (hkind : frame.kind ≠ frameTypePushPromise) :
    Kept (before ++ [.beginHeaders frame]) (events.onBeginHeaders (frameInfo frame)) := by
  rw [Events.onBeginHeaders]
  split
  · rename_i hopens
    intro other
    rw [getElem?_insertBlock, h, inBlock_concat, fieldsSince_concat]
    by_cases heq : frame.streamId = other
    · simp [frameInfo, opens, isBoundary, heq, hkind] at hopens ⊢
      simp [hopens]
    · simp [frameInfo, opens, isBoundary, fieldOf, heq]
  · rename_i hopens
    refine h.apart rfl (fun stream => ?_) fun _ _ => rfl
    simp [isBoundary, hopens]

theorem Kept.onHeader {before : List (Heard β)} {events : Events β} (h : Kept before events) {frame : NativeFrame}
    (hkind : frame.kind ≠ frameTypePushPromise) (name value : Bytes) :
    Kept (before ++ [.header frame name value]) (events.onHeader (frameInfo frame) name value) := by
  have hblock := h frame.streamId
  rw [Events.onHeader, show (frameInfo frame).streamId = frame.streamId from rfl, hblock]
  cases hin : inBlock frame.streamId before with
  | false =>
    refine h.apart rfl (fun _ => rfl) fun stream hstream => ?_
    rw [fieldOf, if_neg]
    rintro ⟨rfl, -⟩
    rw [hin] at hstream
    cases hstream
  | true =>
    intro other
    rw [if_pos rfl]
    simp only
    rw [getElem?_insertBlock, h, inBlock_concat, fieldsSince_concat]
    by_cases heq : frame.streamId = other
    · simp [opens, isBoundary, fieldOf, ← heq, hkind, hin]
    · simp [opens, isBoundary, fieldOf, heq]

theorem onFrame_spec {before : List (Heard β)} {events : Events β} (h : Kept before events) {frame : NativeFrame}
    (hkind : frame.kind ≠ frameTypePushPromise) :
    (events.onFrame (frameInfo frame)).list = events.list ++ told before (.frameRecv frame) ∧
      Kept (before ++ [.frameRecv frame]) (events.onFrame (frameInfo frame)) ∧
      (events.onFrame (frameInfo frame)).base = events.base ∧ (events.onFrame (frameInfo frame)).limit = events.limit := by
  have hblock := h frame.streamId
  rw [told, if_neg hkind, Events.onFrame, show (frameInfo frame).streamId = frame.streamId from rfl,
    show (frameInfo frame).kind = frame.kind from rfl, hblock]
  by_cases hends : frame.kind = frameTypeHeaders ∧ (frameInfo frame).isEndHeaders = true
  · rw [if_pos hends]
    have hboundary (other : ℤ) : isBoundary other (.frameRecv frame : Heard β) = decide (frame.streamId = other) := by
      simp [isBoundary, hends.1, hends.2]
    cases hin : inBlock frame.streamId before with
    | false =>
      refine ⟨by simp [Events.push], ?_, rfl, rfl⟩
      intro other
      have hnone : events.openBlocks[other]? = none ∨ frame.streamId ≠ other := by
        by_cases heq : frame.streamId = other
        · left
          rw [← heq, hblock, hin]
          rfl
        · exact .inr heq
      show events.openBlocks[other]? = _
      rw [inBlock_concat, hboundary]
      by_cases heq : frame.streamId = other
      · rw [hnone.resolve_right (not_not.mpr heq)]
        simp [heq, opens]
      · rw [h other, fieldsSince_concat]
        simp [heq, opens, fieldOf]
    | true =>
      refine ⟨by simp [Events.push, hends.1, hends.2], ?_, rfl, rfl⟩
      exact h.without frame.streamId rfl hboundary (fun _ => rfl) fun _ => rfl
  · rw [if_neg hends]
    refine ⟨?_, ?_, rfl, rfl⟩
    · rw [if_neg (by tauto)]
      rfl
    · refine h.apart rfl (fun stream => ?_) fun _ _ => rfl
      simp only [isBoundary, decide_eq_false_iff_not]
      tauto

theorem resolveEvent_endOf {buffer : Bytes} (frame : FrameInfo) (event : Event β) (h : event ∈ Events.endOf frame) :
    resolveEvent buffer event = some event := by
  rw [Events.endOf, List.mem_append] at h
  obtain h | h := h
  · split at h
    · rw [List.mem_singleton.mp h]
      rfl
    · cases h
  · cases hgoaway : frame.goaway with
    | none =>
      rw [hgoaway] at h
      cases h
    | some goaway =>
      rw [hgoaway] at h
      simp only [Option.map_some, Option.toList_some, List.mem_singleton] at h
      rw [h]
      rfl

theorem resolve_told (buffer : Bytes) (before : List (Heard β)) (heard : Heard β) :
    (told before heard).mapM (resolveEvent buffer) = some (told before heard) := by
  have hall : ∀ event ∈ told before heard, resolveEvent buffer event = some event := by
    intro event hevent
    cases heard with
    | frameRecv frame =>
      rw [told] at hevent
      split at hevent
      · cases hevent
      obtain hevent | hevent := List.mem_append.mp hevent
      · split at hevent
        · rw [List.mem_singleton.mp hevent, Events.blockOf]
          split <;> rfl
        · cases hevent
      · exact resolveEvent_endOf _ event hevent
    | data stream chunk =>
      rw [told, List.mem_singleton] at hevent
      rw [hevent]
      rfl
    | streamClose stream code failure =>
      rw [told, List.mem_singleton] at hevent
      rw [hevent]
      rfl
    | _ => cases hevent
  generalize told before heard = events at hall ⊢
  induction events with
  | nil => rfl
  | cons event events ih =>
    rw [List.mapM_cons, hall event List.mem_cons_self, ih fun other hother => hall other (List.mem_cons_of_mem _ hother)]
    rfl

theorem called_spec {before : List (Heard β)} {events : Events β} {buffer : Buffer} (h : Kept before events)
    (hbase : events.base = buffer.address) (hlimit : events.limit = buffer.address + buffer.bytes.length)
    (callback : Callback β) :
    ∃ added, (events.called buffer callback).list = events.list ++ added ∧
      added.mapM (resolveEvent buffer.bytes) = some (told before (callback.heard buffer)) ∧
      (buffer.bytes = [] → added = told before (callback.heard buffer)) ∧
      Kept (before ++ [callback.heard buffer]) (events.called buffer callback) ∧
      (events.called buffer callback).base = events.base ∧ (events.called buffer callback).limit = events.limit := by
  cases callback with
  | beginHeaders frame =>
    refine ⟨[], ?_, rfl, fun _ => rfl, ?_⟩
    · simp only [Events.called, Events.onBeginHeaders, List.append_nil]
      split <;> first | rfl | (split <;> rfl)
    · simp only [Events.called, Callback.heard]
      split
      · rename_i hkind
        refine ⟨h.apart rfl (fun stream => ?_) fun _ _ => rfl, rfl, rfl⟩
        simp [isBoundary, hkind]
      · rename_i hkind
        refine ⟨h.onBeginHeaders hkind, ?_⟩
        rw [Events.onBeginHeaders]
        split <;> exact ⟨rfl, rfl⟩
  | header frame name value =>
    refine ⟨[], ?_, rfl, fun _ => rfl, ?_⟩
    · simp only [Events.called, Events.onHeader, List.append_nil]
      split <;> first | rfl | (split <;> rfl)
    · simp only [Events.called, Callback.heard]
      split
      · rename_i hkind
        refine ⟨h.apart rfl (fun _ => rfl) fun stream _ => ?_, rfl, rfl⟩
        simp [fieldOf, hkind]
      · rename_i hkind
        refine ⟨h.onHeader hkind name value, ?_⟩
        rw [Events.onHeader]
        split <;> exact ⟨rfl, rfl⟩
  | frameRecv frame =>
    refine ⟨told before (.frameRecv frame), ?_⟩
    simp only [Events.called, Callback.heard]
    split
    · rename_i hkind
      refine ⟨by simp [told, hkind], resolve_told _ _ _, fun _ => trivial, h.apart rfl (fun stream => ?_) fun _ _ => rfl, rfl, rfl⟩
      have hne : frameTypePushPromise ≠ frameTypeHeaders := by decide
      simp [isBoundary, hkind, hne]
    · rename_i hkind
      obtain ⟨hlist, hkept, hspan⟩ := onFrame_spec h hkind
      exact ⟨hlist, resolve_told _ _ _, fun _ => trivial, hkept, hspan⟩
  | dataChunk stream rest chunk =>
    obtain ⟨event, hpush, hresolve, hsame⟩ := onDataChunk_spec hbase hlimit stream rest chunk
    simp only [Events.called, Callback.heard]
    rw [hpush]
    refine ⟨[event], rfl, ?_, fun hempty => ?_, h.apart rfl (fun _ => rfl) fun _ _ => rfl, rfl, rfl⟩
    · simp [hresolve, told]
    · rw [hsame hempty]
      rfl
  | streamClose stream code failure =>
    refine ⟨[.close stream code failure], rfl, rfl, fun _ => rfl, ?_, rfl, rfl⟩
    refine h.without stream rfl (fun _ => ?_) (fun _ => rfl) fun _ => rfl
    simp [Callback.heard, isBoundary]

theorem callbacks_spec {before : List (Heard β)} {events : Events β} {buffer : Buffer} (h : Kept before events)
    (hbase : events.base = buffer.address) (hlimit : events.limit = buffer.address + buffer.bytes.length)
    (callbacks : List (Callback β)) :
    ∃ added, (callbacks.foldl (·.called buffer ·) events).list = events.list ++ added ∧
      added.mapM (resolveEvent buffer.bytes) = some (toldBy before (callbacks.map (·.heard buffer))) ∧
      (buffer.bytes = [] → added = toldBy before (callbacks.map (·.heard buffer))) ∧
      Kept (before ++ callbacks.map (·.heard buffer)) (callbacks.foldl (·.called buffer ·) events) ∧
      (callbacks.foldl (·.called buffer ·) events).base = events.base ∧
      (callbacks.foldl (·.called buffer ·) events).limit = events.limit := by
  induction callbacks generalizing before events with
  | nil => exact ⟨[], by simp, rfl, fun _ => rfl, by simpa using h, rfl, rfl⟩
  | cons callback callbacks ih =>
    obtain ⟨first, hlist, hresolve, hsame, hkept, hfirst, hlimit'⟩ := called_spec h hbase hlimit callback
    obtain ⟨rest, hlist', hresolve', hsame', hkept', hrest, hlimit''⟩ :=
      ih hkept (hfirst.trans hbase) (hlimit'.trans hlimit)
    refine ⟨first ++ rest, ?_, ?_, fun hempty => ?_, ?_, hrest.trans hfirst, hlimit''.trans hlimit'⟩
    · rw [List.foldl_cons, hlist', hlist, List.append_assoc]
    · rw [List.mapM_append, hresolve, hresolve']
      rfl
    · rw [hsame hempty, hsame' hempty]
      rfl
    · rw [List.append_assoc] at hkept'
      exact hkept'

/-- Between calls, everything is resolved, in its order, and no buffer is read from. -/
structure Recorded (heard : List (Heard β)) (o : Observer β) : Prop where
  events : o.dispatched ++ o.events.list = toldBy [] heard
  kept : Kept heard o.events
  base : o.events.base = 0
  limit : o.events.limit = 0

theorem Recorded.step {heard : List (Heard β)} {o : Observer β} (h : Recorded heard o) (call : Call β) :
    ∃ o', o.step call = some o' ∧ Recorded (heard ++ call.heard) o' := by
  cases call with
  | dispatch =>
    refine ⟨_, rfl, ?_, ?_, h.base, h.limit⟩
    · rw [Call.heard, List.append_nil, List.append_nil]
      exact h.events
    · rw [Call.heard, List.append_nil]
      exact h.kept
  | send callbacks =>
    obtain ⟨added, hlist, -, hsame, hkept, hbase, hlimit⟩ :=
      @callbacks_spec _ _ _ noBuffer h.kept h.base h.limit callbacks
    refine ⟨_, rfl, ?_, hkept, hbase.trans h.base, hlimit.trans h.limit⟩
    rw [hlist, hsame rfl, ← List.append_assoc, h.events, Call.heard, toldBy_append]
    rfl
  | recv buffer callbacks =>
    obtain ⟨added, hlist, hresolve, -, hkept, -, -⟩ := @callbacks_spec _ _
      { o.events with base := buffer.address, limit := buffer.address + buffer.bytes.length } buffer h.kept rfl rfl callbacks
    rw [Observer.step]
    generalize callbacks.foldl (·.called buffer ·)
      { o.events with base := buffer.address, limit := buffer.address + buffer.bytes.length } = events at hlist hkept ⊢
    have hdrop : (o.events.list ++ added).drop o.events.list.length = added := List.drop_left ..
    have htake : (o.events.list ++ added).take o.events.list.length = o.events.list := List.take_left ..
    refine ⟨{ o with events := { events with base := 0, limit := 0, list := o.events.list ++ toldBy heard (callbacks.map (·.heard buffer)) } },
      ?_, ?_, hkept, rfl, rfl⟩
    · simp only [Events.resolve, hlist, hdrop, hresolve, htake, Option.bind_eq_bind, Option.bind_some]
    · rw [← List.append_assoc, h.events, Call.heard, toldBy_append]
      rfl

theorem recorded_reached (calls : List (Call β)) : ∃ o, reached calls = some o ∧ Recorded (history calls) o := by
  induction calls using List.reverseRecOn with
  | nil =>
    refine ⟨{}, rfl, rfl, fun stream => ?_, rfl, rfl⟩
    exact Std.TreeMap.getElem?_emptyc
  | append_singleton calls call ih =>
    obtain ⟨o, hreached, hrecorded⟩ := ih
    obtain ⟨o', hstep, hrecorded'⟩ := hrecorded.step call
    refine ⟨o', ?_, ?_⟩
    · rw [reached, List.foldlM_append, show calls.foldlM Observer.step {} = some o from hreached]
      simp [hstep]
    · simpa [history] using hrecorded'

/-- The fields that a head or trailers are recorded with. -/
def blockIn : Event β → Option (ℤ × List Field)
  | .head stream fields | .trailers stream fields => some (stream, fields)
  | _ => none

theorem blockIn_endOf {frame : FrameInfo} {event : Event β} (h : event ∈ Events.endOf frame) : blockIn event = none := by
  rw [Events.endOf, List.mem_append] at h
  obtain h | h := h
  · split at h
    · rw [List.mem_singleton.mp h]
      rfl
    · cases h
  · obtain ⟨goaway, -, rfl⟩ := Option.map_eq_some_iff.mp (Option.mem_toList.mp h)
    rfl

theorem block_of_told {before : List (Heard β)} {heard : Heard β} {event : Event β} {stream : ℤ} {fields : List Field}
    (h : event ∈ told before heard) (hblock : blockIn event = some (stream, fields)) :
    ∃ frame, heard = .frameRecv frame ∧ frame.streamId = stream ∧ BlockOf stream before fields := by
  cases heard with
  | frameRecv frame =>
    rw [told] at h
    split at h
    · cases h
    obtain h | h := List.mem_append.mp h
    · split at h
      · rename_i hin
        rw [List.mem_singleton.mp h, Events.blockOf] at hblock
        have hfields : (frame.streamId, fieldsSince frame.streamId before) = (stream, fields) := by
          split at hblock <;> exact Option.some.inj hblock
        cases hfields
        exact ⟨frame, rfl, rfl, blockOf_of_inBlock hin.2.2⟩
      · cases h
    · rw [blockIn_endOf h] at hblock
      cases hblock
  | data stream chunk =>
    rw [told, List.mem_singleton] at h
    rw [h] at hblock
    cases hblock
  | streamClose stream code failure =>
    rw [told, List.mem_singleton] at h
    rw [h] at hblock
    cases hblock
  | _ => cases h

theorem block_of_toldBy {start heard : List (Heard β)} {event : Event β} {stream : ℤ} {fields : List Field}
    (h : event ∈ toldBy start heard) (hblock : blockIn event = some (stream, fields)) :
    ∃ before frame after, heard = before ++ .frameRecv frame :: after ∧ frame.streamId = stream ∧
      BlockOf stream (start ++ before) fields := by
  induction heard generalizing start with
  | nil => cases h
  | cons first rest ih =>
    rw [toldBy] at h
    obtain h | h := List.mem_append.mp h
    · obtain ⟨frame, rfl, hstream, hof⟩ := block_of_told h hblock
      exact ⟨[], frame, rest, rfl, hstream, by rwa [List.append_nil]⟩
    · obtain ⟨before, frame, after, rfl, hstream, hof⟩ := ih h
      exact ⟨first :: before, frame, after, rfl, hstream, by rwa [List.append_assoc] at hof⟩

/-- Whatever the callbacks and the calls they come in, the events are the callbacks in their order, a chunk with its
octets, and every head and all trailers with the fields of their own block. -/
theorem events_faithful (calls : List (Call β)) :
    ∃ o, reached calls = some o ∧ o.dispatched ++ o.events.list = toldBy [] (history calls) ∧
      ∀ event ∈ o.dispatched ++ o.events.list, ∀ stream fields, blockIn event = some (stream, fields) →
        ∃ before frame after, history calls = before ++ .frameRecv frame :: after ∧ frame.streamId = stream ∧
          BlockOf stream before fields := by
  obtain ⟨o, hreached, hrecorded⟩ := recorded_reached calls
  refine ⟨o, hreached, hrecorded.events, fun event hevent stream fields hblock => ?_⟩
  rw [hrecorded.events] at hevent
  obtain ⟨before, frame, after, hhistory, hstream, hof⟩ := block_of_toldBy hevent hblock
  exact ⟨before, frame, after, hhistory, hstream, hof⟩

/-- The fields of the stream since its last begin-headers, whatever that was of. -/
def fieldsSinceBegin (stream : ℤ) (before : List (Heard β)) : List Field :=
  (before.reverse.takeWhile fun heard => !(match heard with
    | .beginHeaders frame => decide (frame.streamId = stream)
    | _ => false)).reverse.filterMap (fieldOf stream)

/-- A request whose block is crossed by the begin-headers of a pushed response. -/
def crossed : List (Call Unit) :=
  [.recv ⟨16, [0], by decide⟩ [.beginHeaders ⟨1, 1, 0, 0, 0, 0⟩, .header ⟨1, 1, 0, 0, 0, 0⟩ [97] [1],
    .beginHeaders ⟨1, 1, 0, 2, 0, 0⟩, .header ⟨1, 1, 0, 2, 0, 0⟩ [98] [2], .frameRecv ⟨1, 1, 4, 0, 0, 0⟩]]

/-- It comes with a field that was reported ahead of the last begin-headers of its stream. -/
theorem events_crossed :
    (reached crossed).map (·.events.list) = some [.head 1 [([97], [1]), ([98], [2])]] ∧
      fieldsSinceBegin 1 (history crossed).dropLast = [([98], [2])] := by
  decide +kernel

end Ngnet.Http2Observations
