import Ngnet.OperationTraces
import Ngnet.Http3Passes

/-!
# Which operations the functions of an HTTP/3 driver perform

The operations that matter to the results about a run are performed by few functions each. `plain`
ones are performed everywhere; a function that performs any other one says so in its lemma. A result
about the others then has to look at these functions only.
-/

namespace Ngnet.Http3Operations
open QmuxVarints QmuxStreams Http3Heads Http3Handles Http3Conn Http3Driver Http3Passes InterleavedPrograms
open OperationTraces
open QmuxConnection (Poll)
open QmuxHttp3Join (QuicEvent WriteOutcome)

variable {β ν η α : Type}

/-- The operation is one that no result watches. -/
def plain : Op β ν α → Bool
  | .await | .backend .pollEvent | .locally _ | .keepError _ | .takeError => false
  | .enter _ | .leave _ _ _ => false
  | .conn (.blockStream _) | .conn (.unblockStream _) | .conn (.commit _ _) => false
  | .refreshDriver | .drainWork | .handlesGone => false
  | _ => true

/-- The streams that have closed or are blocked and the event put aside are as they were. -/
structure Untouched (l l' : Locals) : Prop where
  closed : l'.closed = l.closed
  blocked : l'.blocked = l.blocked
  pushback : l'.pushback = l.pushback

/-- What every function may do. -/
structure Everyday (good : ⦃α : Type⦄ → Op β ν α → Prop) : Prop where
  plain : ∀ {α : Type} (op : Op β ν α), plain op = true → good op
  locally : ∀ {α : Type} (f : Locals → α × Locals), (∀ l, Untouched l (f l).2) → good (.locally f)

/-- A native call may be made. -/
structure MayCall (good : ⦃α : Type⦄ → Op β ν α → Prop) (call : NativeCall α) : Prop where
  enter : good (.enter call)
  leave : ∀ result raw, good (.leave call result raw)

section Functions
variable {calls : ⦃γ : Type⦄ → DriverM β ν γ → Prop} {good : ⦃α : Type⦄ → Op β ν α → Prop} (h : Everyday good)
include h

theorem Everyday.perform {op : Op β ν α} (hop : Http3Operations.plain op = true) :
    Composed calls good (perform op : DriverM β ν α) := composed_perform (h.plain op hop)

theorem composed_transport (instruction : Instruction) : Composed calls good (transport instruction : DriverM β ν Unit) := by
  rw [transport]
  refine composed_bind (h.perform rfl) fun answer => ?_
  cases answer with
  | ok => exact composed_pure
  | error => exact .fail

section Calls
variable [Nghttp3 ν]

theorem composed_core {call : ConnCall} (hcall : Http3Operations.plain (.conn call : Op β ν _) = true) :
    Composed calls good (core call : DriverM β ν Unit) := by
  rw [core]
  refine composed_bind (h.perform hcall) fun answer => ?_
  cases answer with
  | ok => exact composed_pure
  | error => exact .fail

section
omit [Nghttp3 ν]

theorem composed_ignoring {call : ConnCall} (hcall : Http3Operations.plain (.conn call : Op β ν _) = true) :
    Composed calls good (ignoring call : DriverM β ν Unit) :=
  composed_bind (h.perform hcall) fun _ => composed_pure

theorem composed_interact {call : NativeCall α} (hcall : MayCall good call) (tree : Native ν α) :
    Composed calls good (interact call tree : DriverM β ν (Except CoreError α)) := by
  induction tree with
  | returns result raw => exact composed_perform (hcall.leave result raw)
  | callback callback next ih => exact composed_bind (h.perform rfl) fun _ => ih
  | readData stream veccnt next ih => exact composed_bind (h.perform rfl) fun answer => ih answer

theorem composed_native {call : NativeCall α} (hcall : MayCall good call) :
    Composed calls good (native call : DriverM β ν (Except CoreError α)) := by
  rw [native]
  refine composed_bind (composed_perform hcall.enter) fun answer => ?_
  cases answer with
  | error => exact composed_pure
  | ok tree => exact composed_interact h hcall tree

end

end Calls

theorem composed_flushBeforePending (hawait : good (.await : Op β ν Unit)) :
    Composed calls good (flushBeforePending : DriverM β ν Unit) := by
  rw [flushBeforePending]
  refine composed_bind (h.perform rfl) fun answer => ?_
  split
  · exact .fail
  · exact composed_perform hawait

theorem composed_pollUntilReady (hawait : good (.await : Op β ν Unit)) {poll : DriverM β ν (Poll α)}
    (hpoll : Composed calls good poll) (fuel : ℕ) : Composed calls good (pollUntilReady poll fuel) := by
  induction fuel with
  | zero => exact .outOfFuel
  | succ fuel ih =>
    rw [pollUntilReady]
    refine composed_bind hpoll fun answer => ?_
    cases answer with
    | ready a => exact composed_pure
    | pending => exact composed_bind (composed_flushBeforePending h hawait) fun _ => ih

theorem composed_openUnis (n : ℕ) : Composed calls good (openUnis n : DriverM β ν (Poll Unit)) := by
  induction n with
  | zero => exact composed_pure
  | succ n ih =>
    rw [openUnis]
    refine composed_bind (h.perform rfl) fun answer => ?_
    obtain _ | ⟨⟨⟩ | stream⟩ := answer
    · exact composed_pure
    · exact .fail
    · exact composed_bind (composed_perform (h.locally _ fun _ => ⟨rfl, rfl, rfl⟩)) fun _ => ih

section Passes
variable [Nghttp3 ν]

theorem composed_pollBind : Composed calls good (pollBind : DriverM β ν (Poll Unit)) := by
  rw [pollBind]
  refine composed_bind (composed_perform (h.locally _ fun _ => ⟨rfl, rfl, rfl⟩)) fun bound => ?_
  split
  · exact composed_pure
  refine composed_bind (composed_perform (h.locally _ fun _ => ⟨rfl, rfl, rfl⟩)) fun opened => ?_
  refine composed_bind (composed_openUnis h _) fun answer => ?_
  cases answer with
  | pending => exact composed_pure
  | ready =>
    refine composed_bind (composed_perform (h.locally _ fun _ => ⟨rfl, rfl, rfl⟩)) fun streams => ?_
    split
    · refine composed_bind (composed_core h rfl) fun _ => composed_bind (composed_core h rfl) fun _ => ?_
      exact composed_bind (composed_perform (h.locally _ fun _ => ⟨rfl, rfl, rfl⟩)) fun _ => composed_pure
    · exact .outOfFuel

omit [Nghttp3 ν] in
theorem composed_extend (stream : StreamId) (bytes : ℕ) : Composed calls good (extend stream bytes : DriverM β ν Unit) := by
  rw [extend]
  split
  · exact composed_pure
  · exact composed_bind (composed_transport h _) fun _ => composed_transport h _

theorem composed_read (hread : ∀ stream bytes fin, MayCall good (.readStream stream bytes fin))
    (stream : StreamId) (bytes : Bytes) (fin : Bool) : Composed calls good (Http3Passes.read stream bytes fin : DriverM β ν Unit) := by
  rw [Http3Passes.read]
  refine composed_bind (composed_native h (hread _ _ _)) fun answer => ?_
  cases answer with
  | error => exact .fail
  | ok credit => exact composed_extend h _ _

theorem composed_applyRelease (hack : ∀ stream n, MayCall good (.addAckOffset stream n)) (stream : StreamId)
    (bytes : ℕ) (delivered : Bool) : Composed calls good (applyRelease stream bytes delivered : DriverM β ν Unit) := by
  rw [applyRelease]
  split
  · exact composed_pure
  refine composed_bind (composed_perform (h.locally _ fun _ => ⟨rfl, rfl, rfl⟩)) fun gone => ?_
  split
  · exact composed_pure
  split
  · exact composed_pure
  refine composed_bind (composed_native h (hack _ _)) fun answer => ?_
  cases answer with
  | error => exact .fail
  | ok => exact composed_pure

section
omit [Nghttp3 ν]

theorem composed_retire (stream : StreamId) (slotError bodyError : Error) :
    Composed calls good (retire stream slotError bodyError : DriverM β ν Bool) := by
  rw [retire]
  refine composed_bind (h.perform rfl) fun known => ?_
  split
  · exact composed_bind (h.perform rfl) fun _ => composed_pure
  · exact composed_pure

theorem composed_failStream (stream : StreamId) (code : ℕ) : Composed calls good (failStream stream code : DriverM β ν Bool) :=
  composed_bind (composed_retire h _ _ _) fun _ => composed_bind (h.perform rfl) fun _ => composed_pure

theorem composed_refuseEach (streams : List StreamId) : Composed calls good (refuseEach streams : DriverM β ν Unit) := by
  induction streams with
  | nil => exact composed_pure
  | cons stream rest ih => exact composed_bind (composed_retire h _ _ _) fun _ => composed_bind (h.perform rfl) fun _ => ih

theorem composed_refuseFrom (cutoff : StreamId) : Composed calls good (refuseFrom cutoff : DriverM β ν Unit) :=
  composed_bind (h.perform rfl) fun _ => composed_refuseEach h _

theorem composed_closeStream (hclose : ∀ stream closed, MayCall good (.closeStream stream closed))
    (hclosed : ∀ stream, good (.locally fun l => let (new, closed) := l.closed.insert stream; (new, { l with closed }) :
      Op β ν Bool)) (stream : StreamId) (closed : StreamClosed) :
    Composed calls good (closeStream stream closed : DriverM β ν Unit) := by
  rw [closeStream]
  refine composed_bind (composed_perform (hclosed stream)) fun new => ?_
  split
  · refine composed_bind (h.perform rfl) fun checkpoint => composed_bind (composed_native h (hclose _ _)) fun _ => ?_
    refine composed_bind (h.perform rfl) fun _ => composed_bind (h.perform rfl) fun entry => ?_
    split
    · refine composed_bind (h.perform rfl) fun settled => ?_
      split
      · exact composed_bind (h.perform rfl) fun _ => h.perform rfl
      · exact h.perform rfl
    · exact h.perform rfl
  · exact composed_pure

end

section Events
variable (hrelease : ∀ stream bytes delivered, Composed calls good (applyRelease stream bytes delivered : DriverM β ν Unit))
  (hclose : ∀ stream closed, Composed calls good (closeStream stream closed : DriverM β ν Unit))
  (hread : ∀ stream bytes fin, Composed calls good (Http3Passes.read stream bytes fin : DriverM β ν Unit))
include hrelease hclose

theorem composed_applyControl (role : Role) (events : List QuicEvent) (data : List (StreamId × Bytes × Bool))
    (unheard : List (StreamId × ℕ)) :
    Composed calls good (applyControl role events data unheard : DriverM β ν _) := by
  induction events generalizing data unheard with
  | nil => exact composed_pure
  | cons event rest ih =>
    cases event with
    | data stream bytes fin => exact ih _ _
    | accepted stream => exact ih _ _
    | released stream bytes delivered => exact composed_bind (hrelease _ _ _) fun _ => ih _ _
    | stopSending stream code => exact composed_bind (composed_ignoring h rfl) fun _ => ih _ _
    | reset stream code =>
      exact composed_bind (composed_ignoring h rfl) fun _ => composed_bind (composed_failStream h _ _) fun _ => ih _ _
    | streamClosed stream rxCode txCode => exact composed_bind (hclose _ _) fun _ => ih _ _
    | closed code => exact composed_bind (composed_perform (h.locally _ fun _ => ⟨rfl, rfl, rfl⟩)) fun _ => ih _ _

include hread

theorem composed_applyEvents (role : Role) (events : List QuicEvent) :
    Composed calls good (applyEvents role events : DriverM β ν _) := by
  have hreads : ∀ data, Composed calls good (readAll data : DriverM β ν Unit) := by
    intro data
    induction data with
    | nil => exact composed_pure
    | cons item rest ih => exact composed_bind (hread _ _ _) fun _ => ih
  exact composed_bind (composed_applyControl h hrelease hclose role events [] []) fun _ =>
    composed_bind (hreads _) fun _ => composed_pure

end Events

theorem composed_finishBody (role : Role) (stream : StreamId) (ending : Ending) :
    Composed calls good (finishBody role stream ending : DriverM β ν Unit) := by
  cases ending with
  | clean => exact composed_pure
  | trailers fields =>
    exact composed_bind composed_ofExcept fun _ => composed_bind composed_ofExcept fun _ => composed_core h rfl
  | failed =>
    cases role with
    | client => exact composed_bind (composed_retire h stream bodyError bodyError) fun _ => h.perform rfl
    | server => exact h.perform rfl

theorem composed_finishEach (role : Role) (n index : ℕ) (done : List ℕ) :
    Composed calls good (finishEach role n index done : DriverM β ν (List ℕ)) := by
  induction n generalizing index done with
  | zero => exact composed_pure
  | succ n ih =>
    rw [finishEach]
    refine composed_bind (h.perform rfl) fun answer => ?_
    cases answer with
    | none => exact ih _ _
    | some ending => exact composed_bind (composed_finishBody h _ _ _) fun _ => ih _ _

theorem composed_finishBodies (role : Role) : Composed calls good (finishBodies role : DriverM β ν Unit) :=
  composed_bind (h.perform rfl) fun _ => composed_bind (composed_finishEach h _ _ _ _) fun _ => h.perform rfl

theorem composed_submitCommand (request : Request) (stream : StreamId) :
    Composed calls good (submitCommand request stream : DriverM β ν Unit) := by
  rw [submitCommand]
  split
  · exact h.perform rfl
  refine composed_bind composed_ofExcept fun headers => composed_bind (h.perform rfl) fun ending => ?_
  refine composed_bind (h.perform rfl) fun answer => ?_
  split
  · split
    · exact composed_bind (h.perform rfl) fun _ => .fail
    · exact h.perform rfl
  · exact h.perform rfl

theorem composed_submitQueued (fuel : ℕ) : Composed calls good (submitQueued fuel : DriverM β ν Unit) := by
  induction fuel with
  | zero => exact .outOfFuel
  | succ fuel ih =>
    rw [submitQueued]
    refine composed_bind (h.perform rfl) fun popped => ?_
    cases popped with
    | none => exact composed_pure
    | some command =>
      refine composed_bind (h.perform rfl) fun settled => ?_
      split
      · exact ih
      · exact composed_bind (composed_submitCommand h _ _) fun _ => ih

theorem composed_answer (stream : StreamId) (response : Response) :
    Composed calls good (answer stream response : DriverM β ν Unit) := by
  rw [answer]
  refine composed_bind (h.perform rfl) fun registered => ?_
  split
  · split
    · exact composed_bind (h.perform rfl) fun _ => h.perform rfl
    · refine composed_bind (h.perform rfl) fun ending => composed_bind composed_ofExcept fun headers => ?_
      refine composed_bind (composed_core h rfl) fun _ => ?_
      split
      · exact composed_pure
      · exact h.perform rfl
  · exact h.perform rfl

theorem composed_pollHandlers (streams : List StreamId) : Composed calls good (pollHandlers streams : DriverM β ν Unit) := by
  induction streams with
  | nil => exact composed_pure
  | cons stream rest ih =>
    refine composed_bind (h.perform rfl) fun response => ?_
    cases response with
    | none => exact ih
    | some response => exact composed_bind (composed_answer h _ _) fun _ => ih

theorem composed_advance (role : Role) (fuel : ℕ) : Composed calls good (advance role fuel : DriverM β ν Unit) := by
  refine composed_bind (composed_finishBodies h _) fun _ => ?_
  cases role with
  | client => exact composed_submitQueued h _
  | server => exact composed_bind (h.perform rfl) fun _ => composed_pollHandlers h _

section Dispatch
variable [Http]

omit [Nghttp3 ν] in
theorem composed_head (role : Role) (config : Http3Passes.Config) (stream : StreamId) (fields : List Field) :
    Composed calls good (head role config stream fields : DriverM β ν Unit) := by
  cases role with
  | client =>
    refine composed_bind composed_ofExcept fun head => ?_
    split
    · exact composed_pure
    · exact h.perform rfl
  | server =>
    refine composed_bind (h.perform rfl) fun count => ?_
    split
    · exact composed_bind (composed_ignoring h rfl) fun _ => h.perform rfl
    split
    · exact composed_bind (composed_ignoring h rfl) fun _ => h.perform rfl
    · exact h.perform rfl

variable (hclose : ∀ stream closed, Composed calls good (closeStream stream closed : DriverM β ν Unit))
include hclose

omit [Nghttp3 ν] in
theorem composed_dispatchOne (role : Role) (config : Http3Passes.Config) (observation : Observation) :
    Composed calls good (dispatchOne role config observation : DriverM β ν Unit) := by
  cases observation with
  | head stream fieldSection fields =>
    cases fieldSection with
    | headers => exact composed_bind (h.perform rfl) fun _ => composed_head h _ _ _ _
    | trailers =>
      exact composed_bind (h.perform rfl) fun _ => composed_bind composed_ofExcept fun _ => h.perform rfl
  | data stream bytes => exact h.perform rfl
  | ended stream => exact composed_bind (h.perform rfl) fun _ => h.perform rfl
  | closed stream closed =>
    exact composed_bind (h.perform rfl) fun _ => hclose _ _
  | shutdown shutdown =>
    refine composed_bind (h.perform rfl) fun _ => composed_bind (h.perform rfl) fun _ => ?_
    cases shutdown with
    | noStreamsFrom cutoff => exact composed_refuseFrom h _
    | _ => exact composed_pure
  | settings settings =>
    exact composed_bind (h.perform rfl) fun _ => composed_perform (h.locally _ fun _ => ⟨rfl, rfl, rfl⟩)

omit [Nghttp3 ν] in
theorem composed_dispatch (role : Role) (config : Http3Passes.Config) :
    Composed calls good (dispatch role config : DriverM β ν Unit) := by
  have heach : ∀ observations, Composed calls good (dispatchEach role config observations : DriverM β ν Unit) := by
    intro observations
    induction observations with
    | nil => exact composed_pure
    | cons observation rest ih => exact composed_bind (composed_dispatchOne h hclose _ _ _) fun _ => ih
  exact composed_bind (h.perform rfl) fun _ => heach _

end Dispatch

section Writing
variable (hwritev : MayCall good .writevStream)
  (hblocked : ∀ {α : Type} (f : Locals → α × Locals), (∀ l, (f l).2.closed = l.closed ∧ (f l).2.pushback = l.pushback) →
    good (.locally f : Op β ν α))
  (hcommit : ∀ offer n, good (.conn (.commit offer n) : Op β ν _))
  (hblock : ∀ stream, good (.conn (.blockStream stream) : Op β ν _))
  (hunblock : ∀ stream, good (.conn (.unblockStream stream) : Op β ν _))

omit [Nghttp3 ν] h in
include hblocked in
theorem composed_pushBlocked (stream : StreamId) : Composed calls good (pushBlocked stream : DriverM β ν Unit) :=
  composed_perform (hblocked _ fun _ => ⟨rfl, rfl⟩)

omit [Nghttp3 ν] h in
include hblocked hcommit in
theorem composed_dispose (offer : Offer) (outcome : WriteOutcome) :
    Composed calls good (dispose offer outcome : DriverM β ν (Except CoreError Unit × Bool × Bool)) := by
  cases outcome with
  | blocked => exact composed_bind (composed_pushBlocked hblocked _) fun _ => composed_pure
  | accepted taken =>
    rw [dispose]
    split
    · exact composed_bind (composed_pushBlocked hblocked _) fun _ => composed_pure
    · refine composed_bind (composed_perform (hcommit _ _)) fun result => ?_
      dsimp only
      split
      · exact composed_bind (composed_pushBlocked hblocked _) fun _ => composed_pure
      · exact composed_pure
  | gone => exact composed_pure

include hblocked hcommit hblock in
theorem composed_applyOffer (offers : Offers) (offer : Offer) (outcome : WriteOutcome) :
    Composed calls good (applyOffer offers offer outcome : DriverM β ν (Bool × Offers)) := by
  rw [applyOffer]
  refine composed_bind (composed_dispose hblocked hcommit _ _) fun disposal => ?_
  obtain ⟨_ | ⟨⟨⟩⟩, block, gone⟩ := disposal
  · exact composed_pure
  cases block
  case' true => refine composed_bind (composed_perform (hblock _)) fun result => ?_
  case' false => refine composed_bind composed_pure fun result => ?_
  all_goals
    obtain error | ⟨⟩ := result
    · exact composed_pure
    cases gone
    case' true => refine composed_bind (h.perform rfl) fun result => ?_
    case' false => refine composed_bind composed_pure fun result => ?_
    all_goals
      obtain error | ⟨⟩ := result
      · exact composed_pure
      · exact composed_pure

omit [Nghttp3 ν] h in
include hunblock in
theorem composed_unblockAll (streams : List StreamId) :
    Composed calls good (unblockAll streams : DriverM β ν (Except CoreError Unit)) := by
  induction streams with
  | nil => exact composed_pure
  | cons stream rest ih =>
    refine composed_bind (composed_perform (hunblock _)) fun result => ?_
    cases result with
    | error => exact composed_pure
    | ok => exact ih

include hwritev hblocked hcommit hblock hunblock

theorem composed_writeNext (write : Offer → WriteOutcome) (n : ℕ) (offers : Offers) :
    Composed calls good (writeNext write n offers : DriverM β ν (Option Offer × Bool × Offers)) := by
  induction n generalizing offers with
  | zero => exact composed_pure
  | succ n ih =>
    rw [writeNext]
    dsimp only
    split
    · exact composed_pure
    refine composed_bind (composed_native h hwritev) fun answer => ?_
    split
    · exact composed_pure
    · exact composed_bind (composed_applyOffer h hblocked hcommit hblock _ _ _) fun _ => composed_pure
    · refine composed_bind (composed_perform (hblocked _ fun _ => ⟨rfl, rfl⟩)) fun empty => ?_
      split
      · exact composed_pure
      refine composed_bind (composed_perform (hblocked _ fun _ => ⟨rfl, rfl⟩)) fun streams => ?_
      refine composed_bind (composed_unblockAll hunblock _) fun result => ?_
      cases result with
      | error => exact composed_pure
      | ok => exact ih _

end Writing

section Transmit
variable (hwrite : ∀ write offers, Composed calls good (writeNext write 2 offers : DriverM β ν _))
include hwrite

theorem composed_transmitWith (tree : Transmit β) (offers : Offers) :
    Composed calls good (transmitWith tree offers : DriverM β ν (Poll (Except Unit Unit) × Offers)) := by
  induction tree generalizing offers with
  | returns poll backend => exact composed_bind (h.perform rfl) fun _ => composed_pure
  | pull write next ih =>
    exact composed_bind (hwrite _ _) fun _ => ih _ _ _

theorem composed_transmit (hawait : good (.await : Op β ν Unit)) (fuel : ℕ) (offers : Offers) :
    Composed calls good (transmit fuel offers : DriverM β ν Unit) := by
  induction fuel generalizing offers with
  | zero => exact .outOfFuel
  | succ fuel ih =>
    rw [transmit]
    refine composed_bind (h.perform rfl) fun tree => ?_
    refine composed_bind (composed_transmitWith h hwrite _ _) fun result => ?_
    obtain ⟨_ | ⟨⟨⟩ | ⟨⟩⟩, offers⟩ := result
    · exact composed_bind (composed_flushBeforePending h hawait) fun _ => ih _
    · exact .fail
    · dsimp only
      split
      · exact .fail
      · exact composed_pure

end Transmit

omit [Nghttp3 ν] in
theorem composed_busy (role : Role) : Composed calls good (busy role : DriverM β ν Bool) := by
  cases role with
  | client =>
    refine composed_bind (h.perform rfl) fun empty => ?_
    split
    · exact h.perform rfl
    · exact composed_pure
  | server =>
    refine composed_bind (h.perform rfl) fun woken => ?_
    split
    · exact composed_pure
    · exact h.perform rfl

/-! ## Events of the backend -/

section Poll
variable (hpoll : good (.backend .pollEvent : Op β ν _))
  (hpushback : ∀ {α : Type} (f : Locals → α × Locals), (∀ l, (f l).2.closed = l.closed ∧ (f l).2.blocked = l.blocked) →
    good (.locally f : Op β ν α))
include hpoll hpushback

omit [Nghttp3 ν] h in
theorem composed_takeEvents (htake : good (.takeError : Op β ν _)) (config : Http3Passes.Config) :
    Composed calls good (takeEvents config : DriverM β ν (List QuicEvent)) := by
  have hpolls : ∀ n taken, Composed calls good (pollEvents n taken : DriverM β ν (List QuicEvent)) := by
    intro n
    induction n with
    | zero => exact fun taken => composed_pure
    | succ n ih =>
      intro taken
      refine composed_bind (composed_perform hpoll) fun answer => ?_
      obtain _ | ⟨⟨⟩ | event⟩ := answer
      · exact composed_pure
      · exact .fail
      · dsimp only
        split
        · exact composed_pure
        · exact ih _
  refine composed_bind (composed_perform htake) fun kept => ?_
  cases kept with
  | some error => exact .fail
  | none => exact composed_bind (composed_perform (hpushback _ fun _ => ⟨rfl, rfl⟩)) fun _ => hpolls _ _

omit [Nghttp3 ν] in
theorem composed_park (hawait : good (.await : Op β ν Unit)) (hrefresh : good (.refreshDriver : Op β ν Bool))
    (hkeep : ∀ error, good (.keepError error : Op β ν Unit)) (role : Role) (fuel : ℕ) (parked : Bool) :
    Composed calls good (park role fuel parked : DriverM β ν Unit) := by
  induction fuel generalizing parked with
  | zero => exact .outOfFuel
  | succ fuel ih =>
    have hagain : Composed calls good (do perform .await; park role fuel true : DriverM β ν Unit) :=
      composed_bind (composed_perform hawait) fun _ => ih true
    refine composed_bind (composed_perform (h.locally _ fun _ => ⟨rfl, rfl, rfl⟩)) fun empty => ?_
    split
    · exact composed_pure
    refine composed_bind (composed_perform hrefresh) fun pending => ?_
    split
    · exact composed_pure
    refine composed_bind (composed_busy h role) fun occupied => ?_
    split
    · exact composed_pure
    refine composed_bind (composed_perform hpoll) fun answer => ?_
    obtain _ | ⟨⟨⟩ | event⟩ := answer
    · refine composed_bind (h.perform rfl) fun flushed => ?_
      split
      · exact composed_perform (hkeep _)
      · exact hagain
    · exact composed_perform (hkeep _)
    · exact composed_perform (hpushback _ fun _ => ⟨rfl, rfl⟩)

end Poll

/-! ## One pass -/

section
omit [Nghttp3 ν]

theorem composed_applyWork (hdrain : good (.drainWork : Op β ν Unit)) :
    Composed calls good (applyWork : DriverM β ν Unit) := by
  have hextend : ∀ credit, Composed calls good (extendEach credit : DriverM β ν Unit) := by
    intro credit
    induction credit with
    | nil => exact composed_pure
    | cons entry rest ih => exact composed_bind (composed_extend h _ _) fun _ => ih
  have hreturn : ∀ credit, Composed calls good (returnCredit credit : DriverM β ν Unit) := by
    intro credit
    induction credit with
    | nil => exact composed_pure
    | cons entry rest ih =>
      rw [returnCredit]
      dsimp only
      split
      case' isFalse => refine composed_bind (composed_transport h _) fun _ => ?_
      all_goals
        refine composed_bind (h.perform rfl) fun answer => ?_
        cases answer with
        | ok => exact ih
        | error => exact .fail
  have hactions : ∀ actions, Composed calls good (takeActionsEach actions : DriverM β ν Unit) := by
    intro actions
    induction actions with
    | nil => exact composed_pure
    | cons action rest ih =>
      cases action with
      | reset stream code => exact composed_bind (composed_transport h _) fun _ => ih
      | stopSending stream code => exact composed_bind (composed_transport h _) fun _ => ih
  have hresets : ∀ resets, Composed calls good (resetEach resets : DriverM β ν Unit) := by
    intro resets
    induction resets with
    | nil => exact composed_pure
    | cons entry rest ih =>
      refine composed_bind (composed_ignoring h rfl) fun _ => composed_bind (composed_ignoring h rfl) fun _ => ?_
      exact composed_bind (composed_transport h _) fun _ => composed_bind (composed_transport h _) fun _ => ih
  have hready : ∀ ready, Composed calls good (resumeEach ready : DriverM β ν Unit) := by
    intro ready
    induction ready with
    | nil => exact composed_pure
    | cons stream rest ih => exact composed_bind (composed_ignoring h rfl) fun _ => ih
  refine composed_bind (composed_perform hdrain) fun _ => ?_
  refine composed_bind (h.perform rfl) fun _ => composed_bind (hextend _) fun _ => ?_
  refine composed_bind (h.perform rfl) fun _ => composed_bind (hreturn _) fun _ => ?_
  refine composed_bind (h.perform rfl) fun _ => composed_bind (hactions _) fun _ => ?_
  refine composed_bind (h.perform rfl) fun _ => composed_bind (hresets _) fun _ => ?_
  refine composed_bind (h.perform rfl) fun _ => composed_bind (hready _) fun _ => ?_
  refine composed_bind (h.perform rfl) fun shutdown => ?_
  split
  · exact composed_ignoring h rfl
  · exact composed_pure

theorem composed_needsStream (role : Role) : Composed calls good (needsStream role : DriverM β ν Bool) := by
  cases role with
  | client =>
    refine composed_bind (h.perform rfl) fun none => ?_
    split
    · exact composed_bind (h.perform rfl) fun _ => composed_pure
    · exact composed_pure
  | server => exact composed_pure

theorem composed_openStreams (hawait : good (.await : Op β ν Unit)) (role : Role) (fuel turns : ℕ) :
    Composed calls good (openStreams role fuel turns : DriverM β ν Unit) := by
  induction turns with
  | zero => exact .outOfFuel
  | succ turns ih =>
    rw [openStreams]
    refine composed_bind (composed_needsStream h role) fun needed => ?_
    split
    · refine composed_bind (composed_pollUntilReady h hawait (h.perform rfl) fuel) fun answer => ?_
      cases answer with
      | error => exact .fail
      | ok stream => exact composed_bind (h.perform rfl) fun _ => ih
    · exact composed_pure

theorem composed_finished (hgone : good (.handlesGone : Op β ν Bool)) (role : Role) :
    Composed calls good (finished role : DriverM β ν Bool) := by
  have hdone : Composed calls good (roleDone role : DriverM β ν Bool) := by
    cases role with
    | client =>
      refine composed_bind (composed_perform hgone) fun gone => ?_
      split
      · exact h.perform rfl
      · exact composed_pure
    | server => exact composed_pure
  refine composed_bind hdone fun done => ?_
  split
  · exact h.perform rfl
  · exact composed_pure

theorem composed_endOfPass (hgone : good (.handlesGone : Op β ν Bool)) {role : Role} {fuel : ℕ}
    (hpark : Composed calls good (park role fuel false : DriverM β ν Unit)) (hadEvents : Bool) :
    Composed calls good (endOfPass role fuel hadEvents : DriverM β ν Bool) := by
  have hfinished : Composed calls good (finished role : DriverM β ν Bool) := composed_finished h hgone role
  rw [endOfPass]
  refine composed_bind (composed_perform (h.locally _ fun _ => ⟨rfl, rfl, rfl⟩)) fun peerGone => ?_
  split
  · exact composed_pure
  refine composed_bind hfinished fun ended => ?_
  split
  · refine composed_bind (h.perform rfl) fun pending => ?_
    split
    · exact composed_pure
    · exact composed_bind (composed_transport h _) fun _ => composed_pure
  split
  · exact composed_pure
  refine composed_bind (composed_busy h role) fun occupied => ?_
  split
  · exact composed_pure
  refine composed_bind (h.perform rfl) fun observed => ?_
  split
  · exact composed_pure
  refine composed_bind hfinished fun ended => ?_
  split
  · exact composed_pure
  refine composed_bind (h.perform rfl) fun pending => ?_
  split
  · exact composed_pure
  · exact composed_bind hpark fun _ => composed_pure

end

/-- What a pass does at once: it takes a batch of events and applies it, settles finished bodies and
applies the work that was queued. -/
def intake (role : Role) (config : Http3Passes.Config) :
    DriverM β ν (List QuicEvent × List (StreamId × ℕ)) := do
  let events ← takeEvents config
  let unheard ← applyEvents role events
  finishBodies role
  applyWork
  pure (events, unheard)

/-- What is left of a pass behind it. -/
def afterIntake [Http] (role : Role) (config : Http3Passes.Config) (fuel : ℕ) (events : List QuicEvent)
    (unheard : List (StreamId × ℕ)) : DriverM β ν Bool := do
  openStreams role fuel fuel
  advance role fuel
  dispatch role config
  failUnheard unheard
  transmit fuel {}
  dispatch role config
  endOfPass role fuel !events.isEmpty

omit h in
theorem pass_eq [Http] (role : Role) (config : Http3Passes.Config) (fuel : ℕ) :
    (pass role config fuel : DriverM β ν Bool) = (do
      pollUntilReady pollBind fuel
      let taken ← intake role config
      afterIntake role config fuel taken.1 taken.2) := by
  simp only [Http3Passes.pass, intake, afterIntake, bind_assoc, pure_bind]

theorem composed_intake (hdrain : good (.drainWork : Op β ν Unit)) {role : Role} {config : Http3Passes.Config}
    (htake : Composed calls good (takeEvents config : DriverM β ν (List QuicEvent)))
    (happly : ∀ events, Composed calls good (applyEvents role events : DriverM β ν _)) :
    Composed calls good (intake role config : DriverM β ν _) := by
  refine composed_bind htake fun events => composed_bind (happly events) fun unheard => ?_
  refine composed_bind (composed_finishBodies h role) fun _ => composed_bind (composed_applyWork h hdrain) fun _ => ?_
  exact composed_pure

section Run
variable [Http] (hawait : good (.await : Op β ν Unit)) (hgone : good (.handlesGone : Op β ν Bool))
  {role : Role} {config : Http3Passes.Config} {fuel : ℕ}
  (hclose : ∀ stream closed, Composed calls good (closeStream stream closed : DriverM β ν Unit))
  (hwrite : ∀ write offers, Composed calls good (writeNext write 2 offers : DriverM β ν _))
  (hpark : Composed calls good (park role fuel false : DriverM β ν Unit))
include hawait hgone hclose hwrite hpark

theorem composed_afterIntake (events : List QuicEvent) (unheard : List (StreamId × ℕ)) :
    Composed calls good (afterIntake role config fuel events unheard : DriverM β ν Bool) := by
  have hunheard : ∀ unheard, Composed calls good (failUnheard unheard : DriverM β ν Unit) := by
    intro unheard
    induction unheard with
    | nil => exact composed_pure
    | cons entry rest ih => exact composed_bind (composed_failStream h _ _) fun _ => ih
  refine composed_bind (composed_openStreams h hawait role fuel fuel) fun _ => ?_
  refine composed_bind (composed_advance h role fuel) fun _ => ?_
  refine composed_bind (composed_dispatch h hclose role config) fun _ => ?_
  refine composed_bind (hunheard unheard) fun _ => composed_bind (composed_transmit h hwrite hawait fuel {}) fun _ => ?_
  exact composed_bind (composed_dispatch h hclose role config) fun _ => composed_endOfPass h hgone hpark _

variable (hintake : Composed calls good (intake role config : DriverM β ν _))
include hintake

theorem composed_pass : Composed calls good (pass role config fuel : DriverM β ν Bool) := by
  rw [pass_eq]
  refine composed_bind (composed_pollUntilReady h hawait (composed_pollBind h) fuel) fun _ => ?_
  exact composed_bind hintake fun taken => composed_afterIntake h hawait hgone hclose hwrite hpark taken.1 taken.2

theorem composed_run : Composed calls good (run role config fuel : DriverM β ν Unit) := by
  have hpass := composed_pass h hawait hgone hclose hwrite hpark hintake
  have hpasses : ∀ turns, Composed calls good (passes role config fuel turns : DriverM β ν Unit) := by
    intro turns
    induction turns with
    | zero => exact .outOfFuel
    | succ turns ih =>
      rw [passes]
      refine composed_bind hpass fun ended => ?_
      split
      · exact composed_pure
      · exact ih
  exact composed_bind (composed_perform hawait) fun _ => hpasses fuel

end Run

end Passes

end Functions

end Ngnet.Http3Operations
