import Ngnet.OperationTraces
import Ngnet.Http2Passes

/-!
# The operations of an HTTP/2 driver

The functions of a pass are composed of `plain` operations, after any of which the driver has in its hands what it had
before, and of a few blocks that take something out of the shared state or the registry and deal with it.
-/

namespace Ngnet.Http2Operations
open QmuxVarints Http2Heads Http2Handles Http2Driver Http2Passes InterleavedPrograms OperationTraces
open Http3Heads (Http HeaderMap Field)

variable {α β : Type}

def plainCall : SessionCall α → Bool
  | .submitRequest _ _ | .shutdown _ _ | .consume _ _ => false
  | _ => true

def plain : Op α → Bool
  | .session call => plainCall call
  | .drainQueue | .nextCommand | .refuse _ | .enter _ | .failHand _ => false
  | .takeShutdown => false
  | .removeEntry _ | .leavingUnsettled | .failLeavingSlot _ | .failLeavingIncoming _ | .forgetLeaving => false
  | .takeAll | .setGone | .abandonHandlers => false
  | _ => true

/-- The plain operations are `good`, and the blocks are composed of good operations or called. -/
structure Blocks (role : Role) (calls : ⦃γ : Type⦄ → DriverM γ → Prop) (good : ⦃β : Type⦄ → Op β → Prop) : Prop where
  plain : ∀ {β : Type} (op : Op β), plain op = true → good op
  submitAll : Composed calls good (advance .client)
  applyShutdown : Composed calls good applyShutdown
  refuseOne : ∀ stream code, Composed calls good (refuseOne stream code)
  closeStream : ∀ stream code failure, Composed calls good (closeStream stream code failure)

section Functions
variable {role : Role} {calls : ⦃γ : Type⦄ → DriverM γ → Prop} {good : ⦃β : Type⦄ → Op β → Prop}

section Plain
variable (h : ∀ {β : Type} (op : Op β), plain op = true → good op)
include h

theorem composed_check {op : Op (Except Unit Unit)} (hop : plain op = true) : Composed calls good (check op) := by
  refine composed_bind (composed_perform (h op hop)) fun answer => ?_
  cases answer with
  | ok => exact composed_pure
  | error => exact .fail

theorem composed_checkEach {op : Op (Except Unit Unit)} (hop : plain op = true) (n : ℕ) :
    Composed calls good (checkEach op n) := by
  induction n with
  | zero => exact composed_pure
  | succ n ih => exact composed_bind (composed_check h hop) fun _ => ih

variable (stream : ℕ) (headers : OwnedHeaders)

theorem composed_submitResponse (body : CallerBody) :
    Composed calls good (submitResponse stream headers body) := by
  rw [submitResponse]
  split
  · exact .fail
  · exact composed_check h rfl

theorem composed_submitTrailer :
    Composed calls good (submitTrailer stream headers) := by
  rw [submitTrailer]
  split
  · exact .fail
  · exact composed_check h rfl

theorem composed_answerWith (body : CallerBody) :
    Composed calls good (answerWith stream headers body) := by
  rw [answerWith]
  split
  · exact composed_submitResponse h stream headers body
  refine composed_bind (composed_perform (h _ rfl)) fun registered => ?_
  split
  · exact composed_submitResponse h stream headers body
  · exact composed_pure

theorem composed_respond (response : Response) : Composed calls good (respond stream response) := by
  refine composed_bind (composed_perform (h _ rfl)) fun isOpen => ?_
  split
  · split
    · exact composed_answerWith h _ _ _
    · exact composed_bind (composed_perform (h _ rfl)) fun _ => composed_check h rfl
  · exact composed_pure

theorem composed_pollEach (streams : List ℕ) : Composed calls good (pollEach streams) := by
  induction streams with
  | nil => exact composed_pure
  | cons stream rest ih =>
    refine composed_bind (composed_perform (h _ rfl)) fun answer => ?_
    cases answer with
    | none => exact ih
    | some response => exact composed_bind (composed_respond h stream response) fun _ => ih

theorem composed_applyCredits : Composed calls good applyCredits :=
  composed_bind (composed_perform (h _ rfl)) fun n => composed_checkEach h rfl n

theorem composed_applyResets : Composed calls good applyResets :=
  composed_bind (composed_perform (h _ rfl)) fun n => composed_checkEach h rfl n

theorem composed_resumeEach (streams : List ℕ) : Composed calls good (resumeEach streams) := by
  induction streams with
  | nil => exact composed_pure
  | cons stream rest ih =>
    refine composed_bind (composed_perform (h _ rfl)) fun answer => ?_
    cases answer with
    | resumed => exact ih
    | nothing => exact ih
    | failed => exact .fail

theorem composed_resumeReady : Composed calls good resumeReady :=
  composed_bind (composed_perform (h _ rfl)) fun streams => composed_resumeEach h streams

theorem composed_feed (fuel : ℕ) : Composed calls good (Http2Passes.feed fuel) := by
  induction fuel with
  | zero => exact .outOfFuel
  | succ fuel ih =>
    refine composed_bind (composed_perform (h _ rfl)) fun answer => ?_
    rcases answer with _ | ⟨⟨⟩ | ⟨⟩⟩
    · exact composed_pure
    · exact .fail
    · exact ih

theorem composed_dropFresh : Composed calls good (dropFresh stream) := by
  refine composed_bind (composed_perform (h _ rfl)) fun complete => ?_
  refine composed_bind (composed_perform (h _ rfl)) fun _ => composed_bind (composed_perform (h _ rfl)) fun _ => ?_
  split
  · exact composed_pure
  · exact composed_perform (h _ rfl)

theorem composed_answer (head : Http3Heads.ResponseParts) : Composed calls good (answer stream head) := by
  refine composed_bind (composed_perform (h _ rfl)) fun accepted => ?_
  split
  · exact composed_pure
  · exact composed_dropFresh h stream

theorem composed_write : Composed calls good write := by
  refine composed_bind (composed_perform (h _ rfl)) fun answer => ?_
  cases answer with
  | ok => exact composed_pure
  | error => exact .fail

theorem composed_commit : Composed calls good commit := by
  refine composed_bind (composed_perform (h _ rfl)) fun answer => ?_
  cases answer with
  | ok => exact composed_pure
  | error => exact .fail

theorem composed_flush (fuel : ℕ) : Composed calls good (flush fuel) := by
  induction fuel with
  | zero => exact .outOfFuel
  | succ fuel ih =>
    refine composed_bind (composed_perform (h _ rfl)) fun answer => ?_
    cases answer with
    | error => exact .fail
    | ok more =>
      refine composed_bind (composed_write h) fun _ => ?_
      split
      · exact ih
      · exact composed_pure

theorem composed_failStream (error : Error) : Composed calls good (failStream stream error) := by
  refine composed_bind (composed_perform (h _ rfl)) fun held => ?_
  split
  · refine composed_bind (composed_perform (h _ rfl)) fun settled => ?_
    split
    · exact composed_perform (h _ rfl)
    · exact composed_perform (h _ rfl)
  · exact composed_pure

theorem composed_submitTrailersOf (trailers : HeaderMap) :
    Composed calls good (submitTrailersOf stream trailers) := by
  refine composed_bind (composed_perform (h _ rfl)) fun ready => ?_
  split
  · split
    · refine composed_bind (composed_failStream h _ _) fun _ => ?_
      exact composed_bind (composed_check h rfl) fun _ => composed_pure
    · exact composed_bind (composed_submitTrailer h _ _) fun _ => composed_pure
  · exact composed_pure

theorem composed_submitTrailersEach (stashed : List (ℕ × HeaderMap)) (submitted : Bool) :
    Composed calls good (submitTrailersEach stashed submitted) := by
  induction stashed generalizing submitted with
  | nil => exact composed_pure
  | cons first rest ih => exact composed_bind (composed_submitTrailersOf h _ _) fun new => ih _

theorem composed_flushTrailers (fuel : ℕ) : Composed calls good (flushTrailers fuel) := by
  refine composed_bind ?_ fun submitted => ?_
  · exact composed_bind (composed_perform (h _ rfl)) fun stashed => composed_submitTrailersEach h _ _
  · split
    · exact composed_flush h fuel
    · exact composed_pure

theorem composed_endOfInput : Composed calls good endOfInput := by
  refine composed_bind (composed_perform (h _ rfl)) fun failed => ?_
  split
  · exact .fail
  refine composed_bind (composed_perform (h _ rfl)) fun midFrame => ?_
  split
  · exact .fail
  · exact composed_pure

theorem composed_ending (role : Role) : Composed calls good (ending role) := by
  refine composed_bind (composed_perform (h _ rfl)) fun finished => ?_
  split
  · exact composed_bind (composed_endOfInput h) fun _ => composed_pure
  refine composed_bind (composed_perform (h _ rfl)) fun last => ?_
  split
  · exact composed_pure
  · exact composed_pure

theorem composed_isBusy (role : Role) : Composed calls good (isBusy role) := by
  cases role with
  | client => exact composed_bind (composed_perform (h _ rfl)) fun _ => composed_pure
  | server => exact composed_perform (h _ rfl)

theorem composed_isIdle (role : Role) (wantsWrite : Bool) : Composed calls good (isIdle role wantsWrite) := by
  refine composed_bind (composed_isBusy h role) fun _ => composed_bind (composed_perform (h _ rfl)) fun _ => ?_
  exact composed_bind (composed_perform (h _ rfl)) fun _ => composed_bind (composed_perform (h _ rfl)) fun _ => composed_pure

theorem composed_park (role : Role) (wantsWrite : Bool) (fuel : ℕ) :
    Composed calls good (park role wantsWrite fuel) := by
  induction fuel with
  | zero => exact .outOfFuel
  | succ fuel ih =>
    refine composed_bind (composed_isIdle h role wantsWrite) fun idle => ?_
    split
    · exact composed_bind (composed_perform (h _ rfl)) fun _ => ih
    · exact composed_pure

section Receive
variable [Http]

theorem composed_answerHead (stream : ℕ) (fields : List Field) : Composed calls good (answerHead stream fields) := by
  refine composed_bind (composed_perform (h _ rfl)) fun held => ?_
  split
  · split
    · split
      · exact composed_pure
      · exact composed_answer h _ _
    · refine composed_bind (composed_perform (h _ rfl)) fun _ => composed_bind (composed_perform (h _ rfl)) fun _ => ?_
      exact composed_check h rfl
  · exact composed_pure

theorem composed_serveHead (maxConcurrentStreams stream : ℕ) (fields : List Field) :
    Composed calls good (serveHead maxConcurrentStreams stream fields) := by
  refine composed_bind (composed_perform (h _ rfl)) fun running => ?_
  split
  · exact composed_check h rfl
  · split
    · exact composed_check h rfl
    · exact composed_perform (h _ rfl)

theorem composed_roleHead (role : Role) (stream : ℕ) (fields : List Field) :
    Composed calls good (roleHead role stream fields) := by
  cases role with
  | client => exact composed_answerHead h stream fields
  | server maxConcurrentStreams => exact composed_serveHead h _ stream fields

theorem composed_deliverTrailers (stream : ℕ) (fields : List Field) :
    Composed calls good (deliverTrailers stream fields) := by
  rw [deliverTrailers]
  split
  · exact .fail
  · exact composed_perform (h _ rfl)
  · exact composed_bind (composed_perform (h _ rfl)) fun _ => composed_check h rfl

theorem composed_roleTrailers (role : Role) (stream : ℕ) (fields : List Field) :
    Composed calls good (roleTrailers role stream fields) := by
  cases role with
  | client =>
    refine composed_bind (composed_perform (h _ rfl)) fun held => ?_
    split
    · refine composed_bind (composed_perform (h _ rfl)) fun settled => ?_
      split
      · exact composed_deliverTrailers h stream fields
      · exact composed_answerHead h stream fields
    · exact composed_deliverTrailers h stream fields
  | server => exact composed_deliverTrailers h stream fields

end Receive

end Plain

theorem composed_advance (h : Blocks role calls good) : Composed calls good (advance role) := by
  cases role with
  | client => exact h.submitAll
  | server => exact composed_bind (composed_perform (h.plain _ rfl)) fun streams => composed_pollEach h.plain streams

theorem composed_refuseEach (h : Blocks role calls good) (code : ℕ) (streams : List ℕ) :
    Composed calls good (refuseEach code streams) := by
  induction streams with
  | nil => exact composed_pure
  | cons stream rest ih => exact composed_bind (h.refuseOne stream code) fun _ => ih

section Receive
variable [Http]

theorem composed_dispatchEvent (h : Blocks role calls good) (event : Event) :
    Composed calls good (dispatchEvent role event) := by
  cases event with
  | head stream fields =>
    exact composed_bind (composed_perform (h.plain _ rfl)) fun _ => composed_roleHead h.plain role stream fields
  | trailers stream fields =>
    refine composed_bind (composed_perform (h.plain _ rfl)) fun registered => ?_
    split
    · exact composed_roleTrailers h.plain role stream fields
    · exact composed_pure
  | data stream data => exact composed_check h.plain rfl
  | finished stream => exact composed_perform (h.plain _ rfl)
  | goaway lastStream code =>
    refine composed_bind (composed_perform (h.plain _ rfl)) fun _ => ?_
    exact composed_bind (composed_perform (h.plain _ rfl)) fun streams => composed_refuseEach h code streams
  | close stream code failure => exact h.closeStream stream code failure

theorem composed_dispatch (h : Blocks role calls good) : Composed calls good (dispatch role) := by
  refine composed_bind (composed_perform (h.plain _ rfl)) fun n => ?_
  induction n with
  | zero => exact composed_pure
  | succ n ih =>
    refine composed_bind (composed_perform (h.plain _ rfl)) fun answer => ?_
    cases answer with
    | none => exact composed_pure
    | some event => exact composed_bind (composed_dispatchEvent h event) fun _ => ih

theorem composed_work (h : Blocks role calls good) (fuel : ℕ) : Composed calls good (work role fuel) := by
  refine composed_bind (composed_advance h) fun _ => composed_bind (composed_applyCredits h.plain) fun _ => ?_
  refine composed_bind (composed_applyResets h.plain) fun _ => composed_bind h.applyShutdown fun _ => ?_
  refine composed_bind (composed_resumeReady h.plain) fun _ => composed_bind (composed_feed h.plain fuel) fun _ => ?_
  refine composed_bind (composed_dispatch h) fun _ => composed_bind (composed_flush h.plain fuel) fun _ => ?_
  refine composed_bind (composed_flushTrailers h.plain fuel) fun _ => ?_
  exact composed_bind (composed_dispatch h) fun _ => composed_commit h.plain

theorem composed_run (h : Blocks role calls good) (fuel : ℕ) : Composed calls good (run role fuel) := by
  refine composed_bind (composed_perform (h.plain _ rfl)) fun _ => ?_
  generalize hcount : fuel = n
  suffices hpasses : ∀ fuel, Composed calls good (passes role fuel n) from hcount ▸ hpasses fuel
  intro fuel
  clear hcount
  induction n with
  | zero => exact .outOfFuel
  | succ n ih =>
    refine composed_bind (composed_work h fuel) fun _ => composed_bind (composed_ending h.plain role) fun answer => ?_
    cases answer with
    | some ending => exact composed_pure
    | none =>
      refine composed_bind (composed_perform (h.plain _ rfl)) fun _ => ?_
      exact composed_bind (composed_park h.plain role _ fuel) fun _ => ih

end Receive

end Functions

end Ngnet.Http2Operations
