import Ngnet.Http3Settlement

/-!
# One exchange and the connection

What a driver does about one exchange it does to no other: each of its operations is about one
exchange at most, and leaves the others alone. So an exchange that goes wrong takes others down only
where the driver fails for it.

It does fail for content that one peer or one caller chose: a response head or trailers that cannot
be decoded, trailers of a body that cannot be sent, and calls about one stream that nghttp3 refuses.
Where none of these is met, and the connection itself does not fail, the driver does not fail.
-/

namespace Ngnet.Http3Containment
open QmuxVarints QmuxStreams Http3Heads Http3Handles Http3Conn Http3Driver Http3Passes InterleavedPrograms
open Http3DriverSteps Http3Discipline Http3Tracking Http3Settlement
open QmuxHttp3Join (QuicEvent)

variable {β ν η α : Type}

/-- The exchange that is registered for a stream. -/
def registered (w : World β ν η) (stream : StreamId) : Option ℕ := (w.driver.entry stream).map (·.incoming)

/-- The exchange that an operation is about, if it is about one. -/
def subject (w : World β ν η) : Op β ν α → Option ℕ
  | .deliverData => match w.driver.taken with
    | .data stream _ :: _ => registered w stream
    | _ => none
  | .deliverEnd stream | .deliverTrailers stream _ | .finishEntry stream => registered w stream
  | .completeSlot stream _ | .retireSlot stream _ => (w.driver.entry stream).bind (·.slot)
  | .retireBody _ => w.driver.leavingBodies.head?
  | .failLeaving _ => w.driver.leavingSlots.head?
  | .refuse _ | .enterHand _ => w.driver.hand.map (·.command.exchange)
  | .abandonNext => w.common.queue.head?.map (·.exchange)
  | .openExchange _ _ => some w.common.created
  | _ => none

theorem untouched_slot (c : Common) {id j : ℕ} (f : Slot → Slot) (h : some j ≠ some id) :
    (c.modifySlot j f).exchanges id = c.exchanges id :=
  exchanges_modify_of_ne _ _ fun heq => h (congrArg some heq.symm)

theorem untouched_incoming (c : Common) {id j : ℕ} (f : Incoming → Incoming) (h : some j ≠ some id) :
    (c.modifyIncoming j f).exchanges id = c.exchanges id :=
  exchanges_modify_of_ne _ _ fun heq => h (congrArg some heq.symm)

theorem untouched_onIncoming {w : World β ν η} {stream : StreamId} {id : ℕ} (f : Incoming → Incoming)
    (h : registered w stream ≠ some id) : (w.onIncoming stream f).common.exchanges id = w.common.exchanges id := by
  rw [World.onIncoming]
  split
  · rename_i entry hentry
    rw [registered, hentry] at h
    exact untouched_incoming w.common f h
  · rfl

section Steps
variable [QuicConnection β] [Nghttp3 ν] [Handlers η]

theorem untouched_applyOp (w : World β ν η) (op : Op β ν α) {id : ℕ} (h : subject w op ≠ some id) :
    Alike (w.common.exchanges id) ((applyOp w op).2.common.exchanges id) := by
  by_cases hidle : idle op = true
  · exact (still_applyOp w hidle).exchanges id
  suffices heq : (applyOp w op).2.common.exchanges id = w.common.exchanges id from heq ▸ Alike.refl _
  cases op with
  | callback call =>
    cases call with
    | _ => rfl
  | takeDeferredCredit | keepError | takeError | drainWork | drainObserved | discardClosedSince | passObservation |
      takeAll | giveStream | lockQueue | unlockQueue => rfl
  | returnCredit =>
    rw [applyOp]
    split
    · rfl
    · rfl
  | deliverData =>
    rw [applyOp]
    simp only [subject] at h
    dsimp only
    split
    · rename_i stream bytes taken htaken
      rw [htaken] at h
      exact untouched_onIncoming (w := w.onDriver fun d => { d with taken }) _ h
    · rfl
  | deliverEnd stream => exact untouched_onIncoming _ h
  | deliverTrailers stream fields => exact untouched_onIncoming _ h
  | completeSlot stream head =>
    rw [applyOp, World.onSlot]
    dsimp only
    split
    · rename_i slot hslot
      rw [subject, hslot] at h
      exact untouched_slot w.common (·.complete head) h
    · rfl
  | retireSlot stream error =>
    rw [applyOp]
    split
    · rfl
    · rename_i entry hentry
      rw [subject, hentry, Option.bind_some] at h
      cases hslot : entry.slot with
      | none => rfl
      | some slot => exact untouched_slot w.common (·.fail error) (hslot ▸ h)
  | retireBody error =>
    rw [applyOp]
    dsimp only
    split
    · rfl
    · rename_i body rest hleaving
      rw [subject, hleaving] at h
      exact untouched_incoming w.common (·.fail error) h
  | finishEntry stream =>
    rw [applyOp]
    split
    · rfl
    · rename_i entry hentry
      rw [subject, registered, hentry] at h
      exact untouched_incoming w.common (·.finish) h
  | leavingSettled =>
    rw [applyOp]
    split
    · rfl
    · split
      · rfl
      · rfl
  | failLeaving error =>
    rw [applyOp]
    dsimp only
    split
    · rfl
    · rename_i slot rest hleaving
      rw [subject, hleaving] at h
      exact untouched_slot w.common (·.fail error) h
  | pop =>
    rw [applyOp]
    split
    · rfl
    · rfl
  | admitRequest =>
    rw [applyOp]
    split
    · rfl
    · split
      · rfl
      · rfl
  | refuse error =>
    rw [applyOp]
    dsimp only
    split
    · rfl
    · rename_i hand hhand
      rw [subject, hhand] at h
      exact untouched_slot w.common (·.fail error) h
  | enterHand ending =>
    rw [applyOp, World.enterHand]
    split
    · rename_i command stream admitted hhand
      rw [subject, hhand] at h
      exact untouched_slot w.common (·.bind stream) h
    · rfl
  | abandonNext =>
    rw [applyOp]
    dsimp only
    split
    · rfl
    · rename_i command queue hqueue
      rw [subject, hqueue] at h
      exact untouched_slot { w.common with queue } (·.fail neverSent) h
  | openExchange stream head =>
    have hne : id ≠ w.common.created := by
      rintro rfl
      exact h rfl
    simp [applyOp, World.openExchange, hne]
  | _ => exact (hidle rfl).elim

/-! ## Runs -/

/-- The driver has not failed, and what it does next is about one exchange at most. -/
def Contained (c : Config (Op β ν) Error Unit (World β ν η)) : Prop :=
  c.stage.hasFailed = false ∧ c.Next fun op w => ∀ id, subject w op ≠ some id →
    Alike (w.common.exchanges id) ((applyOp w op).2.common.exchanges id)

variable [Http] {role : Role} {config : Http3Passes.Config} {fuel : ℕ} {backend : β} {raw : ν} {handlers : η}
  {choices : List (Choice Common.Action)}

instance (op : Op β ν α) (w : World β ν η) : Decidable (Unfailing role op w) := inferInstanceAs (Decidable (_ ∧ _))

omit [Http] in
theorem next_untouched (c : Config (Op β ν) Error Unit (World β ν η)) : c.Next fun op w => ∀ id,
    subject w op ≠ some id → Alike (w.common.exchanges id) ((applyOp w op).2.common.exchanges id) := by
  obtain ⟨stage, w⟩ := c
  rcases stage with (_ | _ | _ | ⟨op, next⟩) | ⟨outcome, _ | _ | _ | ⟨op, next⟩⟩ | _
  all_goals first
    | exact True.intro
    | exact fun _ => untouched_applyOp w op

end Steps

/-! ## Two exchanges -/

attribute [local instance] accepting

/-- Two requests, on the first two streams. -/
def twoRequests : List (Choice Common.Action) :=
  [.other (.sendRequest getRequest)] ++ List.replicate 4 (.other (.stepFuture 0)) ++
    [.other (.sendRequest getRequest)] ++ List.replicate 4 (.other (.stepFuture 1))

/-- The callbacks for a response head with these fields behind its status. -/
def headOf (n : ℕ) (fields : List Field) : List Callback :=
  .beginSection (requestStream n) .headers :: .field (requestStream n) (ascii ":status") (ascii "200") ::
    fields.map (fun field => .field (requestStream n) field.1 field.2) ++ [.endSection (requestStream n) .headers]

/-- The peer answers the first request with these fields, in two pieces, and has said nothing yet about
the second. -/
def answeredWith (fields : List Field) : World Script Parser Silent :=
  startOf [.data (requestStream 0) [1] false, .data (requestStream 0) [2] false] [[], headOf 0 fields]

end Ngnet.Http3Containment
