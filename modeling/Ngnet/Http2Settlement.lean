import Ngnet.Http2Discipline
import Ngnet.Http2ScriptedSession

/-!
# Requests of an HTTP/2 client are settled

The slot of a request whose `send_request` has returned is settled or abandoned, or whoever is to settle it still has
it: it is queued, in hand, registered, its entry was just removed, or a call that found the driver gone has drained it.
A driver that is gone has none of these. Where a command is pushed behind its back, the call that pushed it sees that
it is gone and drains the queue itself.
-/

namespace Ngnet.Http2Settlement
open QmuxVarints Http2Heads Http2Handles Http2Driver Http2Passes Http2Operations Http2Discipline InterleavedPrograms
open Http3Heads (Http ResponseParts)

variable {α δ τ η : Type}

/-! ## Slots -/

/-- An outcome is recorded once the slot is settled, and not before. -/
def Once (slot : Slot) : Prop := slot.record.length = if slot.settled then 1 else 0

/-- The caller has its answer, or does not want it. -/
def Over (slot : Slot) : Prop := slot.settled = true ∨ slot.abandoned = true

theorem once_settle {slot : Slot} (h : Once slot) (outcome : Except Error ResponseParts) :
    Once (slot.settle outcome) := by
  rw [Slot.settle]
  split
  · exact h
  · rename_i hsettled
    simp_all [Once]

@[simp] theorem settled_settle (slot : Slot) (outcome : Except Error ResponseParts) :
    (slot.settle outcome).settled = true := by
  rw [Slot.settle]
  split
  · assumption
  · rfl

/-- What may happen to a slot: what is recorded stays recorded, and a slot that is over stays so. -/
structure SlotStep (slot slot' : Slot) : Prop where
  once : Once slot → Once slot'
  stays : Over slot → Over slot'

namespace SlotStep
variable {slot slot' : Slot}

theorem refl (slot : Slot) : SlotStep slot slot := ⟨id, id⟩

theorem settle (slot : Slot) (outcome : Except Error ResponseParts) : SlotStep slot (slot.settle outcome) where
  once h := once_settle h outcome
  stays _ := .inl (settled_settle slot outcome)

theorem fail (error : Error) (slot : Slot) : SlotStep slot (slot.fail error) := settle slot _

theorem complete (head : ResponseParts) (slot : Slot) : SlotStep slot (slot.complete head) := settle slot _

theorem bind (slot : Slot) (stream : ℕ) : SlotStep slot (slot.bind stream).2 := ⟨id, id⟩

theorem poll (slot : Slot) : SlotStep slot slot.poll.2 := ⟨id, id⟩

theorem cancel (slot : Slot) : SlotStep slot slot.cancel.2 := by
  rw [Slot.cancel]
  split
  · exact refl slot
  · exact ⟨id, fun _ => .inr rfl⟩

theorem over_fail (slot : Slot) (error : Error) : Over (slot.fail error) := .inl (settled_settle slot _)

end SlotStep

/-! ## Exchanges -/

section Exchanges
variable (c : Common) {id j : ℕ}

theorem exchanges_modify_self (id : ℕ) (f : Exchange → Exchange) : (c.modifyExchange id f).exchanges id = f (c.exchanges id) :=
  Function.update_self ..

theorem exchanges_modify_of_ne (f : Exchange → Exchange) (h : j ≠ id) :
    (c.modifyExchange id f).exchanges j = c.exchanges j := Function.update_of_ne h ..

theorem exchanges_modify_cases {r : Exchange → Exchange → Prop} (hrefl : ∀ e, r e e) {f : Exchange → Exchange}
    (hf : r (c.exchanges id) (f (c.exchanges id))) (j : ℕ) : r (c.exchanges j) ((c.modifyExchange id f).exchanges j) := by
  by_cases h : j = id
  · rw [h, exchanges_modify_self]
    exact hf
  · rw [exchanges_modify_of_ne c f h]
    exact hrefl _

end Exchanges

/-- What the driver does to an exchange: the future is not its own. -/
structure Kept (e e' : Exchange) : Prop where
  future : e'.future = e.future
  slot : SlotStep e.slot e'.slot

namespace Kept

theorem refl (e : Exchange) : Kept e e := ⟨rfl, .refl _⟩

theorem trans {e e' e'' : Exchange} (h : Kept e e') (h' : Kept e' e'') : Kept e e'' :=
  ⟨h'.future.trans h.future, h'.slot.once ∘ h.slot.once, h'.slot.stays ∘ h.slot.stays⟩

theorem modifySlot (c : Common) (id : ℕ) {f : Slot → Slot} (hf : ∀ slot, SlotStep slot (f slot)) (j : ℕ) :
    Kept (c.exchanges j) ((c.modifySlot id f).exchanges j) :=
  exchanges_modify_cases c (r := Kept) refl ⟨rfl, hf _⟩ j

theorem modifyIncoming (c : Common) (id : ℕ) (f : Incoming → Incoming) (j : ℕ) :
    Kept (c.exchanges j) ((c.modifyIncoming id f).exchanges j) :=
  exchanges_modify_cases c (r := Kept) refl ⟨rfl, .refl _⟩ j

theorem setBody (c : Common) (id : ℕ) (body : IncomingBody) (j : ℕ) :
    Kept (c.exchanges j) ((c.setBody id body).exchanges j) :=
  exchanges_modify_cases c (r := Kept) refl ⟨rfl, .refl _⟩ j

end Kept

/-! ## Who settles a slot -/

/-- `send_request` has pushed the command, or refused the request. -/
def isSent : FuturePhase → Bool
  | .absent | .checkingGone | .checkingRefusing | .failing _ | .pushing => false
  | _ => true

/-- The call has pushed its command, and is to drain the queue if the driver is gone. -/
def isSweeping : FuturePhase → Bool
  | .checkingAgain | .draining => true
  | _ => false

/-- The removed entries whose slots may not be settled. -/
def untold (d : DriverState δ τ η) (k : Desk) : List Entry := if k.told then d.leaving.tail else d.leaving

/-- Someone has the slot and is to settle it. -/
inductive Owed (w : World δ τ η) (k : Desk) (id : ℕ) : Prop
  | queued {command : Command} (h : command ∈ w.common.queue) (hid : command.exchange = id)
  | inHand {command : Command} (h : command ∈ w.driver.hand) (hid : command.exchange = id)
  | submitting {command : Command} (h : w.driver.current = some command) (hk : k.submitting = true)
    (hid : command.exchange = id)
  | registered {stream : ℕ} {entry : Entry} (h : w.driver.entry stream = some entry) (hid : entry.slot = some id)
  | leaving {entry : Entry} (h : entry ∈ untold w.driver k) (hid : entry.slot = some id)
  | drained {other : ℕ} {slots : List ℕ} (h : (w.common.exchanges other).future = .failingDrained slots)
    (hid : id ∈ slots)

variable {bound : δ → ℕ}

/-- How the hands of the driver are tied to the state, and who settles each slot. `bound` is above every stream that
the session has assigned. -/
structure Settling (bound : δ → ℕ) (w : World δ τ η) (k : Desk) : Prop where
  unmade : ∀ id, w.common.created ≤ id → (w.common.exchanges id).future = .absent
  once : ∀ id, Once (w.common.exchanges id).slot
  owed : ∀ id, isSent (w.common.exchanges id).future = true → Over (w.common.exchanges id).slot ∨ Owed w k id
  hand : w.driver.hand.length = k.hand
  leaving : w.driver.leaving.length = k.leaving
  gone : k.gone = true → w.common.inner.gone = true
  cleared : k.cleared = true → ∀ stream, w.driver.entry stream = none
  swept : k.swept = true → w.common.inner.gone = true ∧
    (w.common.queue = [] ∨ ∃ id, isSweeping (w.common.exchanges id).future = true)
  below : ∀ stream entry, w.driver.entry stream = some entry → entry.slot.isSome → stream < bound w.driver.session
  assigned : ∀ stream, k.assigned = some stream → stream < bound w.driver.session ∧
    ∀ entry, w.driver.entry stream = some entry → entry.slot = none

/-- The driver has in its hands and its registry what it had. -/
structure SameHands (bound : δ → ℕ) (d d' : DriverState δ τ η) : Prop where
  hand : d'.hand = d.hand
  current : d'.current = d.current
  registry : d'.registry = d.registry
  leaving : d'.leaving = d.leaving
  grows : bound d.session ≤ bound d'.session

/-- Slots move on, and who has them does not change. -/
structure Steady (bound : δ → ℕ) (w w' : World δ τ η) : Prop where
  queue : w'.common.queue = w.common.queue
  created : w'.common.created = w.common.created
  gone : w'.common.inner.gone = w.common.inner.gone
  kept : ∀ id, Kept (w.common.exchanges id) (w'.common.exchanges id)
  hands : SameHands bound w.driver w'.driver

section Steady
variable {d d' d'' : DriverState δ τ η} {w w' w'' : World δ τ η} {k : Desk} {id : ℕ}

theorem Steady.of_hands (hcommon : w'.common = w.common) (hands : SameHands bound w.driver w'.driver) :
    Steady bound w w' :=
  ⟨congrArg (·.queue) hcommon, congrArg (·.created) hcommon, congrArg (·.inner.gone) hcommon,
    fun _ => hcommon ▸ Kept.refl _, hands⟩

theorem SameHands.trans (h : SameHands bound d d') (h' : SameHands bound d' d'') : SameHands bound d d'' :=
  ⟨h'.hand.trans h.hand, h'.current.trans h.current, h'.registry.trans h.registry, h'.leaving.trans h.leaving,
    h.grows.trans h'.grows⟩

theorem Steady.trans (h : Steady bound w w') (h' : Steady bound w' w'') : Steady bound w w'' :=
  ⟨h'.queue.trans h.queue, h'.created.trans h.created, h'.gone.trans h.gone, fun id => (h.kept id).trans (h'.kept id), h.hands.trans h'.hands⟩

theorem Steady.entry (h : Steady bound w w') (stream : ℕ) : w'.driver.entry stream = w.driver.entry stream := by
  rw [DriverState.entry, h.hands.registry, DriverState.entry]

theorem Owed.of_steady (h : Owed w k id) (hsteady : Steady bound w w') : Owed w' k id := by
  cases h with
  | queued h hid => exact .queued (hsteady.queue ▸ h) hid
  | inHand h hid => exact .inHand (hsteady.hands.hand ▸ h) hid
  | submitting h hk hid => exact .submitting (hsteady.hands.current ▸ h) hk hid
  | registered h hid => exact .registered ((hsteady.entry _).trans h) hid
  | leaving h hid =>
    refine .leaving ?_ hid
    rwa [untold, hsteady.hands.leaving]
  | drained h hid => exact .drained ((hsteady.kept _).future.trans h) hid

theorem Settling.of_steady (h : Settling bound w k) (hsteady : Steady bound w w') : Settling bound w' k where
  unmade id hid := (hsteady.kept id).future.trans (h.unmade id (hsteady.created ▸ hid))
  once id := (hsteady.kept id).slot.once (h.once id)
  owed id hsent := by
    rw [(hsteady.kept id).future] at hsent
    obtain hover | howed := h.owed id hsent
    · exact .inl ((hsteady.kept id).slot.stays hover)
    · exact .inr (howed.of_steady hsteady)
  hand := hsteady.hands.hand ▸ h.hand
  leaving := hsteady.hands.leaving ▸ h.leaving
  gone hgone := hsteady.gone ▸ h.gone hgone
  cleared hcleared stream := (hsteady.entry stream).trans (h.cleared hcleared stream)
  swept hswept := by
    rw [hsteady.gone, hsteady.queue]
    refine ⟨(h.swept hswept).1, (h.swept hswept).2.imp_right ?_⟩
    rintro ⟨id, hid⟩
    exact ⟨id, (hsteady.kept id).future ▸ hid⟩
  below stream entry hentry hslot := by
    rw [hsteady.entry] at hentry
    exact (h.below stream entry hentry hslot).trans_le hsteady.hands.grows
  assigned stream hassigned := by
    rw [hsteady.entry]
    exact ⟨(h.assigned stream hassigned).1.trans_le hsteady.hands.grows, (h.assigned stream hassigned).2⟩

end Steady

/-! ## The session -/

/-- libnghttp2 assigns each stream once: `bound` is above all that it has assigned. -/
structure Assigns [Session δ] (bound : δ → ℕ) : Prop where
  fresh : ∀ headers body d stream, (Session.call (.submitRequest headers body) d).1 = .ok stream →
    bound d ≤ stream ∧ stream < bound (Session.call (.submitRequest headers body) d).2
  grows : ∀ {α : Type} (call : SessionCall α) d, bound d ≤ bound (Session.call call d).2

section Plain
variable {d : DriverState δ τ η} {w : World δ τ η}

theorem gone_reset (inner : Inner) (stream code : ℕ) : (inner.reset stream code).gone = inner.gone := by
  rw [Inner.reset]
  split
  · rfl
  · rfl

theorem gone_credit (inner : Inner) (stream len : ℕ) : (inner.credit stream len).gone = inner.gone := by
  rw [Inner.credit]
  split
  · rfl
  · rfl

theorem steady_modifyIncoming (id : ℕ) (f : Incoming → Incoming) :
    Steady bound w (w.onCommon (·.modifyIncoming id f)) :=
  ⟨rfl, rfl, rfl, Kept.modifyIncoming w.common id f, rfl, rfl, rfl, rfl, le_rfl⟩

theorem steady_onIncoming (stream : ℕ) (f : Incoming → Incoming) : Steady bound w (w.onIncoming stream f) := by
  rw [World.onIncoming]
  split
  · exact steady_modifyIncoming _ _
  · exact ⟨rfl, rfl, rfl, fun _ => Kept.refl _, rfl, rfl, rfl, rfl, le_rfl⟩

theorem steady_onSlot (stream : ℕ) {f : Slot → Slot} (hf : ∀ slot, SlotStep slot (f slot)) :
    Steady bound w (w.onSlot stream f) := by
  rw [World.onSlot]
  split
  · exact ⟨rfl, rfl, rfl, Kept.modifySlot _ _ hf, rfl, rfl, rfl, rfl, le_rfl⟩
  · exact ⟨rfl, rfl, rfl, fun _ => Kept.refl _, rfl, rfl, rfl, rfl, le_rfl⟩

theorem steady_completeSlot (stream : ℕ) (head : ResponseParts) : Steady bound w (w.completeSlot stream head).2 := by
  rw [World.completeSlot]
  split
  · exact ⟨rfl, rfl, rfl, fun _ => Kept.refl _, rfl, rfl, rfl, rfl, le_rfl⟩
  split
  · exact ⟨rfl, rfl, rfl, fun _ => Kept.refl _, rfl, rfl, rfl, rfl, le_rfl⟩
  · exact ⟨rfl, rfl, rfl, fun id => (Kept.modifySlot _ _ (.complete head) id).trans (Kept.setBody _ _ _ id), rfl, rfl, rfl, rfl, le_rfl⟩

variable [Session δ] (hassigns : Assigns bound)

include hassigns

theorem hands_call (call : SessionCall α) : SameHands bound d (d.call call).2 :=
  ⟨rfl, rfl, rfl, rfl, hassigns.grows call _⟩

theorem hands_consume (stream len : ℕ) : SameHands bound d (d.consume stream len).2 := by
  rw [DriverState.consume]
  split
  · exact ⟨rfl, rfl, rfl, rfl, le_rfl⟩
  · exact hands_call hassigns _

theorem hands_consumeNext : SameHands bound d d.consumeNext.2 := by
  rw [DriverState.consumeNext]
  split
  · exact ⟨rfl, rfl, rfl, rfl, le_rfl⟩
  · rename_i stream len credited _
    have hleft : SameHands bound d { d with credited } := ⟨rfl, rfl, rfl, rfl, le_rfl⟩
    exact hleft.trans (hands_consume hassigns stream len)

theorem hands_sweepNext : SameHands bound d d.sweepNext.2 := by
  rw [DriverState.sweepNext]
  split
  · exact ⟨rfl, rfl, rfl, rfl, le_rfl⟩
  rename_i stream code toReset _
  have hleft : SameHands bound d { d with toReset } := ⟨rfl, rfl, rfl, rfl, le_rfl⟩
  have hlooked : SameHands bound d (DriverState.call (.streamIsOpen stream) { d with toReset }).2 :=
    hleft.trans (hands_call hassigns _)
  dsimp only
  split
  · exact hlooked.trans (hands_call hassigns _)
  · exact hlooked

theorem hands_feed : SameHands bound d d.feed.2 := by
  rw [DriverState.feed]
  split
  · exact ⟨rfl, rfl, rfl, rfl, le_rfl⟩
  · rename_i buffer inbox _
    have hleft : SameHands bound d { d with inbox } := ⟨rfl, rfl, rfl, rfl, le_rfl⟩
    have hfed : SameHands bound d (DriverState.call (.recv buffer) { d with inbox }).2 :=
      hleft.trans (hands_call hassigns _)
    exact hfed.trans ⟨rfl, rfl, rfl, rfl, le_rfl⟩

theorem hands_send : SameHands bound d d.send.2 :=
  (hands_call hassigns .send).trans ⟨rfl, rfl, rfl, rfl, le_rfl⟩

theorem steady_deliverData : Steady bound w w.deliverData.2 := by
  rw [World.deliverData]
  split
  · rename_i stream data events _
    have hpassed : Steady bound w (w.onDriver ({ · with events })) := ⟨rfl, rfl, rfl, fun _ => Kept.refl _, rfl, rfl, rfl, rfl, le_rfl⟩
    dsimp only
    split
    · split
      · exact hpassed
      · exact hpassed.trans (.of_hands rfl (hands_consume hassigns _ _))
    · rename_i entry _
      have hpushed : Steady bound w ((w.onDriver ({ · with events })).onCommon
          (·.modifyIncoming entry.incoming fun _ => ((w.common.exchanges entry.incoming).incoming.push data).2)) :=
        hpassed.trans (steady_modifyIncoming _ _)
      split
      · exact hpushed
      · exact hpushed.trans (.of_hands rfl (hands_consume hassigns _ _))
  · exact ⟨rfl, rfl, rfl, fun _ => Kept.refl _, rfl, rfl, rfl, rfl, le_rfl⟩

theorem steady_refuseStream (stream code : ℕ) (reporting : Bool) :
    Steady bound w (w.refuseStream stream code reporting).2 := by
  have hreset : Steady bound w ((w.onIncoming stream fun incoming => incoming.abandon.2).locally
      (·.call (.resetStream stream code))).2 :=
    (steady_onIncoming stream _).trans (.of_hands rfl (hands_call hassigns _))
  rw [World.refuseStream]
  generalize (w.onIncoming stream fun incoming => incoming.abandon.2).locally
    (·.call (.resetStream stream code)) = answer at hreset
  obtain ⟨⟨⟩ | ⟨⟩, w'⟩ := answer
  · exact hreset
  · dsimp only
    split
    · exact hreset.trans (.of_hands rfl (hands_consume hassigns _ _))
    · exact hreset

/-- The operations that neither take anything into the hands of the driver nor register anything. -/
def isSteady : Op α → Bool
  | .session (.submitRequest _ _) | .enterIncoming _ => false
  | .drainQueue | .nextCommand | .refuse _ | .enter _ | .failHand _ => false
  | .removeEntry _ | .leavingUnsettled | .failLeavingSlot _ | .forgetLeaving | .takeAll | .setGone => false
  | _ => true

omit hassigns [Session δ] in
theorem next_of_steady {op : Op α} (h : isSteady op = true) (k : Desk) (answer : α) : k.next op answer = k := by
  cases op with
  | session call =>
    cases call with
    | submitRequest => cases h
    | _ => rfl
  | _ => first
    | rfl
    | cases h

theorem steady_applyOp [Transport τ] [Handlers η] {op : Op α} (hop : isSteady op = true) :
    Steady bound w (World.applyOp op w).2 := by
  cases op with
  | session call => exact .of_hands rfl (hands_call hassigns call)
  | feed => exact .of_hands rfl (hands_feed hassigns)
  | send => exact ⟨rfl, rfl, rfl, fun _ => Kept.refl _, hands_send hassigns⟩
  | consumeNext => exact .of_hands rfl (hands_consumeNext hassigns)
  | sweepNext => exact .of_hands rfl (hands_sweepNext hassigns)
  | deliverData => exact steady_deliverData hassigns
  | refuseStream stream code reporting => exact steady_refuseStream hassigns stream code reporting
  | completeSlot stream head => exact steady_completeSlot stream head
  | failSlot stream error => exact steady_onSlot stream (.fail error)
  | failIncoming stream error => exact steady_onIncoming stream _
  | failLeavingIncoming error =>
    rw [World.applyOp, World.onLeaving]
    dsimp only
    split
    · exact steady_modifyIncoming _ _
    · exact ⟨rfl, rfl, rfl, fun _ => Kept.refl _, rfl, rfl, rfl, rfl, le_rfl⟩
  | setTrailers stream fields => exact steady_onIncoming stream _
  | finishIncoming stream => exact steady_onIncoming stream _
  | abandonFresh stream => exact (steady_onIncoming stream _).trans ⟨rfl, rfl, rfl, fun _ => Kept.refl _, rfl, rfl, rfl, rfl, le_rfl⟩
  | creditFresh =>
    rw [World.applyOp]
    dsimp only
    split
    · exact ⟨rfl, rfl, gone_credit _ _ _, fun _ => Kept.refl _, rfl, rfl, rfl, rfl, le_rfl⟩
    · exact ⟨rfl, rfl, rfl, fun _ => Kept.refl _, rfl, rfl, rfl, rfl, le_rfl⟩
  | reset stream code => exact ⟨rfl, rfl, gone_reset _ _ _, fun _ => Kept.refl _, rfl, rfl, rfl, rfl, le_rfl⟩
  | nothingLeft role =>
    rw [World.applyOp, World.nothingLeft]
    split
    · exact .of_hands rfl ((hands_call hassigns .wantWrite).trans ⟨rfl, rfl, rfl, rfl, le_rfl⟩)
    · exact ⟨rfl, rfl, rfl, fun _ => Kept.refl _, rfl, rfl, rfl, rfl, le_rfl⟩
  | startHandler stream head =>
    rw [World.applyOp, World.startHandler]
    dsimp only
    split
    · exact ⟨rfl, rfl, rfl, Kept.setBody w.common _ _, rfl, rfl, rfl, rfl, le_rfl⟩
    · exact ⟨rfl, rfl, rfl, fun _ => Kept.refl _, rfl, rfl, rfl, rfl, le_rfl⟩
  | pollHandler stream =>
    rw [World.applyOp, World.pollHandler]
    split
    · split
      · exact ⟨rfl, rfl, rfl, fun _ => Kept.refl _, rfl, rfl, rfl, rfl, le_rfl⟩
      · exact ⟨rfl, rfl, rfl, fun _ => Kept.refl _, rfl, rfl, rfl, rfl, le_rfl⟩
    · exact ⟨rfl, rfl, rfl, fun _ => Kept.refl _, rfl, rfl, rfl, rfl, le_rfl⟩
  | _ => first
    | exact ⟨rfl, rfl, rfl, fun _ => Kept.refl _, rfl, rfl, rfl, rfl, le_rfl⟩
    | cases hop

end Plain

/-! ## Operations that hand slots on -/

section Special
variable {w w' : World δ τ η} {k k' : Desk} {id : ℕ}

/-- From whoever has the slot of an exchange it goes to someone who has it then, or it is over. -/
structure Passing (w w' : World δ τ η) (k k' : Desk) (id : ℕ) : Prop where
  queued : ∀ command ∈ w.common.queue, command.exchange = id → Over (w'.common.exchanges id).slot ∨ Owed w' k' id
  inHand : ∀ command ∈ w.driver.hand, command.exchange = id → Over (w'.common.exchanges id).slot ∨ Owed w' k' id
  submitting : ∀ command, w.driver.current = some command → k.submitting = true → command.exchange = id →
      Over (w'.common.exchanges id).slot ∨ Owed w' k' id
  registered : ∀ stream entry, w.driver.entry stream = some entry → entry.slot = some id →
      Over (w'.common.exchanges id).slot ∨ Owed w' k' id
  leaving : ∀ entry ∈ untold w.driver k, entry.slot = some id → Over (w'.common.exchanges id).slot ∨ Owed w' k' id
  drained : ∀ other slots, (w.common.exchanges other).future = .failingDrained slots → id ∈ slots →
      Over (w'.common.exchanges id).slot ∨ Owed w' k' id

theorem Owed.pass (howed : Owed w k id) (h : Passing w w' k k' id) : Over (w'.common.exchanges id).slot ∨ Owed w' k' id := by
  cases howed with
  | queued hcommand hid => exact h.queued _ hcommand hid
  | inHand hcommand hid => exact h.inHand _ hcommand hid
  | submitting hcommand hk hid => exact h.submitting _ hcommand hk hid
  | registered hentry hid => exact h.registered _ _ hentry hid
  | leaving hentry hid => exact h.leaving _ hentry hid
  | drained hfuture hid => exact h.drained _ _ hfuture hid

theorem Settling.rearrange (h : Settling bound w k)
    (hcreated : w'.common.created = w.common.created)
    (hkept : ∀ id, Kept (w.common.exchanges id) (w'.common.exchanges id))
    (howed : ∀ id, isSent (w.common.exchanges id).future = true → Owed w k id →
      Over (w'.common.exchanges id).slot ∨ Owed w' k' id)
    (hand : w'.driver.hand.length = k'.hand) (leaving : w'.driver.leaving.length = k'.leaving)
    (gone : k'.gone = true → w'.common.inner.gone = true)
    (cleared : k'.cleared = true → ∀ stream, w'.driver.entry stream = none)
    (swept : k'.swept = true → w'.common.inner.gone = true ∧
      (w'.common.queue = [] ∨ ∃ id, isSweeping (w'.common.exchanges id).future = true))
    (below : ∀ stream entry, w'.driver.entry stream = some entry → entry.slot.isSome →
      stream < bound w'.driver.session)
    (assigned : ∀ stream, k'.assigned = some stream → stream < bound w'.driver.session ∧
      ∀ entry, w'.driver.entry stream = some entry → entry.slot = none) : Settling bound w' k' where
  unmade id hid := (hkept id).future.trans (h.unmade id (hcreated ▸ hid))
  once id := (hkept id).slot.once (h.once id)
  owed id hsent := by
    rw [(hkept id).future] at hsent
    obtain hover | hbefore := h.owed id hsent
    · exact .inl ((hkept id).slot.stays hover)
    · exact howed id hsent hbefore
  hand := hand
  leaving := leaving
  gone := gone
  cleared := cleared
  swept := swept
  below := below
  assigned := assigned

theorem getElem?_insert (registry : Std.TreeMap ℕ Entry) (key other : ℕ) (entry : Entry) :
    (registry.insert key entry)[other]? = if key = other then some entry else registry[other]? := by
  simp [Std.TreeMap.getElem?_insert]

theorem getElem?_erase (registry : Std.TreeMap ℕ Entry) (key other : ℕ) :
    (registry.erase key)[other]? = if key = other then none else registry[other]? := by
  simp [Std.TreeMap.getElem?_erase]

theorem mem_entries {d : DriverState δ τ η} {stream : ℕ} {entry : Entry} (h : d.entry stream = some entry) :
    entry ∈ d.entries := by
  rw [DriverState.entries, List.mem_map]
  exact ⟨(stream, entry), Std.TreeMap.mem_toList_iff_getElem?_eq_some.mpr h, rfl⟩

theorem settling_drainQueue (h : Settling bound w k) (hk : k.Tidy) :
    Settling bound ⟨{ w.common with queue := [] }, { w.driver with hand := w.common.queue, taken := w.common.pushed }⟩
      { k with hand := w.common.queue.length, swept := k.gone } := by
  have hempty := List.eq_nil_of_length_eq_zero (h.hand.trans hk.1)
  refine h.rearrange rfl (fun _ => Kept.refl _) (fun id _ howed => howed.pass ?_) rfl h.leaving h.gone h.cleared
    (fun hgone => ⟨h.gone hgone, .inl rfl⟩) h.below h.assigned
  exact ⟨fun _ h hid => .inr (.inHand h hid), fun _ hcommand => by simp [hempty] at hcommand,
    fun _ h hk hid => .inr (.submitting h hk hid), fun _ _ h hid => .inr (.registered h hid),
    fun _ h hid => .inr (.leaving h hid), fun _ _ h hid => .inr (.drained h hid)⟩

theorem settling_nextCommand (h : Settling bound w k) (hk : k.submitting = false) :
    Settling bound w.nextCommand.2 { k with hand := k.hand - 1, submitting := w.nextCommand.1.isSome } := by
  have hhand := h.hand
  rw [World.nextCommand]
  split
  · rename_i hempty
    rw [hempty] at hhand
    refine h.rearrange rfl (fun _ => Kept.refl _) (fun id _ howed => howed.pass ?_) ?_ h.leaving h.gone h.cleared
      h.swept h.below h.assigned
    · exact ⟨fun _ h hid => .inr (.queued h hid), fun _ h hid => .inr (.inHand h hid),
        fun _ _ hsubmitting => by simp [hk] at hsubmitting, fun _ _ h hid => .inr (.registered h hid),
        fun _ h hid => .inr (.leaving h hid), fun _ _ h hid => .inr (.drained h hid)⟩
    · simp [hempty, ← hhand]
  · rename_i command hand hcommands
    rw [hcommands, List.length_cons] at hhand
    have hlength : hand.length = k.hand - 1 := by omega
    split
    · rename_i habandoned
      refine h.rearrange rfl (fun _ => Kept.refl _) (fun id _ howed => howed.pass ?_) hlength h.leaving h.gone
        h.cleared h.swept h.below h.assigned
      refine ⟨fun _ h hid => .inr (.queued h hid), fun other hother hid => ?_,
        fun _ _ hsubmitting => by simp [hk] at hsubmitting, fun _ _ h hid => .inr (.registered h hid),
        fun _ h hid => .inr (.leaving h hid), fun _ _ h hid => .inr (.drained h hid)⟩
      rw [hcommands] at hother
      obtain rfl | hother := List.mem_cons.mp hother
      · exact .inl (.inr (hid ▸ habandoned))
      · exact .inr (.inHand hother hid)
    · refine h.rearrange rfl (fun _ => Kept.refl _) (fun id _ howed => howed.pass ?_) hlength h.leaving h.gone
        h.cleared h.swept h.below h.assigned
      refine ⟨fun _ h hid => .inr (.queued h hid), fun other hother hid => ?_,
        fun _ _ hsubmitting => by simp [hk] at hsubmitting, fun _ _ h hid => .inr (.registered h hid),
        fun _ h hid => .inr (.leaving h hid), fun _ _ h hid => .inr (.drained h hid)⟩
      rw [hcommands] at hother
      obtain rfl | hother := List.mem_cons.mp hother
      · exact .inr (.submitting rfl rfl hid)
      · exact .inr (.inHand hother hid)

theorem Kept.swept {c c' : Common} (hkept : ∀ id, Kept (c.exchanges id) (c'.exchanges id))
    (h : ∃ id, isSweeping (c.exchanges id).future = true) : ∃ id, isSweeping (c'.exchanges id).future = true := by
  obtain ⟨id, hid⟩ := h
  exact ⟨id, (hkept id).future ▸ hid⟩

theorem over_modifySlot (c : Common) (id : ℕ) {f : Slot → Slot} (hf : ∀ slot, Over (f slot)) :
    Over ((c.modifySlot id f).exchanges id).slot := by
  rw [Common.modifySlot, exchanges_modify_self]
  exact hf _

theorem Settling.failed (h : Settling bound w k) {id : ℕ} (error : Error) {d : DriverState δ τ η}
    (hpassing : ∀ other, other ≠ id → Passing w ⟨w.common.modifySlot id (·.fail error), d⟩ k k' other)
    (hand : d.hand.length = k'.hand) (leaving : d.leaving = w.driver.leaving)
    (registry : d.registry = w.driver.registry) (session : d.session = w.driver.session)
    (hk : k' = { k with hand := k'.hand, submitting := k'.submitting, told := k'.told }) :
    Settling bound ⟨w.common.modifySlot id (·.fail error), d⟩ k' := by
  have hkept := Kept.modifySlot w.common id (SlotStep.fail error)
  have hself : Over ((w.common.modifySlot id (·.fail error)).exchanges id).slot :=
    over_modifySlot _ _ fun slot => SlotStep.over_fail slot error
  have hentry : ∀ stream, d.entry stream = w.driver.entry stream := fun stream => by
    rw [DriverState.entry, registry, DriverState.entry]
  refine h.rearrange rfl hkept (fun other _ howed => ?_) hand ?_ ?_ ?_ ?_ ?_ ?_
  · by_cases heq : other = id
    · exact .inl (heq ▸ hself)
    · exact howed.pass (hpassing other heq)
  · rw [hk, leaving]
    exact h.leaving
  · rw [hk]
    exact h.gone
  · rw [hk]
    exact fun hcleared stream => (hentry stream).trans (h.cleared hcleared stream)
  · rw [hk]
    exact fun hswept => ⟨(h.swept hswept).1, (h.swept hswept).2.imp_right (Kept.swept hkept)⟩
  · intro stream entry hsome
    rw [hentry] at hsome
    rw [session]
    exact h.below stream entry hsome
  · rw [hk, session]
    intro stream hassigned
    rw [hentry]
    exact h.assigned stream hassigned

theorem future_fail (c : Common) (id other : ℕ) (error : Error) :
    ((c.modifySlot id (·.fail error)).exchanges other).future = (c.exchanges other).future :=
  (Kept.modifySlot c id (SlotStep.fail error) other).future

theorem settling_refuse (h : Settling bound w k) (error : Error) :
    Settling bound (w.onCurrent (·.fail error)) { k with submitting := false } := by
  rw [World.onCurrent]
  split
  · rename_i command hcurrent
    refine h.failed error (fun other hne => ?_) h.hand rfl rfl rfl rfl
    refine ⟨fun _ h hid => .inr (.queued h hid), fun _ h hid => .inr (.inHand h hid),
      fun command' hcommand _ hid => ?_, fun _ _ h hid => .inr (.registered h hid),
      fun _ h hid => .inr (.leaving h hid), fun _ _ hfuture hid => ?_⟩
    · rw [hcurrent] at hcommand
      cases hcommand
      exact (hne hid.symm).elim
    · exact .inr (.drained ((future_fail ..).trans hfuture) hid)
  · rename_i hcurrent
    refine h.rearrange rfl (fun _ => Kept.refl _) (fun id _ howed => howed.pass ?_) h.hand h.leaving h.gone
      h.cleared h.swept h.below h.assigned
    exact ⟨fun _ h hid => .inr (.queued h hid), fun _ h hid => .inr (.inHand h hid),
      fun _ hcommand => by simp [hcurrent] at hcommand, fun _ _ h hid => .inr (.registered h hid),
      fun _ h hid => .inr (.leaving h hid), fun _ _ h hid => .inr (.drained h hid)⟩

theorem settling_failHand (h : Settling bound w k) (error : Error) :
    Settling bound (w.failHand error) { k with hand := k.hand - 1 } := by
  have hhand := h.hand
  rw [World.failHand]
  split
  · rename_i hempty
    rw [hempty] at hhand
    refine h.rearrange rfl (fun _ => Kept.refl _) (fun id _ howed => howed.pass ⟨fun _ h hid => .inr (.queued h hid),
      fun _ h hid => .inr (.inHand h hid), fun _ h hk hid => .inr (.submitting h hk hid),
      fun _ _ h hid => .inr (.registered h hid), fun _ h hid => .inr (.leaving h hid),
      fun _ _ h hid => .inr (.drained h hid)⟩) ?_ h.leaving h.gone
      h.cleared h.swept h.below h.assigned
    simp [hempty, ← hhand]
  · rename_i command hand hcommands
    rw [hcommands, List.length_cons] at hhand
    refine h.failed error (fun other hne => ?_) (by show hand.length = k.hand - 1; omega) rfl rfl rfl rfl
    refine ⟨fun _ h hid => .inr (.queued h hid), fun other hother hid => ?_,
      fun _ h hk hid => .inr (.submitting h hk hid), fun _ _ h hid => .inr (.registered h hid),
      fun _ h hid => .inr (.leaving h hid), fun _ _ hfuture hid => ?_⟩
    · rw [hcommands] at hother
      obtain rfl | hother := List.mem_cons.mp hother
      · exact (hne hid.symm).elim
      · exact .inr (.inHand hother hid)
    · exact .inr (.drained ((future_fail ..).trans hfuture) hid)

theorem settling_told (h : Settling bound w k)
    (htold : ∀ entry ∈ w.driver.leaving.head?, ∀ id, entry.slot = some id → Over (w.common.exchanges id).slot) :
    Settling bound w { k with told := true } := by
  refine h.rearrange rfl (fun _ => Kept.refl _) (fun id _ howed => howed.pass ?_) h.hand h.leaving h.gone h.cleared
    h.swept h.below h.assigned
  refine ⟨fun _ h hid => .inr (.queued h hid), fun _ h hid => .inr (.inHand h hid),
    fun _ h hk hid => .inr (.submitting h hk hid), fun _ _ h hid => .inr (.registered h hid),
    fun entry hentry hid => ?_, fun _ _ h hid => .inr (.drained h hid)⟩
  rw [untold] at hentry
  split at hentry
  · exact .inr (.leaving (by simpa [untold] using hentry) hid)
  · cases hleaving : w.driver.leaving with
    | nil => simp [hleaving] at hentry
    | cons first rest =>
      rw [hleaving] at hentry htold
      obtain rfl | hrest := List.mem_cons.mp hentry
      · exact .inl (htold entry rfl id hid)
      · exact .inr (.leaving (by simpa [untold, hleaving] using hrest) hid)

theorem settling_failLeavingSlot (h : Settling bound w k) (error : Error) :
    Settling bound (w.onLeaving fun entry c => World.failSlots c entry.slot error) { k with told := true } := by
  rw [World.onLeaving]
  split
  · rename_i entry rest hleaving
    simp only [World.onCommon, World.failSlots]
    split
    · rename_i slot hslot
      have hpassing (other : ℕ) (hne : other ≠ slot) :
          Passing w ⟨w.common.modifySlot slot (·.fail error), w.driver⟩ k k other :=
        ⟨fun _ h hid => .inr (.queued h hid), fun _ h hid => .inr (.inHand h hid),
          fun _ h hk hid => .inr (.submitting h hk hid), fun _ _ h hid => .inr (.registered h hid),
          fun _ h hid => .inr (.leaving h hid),
          fun _ _ hfuture hid => .inr (.drained ((future_fail ..).trans hfuture) hid)⟩
      refine settling_told (h.failed error hpassing h.hand rfl rfl rfl rfl) ?_
      · dsimp only
        rw [hleaving]
        rintro _ ⟨⟩ id hid
        cases hid.symm.trans hslot
        exact over_modifySlot _ _ fun slot => SlotStep.over_fail slot error
    · rename_i hslot
      refine settling_told h ?_
      rw [hleaving]
      rintro _ ⟨⟩ id hid
      cases hid.symm.trans hslot
  · rename_i hleaving
    refine settling_told h ?_
    simp [hleaving]

theorem settling_leavingUnsettled (h : Settling bound w k) (hk : k.told = false) :
    Settling bound w { k with told := !w.leavingUnsettled } := by
  cases hunsettled : w.leavingUnsettled with
  | true =>
    have heq : { k with told := !true } = k := by
      cases k
      simp_all
    rw [heq]
    exact h
  | false =>
    refine settling_told h fun entry hentry id hid => ?_
    obtain ⟨slot, incoming⟩ := entry
    subst hid
    cases hleaving : w.driver.leaving with
    | nil => simp [hleaving] at hentry
    | cons first rest =>
      rw [hleaving] at hentry
      cases hentry
      left
      simpa [World.leavingUnsettled, hleaving] using hunsettled

theorem settling_forgetLeaving (h : Settling bound w k) (hk : k.told = true) :
    Settling bound (w.onDriver fun d => { d with leaving := d.leaving.tail })
      { k with leaving := k.leaving - 1, told := false } := by
  have hleaving := h.leaving
  refine h.rearrange rfl (fun _ => Kept.refl _) (fun id hsent howed => howed.pass ?_) h.hand ?_ h.gone h.cleared
    h.swept h.below h.assigned
  · refine ⟨fun _ h hid => .inr (.queued h hid), fun _ h hid => .inr (.inHand h hid),
      fun _ h hk hid => .inr (.submitting h hk hid), fun _ _ h hid => .inr (.registered h hid),
      fun entry hentry hid => .inr (.leaving ?_ hid), fun _ _ h hid => .inr (.drained h hid)⟩
    rw [untold, if_pos hk] at hentry
    exact hentry
  · simp only [World.onDriver, List.length_tail]
    omega

theorem settling_made (h : Settling bound w k) {e : Exchange} (honce : Once e.slot) (hsent : isSent e.future = false) :
    Settling bound { w with common := { w.common with
      created := w.common.created + 1, exchanges := Function.update w.common.exchanges w.common.created e } } k := by
  have hold : ∀ id, isSent (Function.update w.common.exchanges w.common.created e id).future = true →
      Function.update w.common.exchanges w.common.created e id = w.common.exchanges id := by
    intro id hid
    refine Function.update_of_ne ?_ ..
    rintro rfl
    simp [hsent] at hid
  have hnew : ∀ id phase, (w.common.exchanges id).future = phase → phase ≠ .absent →
      (Function.update w.common.exchanges w.common.created e id).future = phase := by
    intro id phase hphase habsent
    rw [Function.update_of_ne]
    · exact hphase
    · rintro rfl
      exact habsent (hphase.symm.trans (h.unmade _ le_rfl))
  constructor
  · intro id hid
    dsimp only at hid ⊢
    rw [Function.update_of_ne (by omega)]
    exact h.unmade id (Nat.le_of_succ_le hid)
  · intro id
    by_cases hid : id = w.common.created
    · simpa [hid] using honce
    · simpa [Function.update_of_ne hid] using h.once id
  · intro id hid
    have heq := hold id hid
    dsimp only at hid ⊢
    rw [heq] at hid ⊢
    refine (h.owed id hid).imp_right fun howed => ?_
    cases howed with
    | queued hcommand hid => exact .queued hcommand hid
    | inHand hcommand hid => exact .inHand hcommand hid
    | submitting hcommand hk hid => exact .submitting hcommand hk hid
    | registered hentry hid => exact .registered hentry hid
    | leaving hentry hid => exact .leaving hentry hid
    | drained hother hid => exact .drained (hnew _ _ hother nofun) hid
  · exact h.hand
  · exact h.leaving
  · exact h.gone
  · exact h.cleared
  · intro hswept
    refine ⟨(h.swept hswept).1, (h.swept hswept).2.imp_right ?_⟩
    rintro ⟨id, hid⟩
    refine ⟨id, ?_⟩
    dsimp only
    rw [hnew id _ rfl]
    · exact hid
    · intro habsent
      simp [habsent, isSweeping] at hid
  · exact h.below
  · exact h.assigned

theorem settling_enterIncoming (h : Settling bound w k) (hk : k.cleared = false) (stream : ℕ) :
    Settling bound (w.enterIncoming stream) k := by
  rw [World.enterIncoming]
  split
  · exact h
  rename_i hfree
  have hmade := settling_made h (e := {}) rfl rfl
  have hentry : ∀ other entry, (w.driver.registry.insert stream ⟨none, w.common.created⟩)[other]? = some entry →
      w.driver.entry other = some entry ∨ entry.slot = none := by
    intro other entry hentry
    rw [getElem?_insert] at hentry
    split at hentry
    · cases hentry
      exact .inr rfl
    · exact .inl hentry
  refine hmade.rearrange rfl (fun _ => Kept.refl _) (fun id _ howed => howed.pass ?_) h.hand h.leaving h.gone
    (by simp [hk]) hmade.swept ?_ ?_
  · refine ⟨fun _ h hid => .inr (.queued h hid), fun _ h hid => .inr (.inHand h hid),
      fun _ h hk hid => .inr (.submitting h hk hid), fun other entry hsome hid => ?_,
      fun _ h hid => .inr (.leaving h hid), fun _ _ h hid => .inr (.drained h hid)⟩
    have hkept : (w.driver.registry.insert stream ⟨none, w.common.created⟩)[other]? = some entry := by
      rw [getElem?_insert, if_neg]
      · exact hsome
      · rintro rfl
        exact nomatch hfree.symm.trans hsome
    exact .inr (.registered hkept hid)
  · intro other entry hsome hslot
    obtain hbefore | hnone := hentry other entry hsome
    · exact h.below other entry hbefore hslot
    · simp [hnone] at hslot
  · intro other hassigned
    refine ⟨(h.assigned other hassigned).1, fun entry hsome => ?_⟩
    obtain hbefore | hnone := hentry other entry hsome
    · exact (h.assigned other hassigned).2 entry hbefore
    · exact hnone

theorem settling_enter (h : Settling bound w k) {stream : ℕ}
    (hk : k.submitting = true ∧ k.assigned = some stream ∧ k.cleared = false) :
    Settling bound (w.enter stream).2 { k with submitting := false, assigned := none } := by
  obtain ⟨hbelow, hslotless⟩ := h.assigned stream hk.2.1
  rw [World.enter]
  split
  · rename_i hcurrent
    refine h.rearrange rfl (fun _ => Kept.refl _) (fun id _ howed => howed.pass ?_) h.hand h.leaving h.gone
      h.cleared h.swept h.below nofun
    exact ⟨fun _ h hid => .inr (.queued h hid), fun _ h hid => .inr (.inHand h hid),
      fun _ hcommand => by simp [hcurrent] at hcommand, fun _ _ h hid => .inr (.registered h hid),
      fun _ h hid => .inr (.leaving h hid), fun _ _ h hid => .inr (.drained h hid)⟩
  · rename_i request id hcurrent
    have hkept : ∀ other, Kept (w.common.exchanges other)
        ((w.common.modifySlot id fun _ => ((w.common.exchanges id).slot.bind stream).2).exchanges other) :=
      exchanges_modify_cases w.common (r := Kept) Kept.refl ⟨rfl, .bind _ _⟩
    refine h.rearrange rfl hkept (fun other _ howed => howed.pass ?_) h.hand h.leaving
      h.gone (by simp [hk.2.2])
      (fun hswept => ⟨(h.swept hswept).1, (h.swept hswept).2.imp_right (Kept.swept hkept)⟩) ?_ nofun
    · refine ⟨fun _ h hid => .inr (.queued h hid), fun _ h hid => .inr (.inHand h hid),
        fun command hcommand _ hid => ?_, fun key entry hentry hid => ?_,
        fun _ h hid => .inr (.leaving h hid),
        fun _ _ hfuture hid => .inr (.drained ((hkept _).future.trans hfuture) hid)⟩
      · rw [hcurrent] at hcommand
        cases hcommand
        have hnew : (w.driver.registry.insert stream ⟨some id, id⟩)[stream]? = some ⟨some id, id⟩ := by
          rw [getElem?_insert, if_pos rfl]
        exact .inr (.registered hnew (congrArg some hid))
      · have hold : (w.driver.registry.insert stream ⟨some id, id⟩)[key]? = some entry := by
          rw [getElem?_insert, if_neg]
          · exact hentry
          · rintro rfl
            rw [hslotless entry hentry] at hid
            cases hid
        exact .inr (.registered hold hid)
    · intro key entry hentry hslot
      change (w.driver.registry.insert stream _)[key]? = some entry at hentry
      rw [getElem?_insert] at hentry
      split at hentry
      · rename_i heq
        exact heq ▸ hbelow
      · exact h.below key entry hentry hslot

theorem settling_removeEntry (h : Settling bound w k) {stream : ℕ} {entry : Entry} (hk : k.leaving = 0)
    (hentry : w.driver.entry stream = some entry) :
    Settling bound (w.onDriver fun d => { d with registry := d.registry.erase stream, leaving := [entry] })
      { k with leaving := 1, told := false } := by
  have hempty := List.eq_nil_of_length_eq_zero (h.leaving.trans hk)
  have hfewer : ∀ other entry, (w.driver.registry.erase stream)[other]? = some entry →
      w.driver.entry other = some entry := by
    intro other entry hsome
    rw [getElem?_erase] at hsome
    split at hsome
    · cases hsome
    · exact hsome
  refine h.rearrange rfl (fun _ => Kept.refl _) (fun id _ howed => howed.pass ?_) h.hand rfl h.gone
    (fun hcleared other => ?_) h.swept (fun other entry hsome => h.below other entry (hfewer other entry hsome)) ?_
  · refine ⟨fun _ h hid => .inr (.queued h hid), fun _ h hid => .inr (.inHand h hid),
      fun _ h hk hid => .inr (.submitting h hk hid), fun other entry' hsome hid => ?_,
      fun _ hleft => by simp [untold, hempty] at hleft, fun _ _ h hid => .inr (.drained h hid)⟩
    by_cases heq : stream = other
    · rw [← heq, hentry] at hsome
      cases hsome
      exact .inr (.leaving (List.mem_singleton_self entry) hid)
    · have hkept : (w.driver.registry.erase stream)[other]? = some entry' := by
        rw [getElem?_erase, if_neg heq]
        exact hsome
      exact .inr (.registered hkept hid)
  · have hnone := h.cleared hcleared stream
    rw [hentry] at hnone
    cases hnone
  · intro other hassigned
    exact ⟨(h.assigned other hassigned).1, fun entry hsome => (h.assigned other hassigned).2 entry (hfewer _ _ hsome)⟩

theorem settling_takeAll (h : Settling bound w k) (hk : k.leaving = 0) :
    Settling bound (w.onDriver fun d => { d with registry := {}, leaving := d.entries })
      { k with leaving := w.driver.entries.length, told := false, cleared := true } := by
  have hempty := List.eq_nil_of_length_eq_zero (h.leaving.trans hk)
  have hnone : ∀ stream : ℕ, (∅ : Std.TreeMap ℕ Entry)[stream]? = none := by simp
  refine h.rearrange rfl (fun _ => Kept.refl _) (fun id _ howed => howed.pass ?_) h.hand rfl h.gone
    (fun _ stream => hnone stream) h.swept (fun stream entry hsome => ?_) fun stream hassigned => ?_
  · refine ⟨fun _ h hid => .inr (.queued h hid), fun _ h hid => .inr (.inHand h hid),
      fun _ h hk hid => .inr (.submitting h hk hid),
      fun other entry hsome hid => .inr (.leaving (mem_entries hsome) hid),
      fun _ hleft => by simp [untold, hempty] at hleft, fun _ _ h hid => .inr (.drained h hid)⟩
  · change (∅ : Std.TreeMap ℕ Entry)[stream]? = some entry at hsome
    rw [hnone] at hsome
    cases hsome
  · refine ⟨(h.assigned stream hassigned).1, fun entry hsome => ?_⟩
    change (∅ : Std.TreeMap ℕ Entry)[stream]? = some entry at hsome
    rw [hnone] at hsome
    cases hsome

theorem settling_setGone (h : Settling bound w k) :
    Settling bound (w.onCommon (·.modifyInner ({ · with gone := true }))) { k with gone := true } := by
  refine h.rearrange rfl (fun _ => Kept.refl _) (fun id _ howed => howed.pass ⟨fun _ h hid => .inr (.queued h hid),
      fun _ h hid => .inr (.inHand h hid), fun _ h hk hid => .inr (.submitting h hk hid),
      fun _ _ h hid => .inr (.registered h hid), fun _ h hid => .inr (.leaving h hid),
      fun _ _ h hid => .inr (.drained h hid)⟩) h.hand h.leaving
    (fun _ => rfl) h.cleared (fun hswept => ⟨rfl, (h.swept hswept).2⟩) h.below h.assigned

theorem settling_submitRequest [Session δ] (hassigns : Assigns bound) (h : Settling bound w k) (headers : OwnedHeaders)
    (body : Option CallerBody) :
    Settling bound (w.locally (·.call (.submitRequest headers body))).2
      (k.next (.session (.submitRequest headers body)) (w.locally (·.call (.submitRequest headers body))).1) := by
  have hsteady : Settling bound (w.locally (·.call (.submitRequest headers body))).2 k :=
    h.of_steady (.of_hands rfl (hands_call hassigns _))
  have hfresh := hassigns.fresh headers body w.driver.session
  cases hanswer : (Session.call (.submitRequest headers body) w.driver.session).1 with
  | error =>
    have heq : (w.locally (·.call (.submitRequest headers body))).1 = .error () := hanswer
    rw [heq]
    exact hsteady
  | ok stream =>
    have heq : (w.locally (·.call (.submitRequest headers body))).1 = .ok stream := hanswer
    obtain ⟨hnew, hbelow⟩ := hfresh stream hanswer
    rw [heq]
    refine hsteady.rearrange rfl (fun _ => Kept.refl _) (fun id _ howed => howed.pass ⟨fun _ h hid => .inr (.queued h hid),
      fun _ h hid => .inr (.inHand h hid), fun _ h hk hid => .inr (.submitting h hk hid),
      fun _ _ h hid => .inr (.registered h hid), fun _ h hid => .inr (.leaving h hid),
      fun _ _ h hid => .inr (.drained h hid)⟩) hsteady.hand hsteady.leaving
      hsteady.gone hsteady.cleared hsteady.swept hsteady.below ?_
    rintro _ ⟨⟩
    refine ⟨hbelow, fun entry hentry => ?_⟩
    cases hslot : entry.slot with
    | none => rfl
    | some id =>
      have := h.below stream entry hentry (by simp [hslot])
      omega

end Special

section Apply
variable [Session δ] [Transport τ] [Handlers η] {w : World δ τ η} {k : Desk}

theorem settling_applyOp (hassigns : Assigns bound) (h : Settling bound w k) {op : Op α} (hallows : k.allows op) :
    Settling bound (World.applyOp op w).2 (k.next op (World.applyOp op w).1) := by
  by_cases hsteady : isSteady op = true
  · rw [next_of_steady hsteady]
    exact h.of_steady (steady_applyOp hassigns hsteady)
  cases op with
  | session call =>
    cases call with
    | submitRequest headers body => exact settling_submitRequest hassigns h headers body
    | _ => exact (hsteady rfl).elim
  | enterIncoming stream => exact settling_enterIncoming h hallows stream
  | drainQueue => exact settling_drainQueue h hallows
  | nextCommand => exact settling_nextCommand h hallows
  | refuse error => exact settling_refuse h error
  | enter stream => exact settling_enter h hallows
  | failHand error => exact settling_failHand h error
  | removeEntry stream =>
    rw [World.applyOp]
    split
    · exact h
    · rename_i entry hentry
      exact settling_removeEntry h hallows hentry
  | leavingUnsettled => exact settling_leavingUnsettled h hallows
  | failLeavingSlot error => exact settling_failLeavingSlot h error
  | forgetLeaving => exact settling_forgetLeaving h hallows
  | takeAll => exact settling_takeAll h hallows
  | setGone => exact settling_setGone h
  | _ => exact (hsteady rfl).elim

end Apply

/-! ## What others do -/

/-- What others do to an exchange, without a word to the queue; `gone` says whether the driver is gone. -/
structure Moved (gone : Bool) (e e' : Exchange) : Prop where
  slot : SlotStep e.slot e'.slot
  absent : e.future = .absent → e'.future = .absent
  sent : isSent e'.future = true → isSent e.future = true ∨ Over e'.slot
  sweeping : isSweeping e.future = true → gone = true → isSweeping e'.future = true
  drained : ∀ slots, e.future = .failingDrained slots → slots = [] ∨ e'.future = .failingDrained slots

section Handles
variable {w : World δ τ η} {k : Desk} {c : Common} {gone : Bool}

theorem Moved.refl (e : Exchange) : Moved gone e e := ⟨.refl _, id, .inl, fun h _ => h, fun _ => .inr⟩

theorem Moved.setFuture {e : Exchange} {future : FuturePhase} {slot : Slot} (hslot : SlotStep e.slot slot)
    (habsent : e.future ≠ .absent) (hsent : isSent e.future = true ∨ isSent future = false ∨ Over slot)
    (hsweeping : isSweeping e.future = true → gone = true → isSweeping future = true)
    (hdrained : ∀ slots, e.future = .failingDrained slots → slots = []) : Moved gone e { e with slot, future } where
  slot := hslot
  absent h := (habsent h).elim
  sent h := by
    obtain hbefore | hafter | hover := hsent
    · exact .inl hbefore
    · exact absurd h (by simp [hafter])
    · exact .inr hover
  sweeping := hsweeping
  drained slots h := .inl (hdrained slots h)

theorem Settling.other (h : Settling bound w k) (hcreated : c.created = w.common.created)
    (hslot : ∀ id, SlotStep (w.common.exchanges id).slot (c.exchanges id).slot)
    (habsent : ∀ id, (w.common.exchanges id).future = .absent → (c.exchanges id).future = .absent)
    (howed : ∀ id, isSent (c.exchanges id).future = true → Over (c.exchanges id).slot ∨ Owed ⟨c, w.driver⟩ k id)
    (hgone : c.inner.gone = w.common.inner.gone)
    (hswept : k.swept = true → c.queue = [] ∨ ∃ id, isSweeping (c.exchanges id).future = true) :
    Settling bound ⟨c, w.driver⟩ k where
  unmade id hid := habsent id (h.unmade id (hcreated ▸ hid))
  once id := (hslot id).once (h.once id)
  owed := howed
  hand := h.hand
  leaving := h.leaving
  gone hk := hgone ▸ h.gone hk
  cleared := h.cleared
  swept hk := ⟨hgone ▸ (h.swept hk).1, hswept hk⟩
  below := h.below
  assigned := h.assigned

theorem Settling.moved (h : Settling bound w k)
    (hmoved : ∀ id, Moved w.common.inner.gone (w.common.exchanges id) (c.exchanges id))
    (hqueue : c.queue = w.common.queue) (hcreated : c.created = w.common.created)
    (hgone : c.inner.gone = w.common.inner.gone) : Settling bound ⟨c, w.driver⟩ k := by
  refine h.other hcreated (fun id => (hmoved id).slot) (fun id => (hmoved id).absent) (fun id hsent => ?_) hgone
    fun hswept => ?_
  · obtain hbefore | hover := (hmoved id).sent hsent
    · refine (h.owed id hbefore).imp (hmoved id).slot.stays fun howed => ?_
      cases howed with
      | queued hcommand hid => exact .queued (hqueue.symm ▸ hcommand) hid
      | inHand hcommand hid => exact .inHand hcommand hid
      | submitting hcommand hk hid => exact .submitting hcommand hk hid
      | registered hentry hid => exact .registered hentry hid
      | leaving hentry hid => exact .leaving hentry hid
      | drained hfuture hid =>
        obtain rfl | hkept := (hmoved _).drained _ hfuture
        · cases hid
        · exact .drained hkept hid
    · exact .inl hover
  · rw [hqueue]
    refine (h.swept hswept).2.imp_right ?_
    rintro ⟨id, hid⟩
    exact ⟨id, (hmoved id).sweeping hid (h.swept hswept).1⟩

theorem Settling.modified (h : Settling bound w k) (id : ℕ) {f : Exchange → Exchange}
    (hf : Moved w.common.inner.gone (w.common.exchanges id) (f (w.common.exchanges id))) :
    Settling bound ⟨w.common.modifyExchange id f, w.driver⟩ k :=
  h.moved (exchanges_modify_cases w.common (r := Moved w.common.inner.gone) Moved.refl hf) rfl rfl rfl

theorem settling_sendRequest (h : Settling bound w k) (request : Request) :
    Settling bound ⟨w.common.sendRequest request, w.driver⟩ k := by
  rw [Common.sendRequest]
  split
  · exact h
  · exact settling_made h rfl rfl

section Future
variable (c) (id : ℕ) (future : FuturePhase)

theorem future_setFuture_self : ((c.setFuture id future).exchanges id).future = future := by
  rw [Common.setFuture, exchanges_modify_self]

theorem exchanges_setFuture_of_ne {other : ℕ} (h : other ≠ id) :
    (c.setFuture id future).exchanges other = c.exchanges other := exchanges_modify_of_ne _ _ h

theorem slot_setFuture (other : ℕ) : ((c.setFuture id future).exchanges other).slot = (c.exchanges other).slot :=
  exchanges_modify_cases c (r := fun e e' => e'.slot = e.slot) (fun _ => rfl) rfl other

theorem future_setFuture_of_ne {other : ℕ} {phase phase' : FuturePhase} (hid : (c.exchanges id).future = phase)
    (hother : (c.exchanges other).future = phase') (hne : phase ≠ phase') :
    ((c.setFuture id future).exchanges other).future = phase' := by
  rw [exchanges_setFuture_of_ne]
  · exact hother
  · rintro rfl
    exact hne (hid.symm.trans hother)

end Future

theorem settling_push (h : Settling bound w k) {id : ℕ} {request : Request}
    (hfuture : (w.common.exchanges id).future = .pushing) :
    Settling bound (w.onCommon fun c =>
      ({ c with queue := c.queue ++ [⟨request, id⟩], pushed := c.pushed + 1 } : Common).setFuture id .checkingAgain) k := by
  have hslot := slot_setFuture w.common id .checkingAgain
  refine h.other rfl (fun other => ?_) (fun other habsent => ?_) (fun other hsent => ?_) rfl fun _ => .inr ?_
  · exact (hslot other).symm ▸ SlotStep.refl _
  · exact future_setFuture_of_ne w.common id _ hfuture habsent nofun
  · by_cases heq : other = id
    · exact .inr (.queued (List.mem_append_right _ (List.mem_singleton_self _)) heq.symm)
    · have hkept := exchanges_setFuture_of_ne w.common id .checkingAgain heq
      have hbefore : isSent (w.common.exchanges other).future = true := congrArg (isSent ·.future) hkept ▸ hsent
      refine (h.owed other hbefore).imp (fun hover => (hslot other).symm ▸ hover) fun howed => ?_
      cases howed with
      | queued hcommand hid => exact .queued (List.mem_append_left _ hcommand) hid
      | inHand hcommand hid => exact .inHand hcommand hid
      | submitting hcommand hk hid => exact .submitting hcommand hk hid
      | registered hentry hid => exact .registered hentry hid
      | leaving hentry hid => exact .leaving hentry hid
      | drained hslots hid => exact .drained (future_setFuture_of_ne w.common id _ hfuture hslots nofun) hid
  · exact ⟨id, congrArg isSweeping (future_setFuture_self w.common id _)⟩

theorem settling_drain (h : Settling bound w k) {id : ℕ} (hfuture : (w.common.exchanges id).future = .draining) :
    Settling bound (w.onCommon fun c =>
      ({ c with queue := [] } : Common).setFuture id (.failingDrained (c.queue.map (·.exchange)))) k := by
  have hslot := slot_setFuture w.common id (.failingDrained (w.common.queue.map (·.exchange)))
  refine h.other rfl (fun other => ?_) (fun other habsent => ?_) (fun other hsent => ?_) rfl fun _ => .inl rfl
  · exact (hslot other).symm ▸ SlotStep.refl _
  · exact future_setFuture_of_ne w.common id _ hfuture habsent nofun
  · have hbefore : isSent (w.common.exchanges other).future = true := by
      by_cases heq : other = id
      · rw [heq, hfuture]
        rfl
      · exact congrArg (isSent ·.future) (exchanges_setFuture_of_ne w.common id _ heq) ▸ hsent
    refine (h.owed other hbefore).imp (fun hover => (hslot other).symm ▸ hover) fun howed => ?_
    cases howed with
    | queued hcommand hid =>
      exact .drained (future_setFuture_self w.common id _) (hid ▸ List.mem_map_of_mem hcommand)
    | inHand hcommand hid => exact .inHand hcommand hid
    | submitting hcommand hk hid => exact .submitting hcommand hk hid
    | registered hentry hid => exact .registered hentry hid
    | leaving hentry hid => exact .leaving hentry hid
    | drained hslots hid => exact .drained (future_setFuture_of_ne w.common id _ hfuture hslots nofun) hid

theorem settling_failDrained (h : Settling bound w k) {id slot : ℕ} {slots : List ℕ}
    (hfuture : (w.common.exchanges id).future = .failingDrained (slot :: slots)) :
    Settling bound (w.onCommon fun c => (c.modifySlot slot (·.fail .closed)).setFuture id (.failingDrained slots)) k := by
  have hkept := Kept.modifySlot w.common slot (SlotStep.fail .closed)
  have hslot := slot_setFuture (w.common.modifySlot slot (·.fail .closed)) id (.failingDrained slots)
  have hstep : ∀ other, SlotStep (w.common.exchanges other).slot
      (((w.common.modifySlot slot (·.fail .closed)).setFuture id (.failingDrained slots)).exchanges other).slot :=
    fun other => (hslot other).symm ▸ (hkept other).slot
  have hfailing := (hkept id).future.trans hfuture
  refine h.other rfl hstep (fun other habsent => ?_) (fun other hsent => ?_) rfl fun hswept => ?_
  · exact future_setFuture_of_ne _ id _ hfailing ((hkept other).future.trans habsent) nofun
  · have hbefore : isSent (w.common.exchanges other).future = true := by
      by_cases heq : other = id
      · rw [heq, hfuture]
        rfl
      · have heq' := exchanges_setFuture_of_ne (w.common.modifySlot slot (·.fail .closed)) id (.failingDrained slots) heq
        exact (hkept other).future ▸ congrArg (isSent ·.future) heq' ▸ hsent
    obtain hover | howed := h.owed other hbefore
    · exact .inl ((hstep other).stays hover)
    cases howed with
    | queued hcommand hid => exact .inr (.queued hcommand hid)
    | inHand hcommand hid => exact .inr (.inHand hcommand hid)
    | submitting hcommand hk hid => exact .inr (.submitting hcommand hk hid)
    | registered hentry hid => exact .inr (.registered hentry hid)
    | leaving hentry hid => exact .inr (.leaving hentry hid)
    | @drained caller held hslots hid =>
      by_cases heq : caller = id
      · rw [heq, hfuture] at hslots
        cases hslots
        obtain rfl | hrest := List.mem_cons.mp hid
        · left
          show Over (((w.common.modifySlot other _).setFuture id _).exchanges other).slot
          rw [hslot]
          exact over_modifySlot _ _ fun slot => SlotStep.over_fail slot _
        · exact .inr (.drained (future_setFuture_self _ id _) hrest)
      · have heq' := exchanges_setFuture_of_ne (w.common.modifySlot slot (·.fail .closed)) id (.failingDrained slots) heq
        exact .inr (.drained ((congrArg (·.future) heq').trans ((hkept caller).future.trans hslots)) hid)
  · refine (h.swept hswept).2.imp_right ?_
    rintro ⟨other, hother⟩
    refine ⟨other, ?_⟩
    have hne : other ≠ id := by
      rintro rfl
      rw [hfuture] at hother
      cases hother
    show isSweeping (((w.common.modifySlot slot _).setFuture id _).exchanges other).future = true
    rw [exchanges_setFuture_of_ne _ id _ hne, (hkept other).future]
    exact hother

theorem settling_stepFuture (h : Settling bound w k) (id : ℕ) : Settling bound (w.onCommon (·.stepFuture id)) k := by
  rw [World.onCommon, Common.stepFuture]
  split
  · rename_i hfuture
    refine h.modified id (Moved.setFuture (.refl _) (by simp [hfuture]) (.inr (.inl ?_)) (by simp [hfuture, isSweeping])
      (by simp [hfuture]))
    split
    · rfl
    · rfl
  · rename_i hfuture
    refine h.modified id (Moved.setFuture (.refl _) (by simp [hfuture]) (.inr (.inl ?_)) (by simp [hfuture, isSweeping])
      (by simp [hfuture]))
    split
    · rfl
    · rfl
  · rename_i error hfuture
    have hmodified := h.modified id (f := fun e => { e with slot := e.slot.fail error, future := .pending false })
      (Moved.setFuture (.fail error _) (by simp [hfuture]) (.inr (.inr (SlotStep.over_fail _ _)))
        (by simp [hfuture, isSweeping]) (by simp [hfuture]))
    simpa [Common.setFuture, Common.modifySlot, Common.modifyExchange] using hmodified
  · rename_i hfuture
    split
    · exact settling_push h hfuture
    · exact h
  · rename_i hfuture
    refine h.modified id (Moved.setFuture (.refl _) (by simp [hfuture]) (.inl (by simp [hfuture, isSent])) ?_
      (by simp [hfuture]))
    rintro - hgone
    rw [if_pos hgone]
    rfl
  · rename_i hfuture
    exact settling_drain h hfuture
  · rename_i slot slots hfuture
    exact settling_failDrained h hfuture
  · rename_i hfuture
    exact h.modified id (Moved.setFuture (.refl _) (by simp [hfuture]) (.inl (by simp [hfuture, isSent]))
      (by simp [hfuture, isSweeping]) (by simp [hfuture]))
  · rename_i hfuture
    have hmodified : ∀ future, Settling bound
        ⟨w.common.modifyExchange id fun e => { e with slot := (w.common.exchanges id).slot.cancel.2, future }, w.driver⟩ k :=
      fun future => h.modified id (Moved.setFuture (.cancel _) (by simp [hfuture]) (.inl (by simp [hfuture, isSent]))
        (by simp [hfuture, isSweeping]) (by simp [hfuture]))
    dsimp only
    split
    · rename_i stream _
      simpa [Common.setFuture, Common.modifySlot, Common.modifyExchange] using hmodified (.dropReset stream)
    · simpa [Common.setFuture, Common.modifySlot, Common.modifyExchange] using hmodified .gone
  · rename_i stream hfuture
    have hreset : Settling bound ⟨w.common.modifyInner (·.reset stream Http2Handles.cancel), w.driver⟩ k :=
      h.moved (fun _ => Moved.refl _) rfl rfl (gone_reset _ _ _)
    exact hreset.modified id (Moved.setFuture (.refl _) (by simp [Common.modifyInner, hfuture])
      (.inl (by simp [Common.modifyInner, hfuture, isSent])) (by simp [Common.modifyInner, hfuture, isSweeping])
      (by simp [Common.modifyInner, hfuture]))
  all_goals exact h

theorem settling_pollFuture (h : Settling bound w k) (id : ℕ) : Settling bound (w.onCommon (·.pollFuture id)) k := by
  rw [World.onCommon, Common.pollFuture]
  split
  · rename_i linked hfuture
    have hmodified : ∀ body, Settling bound ⟨w.common.modifyExchange id fun e =>
        { e with slot := (w.common.exchanges id).slot.poll.2, future := .resolved linked, body }, w.driver⟩ k := by
      intro body
      refine h.modified id (f := fun e =>
        { e with slot := (w.common.exchanges id).slot.poll.2, future := .resolved linked, body }) ⟨.poll _, ?_, ?_, ?_, ?_⟩
      · simp [hfuture]
      · exact fun _ => .inl (by simp [hfuture, isSent])
      · simp [hfuture, isSweeping]
      · simp [hfuture]
    split
    · exact h
    · rename_i slot hpoll
      have hslot : (w.common.exchanges id).slot.poll.2 = slot := congrArg Prod.snd hpoll
      simpa [Common.setFuture, Common.modifySlot, Common.modifyExchange, hslot] using
        hmodified (w.common.exchanges id).body
    · rename_i slot hpoll
      have hslot : (w.common.exchanges id).slot.poll.2 = slot := congrArg Prod.snd hpoll
      simpa [Common.setFuture, Common.modifySlot, Common.modifyExchange, hslot] using
        hmodified (Common.handOver (w.common.exchanges id).body)
  · exact h

theorem settling_dropFuture (h : Settling bound w k) (id : ℕ) : Settling bound (w.onCommon (·.dropFuture id)) k := by
  rw [World.onCommon, Common.dropFuture]
  split
  · rename_i linked hfuture
    exact h.modified id (Moved.setFuture (.refl _) (by simp [hfuture]) (.inl (by simp [hfuture, isSent]))
      (by simp [hfuture, isSweeping]) (by simp [hfuture]))
  · rename_i linked hfuture
    exact h.modified id (Moved.setFuture (.refl _) (by simp [hfuture]) (.inl (by simp [hfuture, isSent]))
      (by simp [hfuture, isSweeping]) (by simp [hfuture]))
  · exact h

theorem settling_setBody (h : Settling bound w k) (id : ℕ) (body : IncomingBody) :
    Settling bound (w.onCommon (·.setBody id body)) k := h.of_steady ⟨rfl, rfl, rfl, Kept.setBody w.common id body, rfl, rfl, rfl, rfl, le_rfl⟩

theorem settling_modifyInner (h : Settling bound w k) {f : Inner → Inner} (hf : ∀ inner, (f inner).gone = inner.gone) :
    Settling bound (w.onCommon (·.modifyInner f)) k := h.of_steady ⟨rfl, rfl, hf _, fun _ => Kept.refl _, rfl, rfl, rfl, rfl, le_rfl⟩

theorem settling_pollBody (h : Settling bound w k) (id : ℕ) : Settling bound (w.onCommon (·.pollBody id)) k := by
  rw [World.onCommon, Common.pollBody]
  split
  · split
    · exact settling_setBody (h.of_steady (steady_modifyIncoming id _)) id _
    · exact h
  · exact h

theorem settling_stepBody (h : Settling bound w k) (id : ℕ) : Settling bound (w.onCommon (·.stepBody id)) k := by
  rw [World.onCommon, Common.stepBody]
  split
  · exact h
  rename_i body _
  split
  · exact h
  · exact h
  · exact h
  · exact settling_setBody (settling_modifyInner h fun inner => gone_credit inner _ _) id _
  · exact settling_setBody h id _
  · exact settling_setBody (h.of_steady (steady_modifyIncoming id _)) id _
  · exact settling_setBody (settling_modifyInner h fun inner => gone_credit inner _ _) id _
  · exact settling_setBody (settling_modifyInner h fun inner => gone_reset inner _ _) id _

theorem settling_dropBody (h : Settling bound w k) (id : ℕ) : Settling bound (w.onCommon (·.dropBody id)) k := by
  rw [World.onCommon, Common.dropBody]
  split
  · split
    · exact settling_setBody h id _
    · exact h
  · exact h

theorem settling_handle (h : Settling bound w k) (action : Common.Action) :
    Settling bound (w.onCommon (·.act action)) k := by
  cases action with
  | sendRequest request => exact settling_sendRequest h request
  | stepFuture id => exact settling_stepFuture h id
  | pollFuture id => exact settling_pollFuture h id
  | dropFuture id => exact settling_dropFuture h id
  | pollBody id => exact settling_pollBody h id
  | stepBody id => exact settling_stepBody h id
  | dropBody id => exact settling_dropBody h id
  | drain => exact h.of_steady ⟨rfl, rfl, rfl, fun _ => Kept.refl _, rfl, rfl, rfl, rfl, le_rfl⟩
  | cloneHandle | dropHandle | shutdown =>
    rw [World.onCommon, Common.act]
    split
    · exact h.of_steady ⟨rfl, rfl, rfl, fun _ => Kept.refl _, rfl, rfl, rfl, rfl, le_rfl⟩
    · exact h.of_steady ⟨rfl, rfl, rfl, fun _ => Kept.refl _, rfl, rfl, rfl, rfl, le_rfl⟩

theorem settling_act (h : Settling bound w k) (action : WorldAction) : Settling bound (World.act action w) k := by
  cases action with
  | handle action => exact settling_handle h action
  | freeSlot id =>
    rw [World.act, World.freeSlot]
    split
    · split
      · exact settling_setBody h id _
      · exact h
    · exact h
  | markReady stream =>
    rw [World.act, World.markReady]
    split
    · refine settling_modifyInner h fun inner => ?_
      rw [Inner.markReady]
      split
      · rfl
      · rfl
    · exact h
  | wakeHandler stream =>
    rw [World.act, World.wakeHandler]
    split
    · exact h.of_steady ⟨rfl, rfl, rfl, fun _ => Kept.refl _, rfl, rfl, rfl, rfl, le_rfl⟩
    · exact h
  | post buffer =>
    rw [World.act, World.post]
    split
    · exact h.of_steady ⟨rfl, rfl, rfl, fun _ => Kept.refl _, rfl, rfl, rfl, rfl, le_rfl⟩
    · exact h
  | endReading | failReading =>
    rw [World.act, World.endReading]
    split
    · exact h.of_steady ⟨rfl, rfl, rfl, fun _ => Kept.refl _, rfl, rfl, rfl, rfl, le_rfl⟩
    · exact h

end Handles

/-! ## Runs -/

section Runs
variable {fuel : ℕ} {session : δ} {io : τ} {handlers : η} {choices : List (Choice WorldAction)}

theorem settling_newWorld (role : Role) : Settling bound (newWorld role session io handlers) {} where
  unmade _ _ := rfl
  once _ := rfl
  owed _ := nofun
  hand := rfl
  leaving := rfl
  gone := nofun
  cleared := nofun
  swept := nofun
  below stream entry hentry := by
    simp [newWorld, DriverState.entry] at hentry
  assigned := nofun

variable [Session δ] [Transport τ] [Handlers η] [Http]

variable (fuel session io handlers choices) in
theorem settling_reached (hassigns : Assigns bound) (role : Role) :
    Adheres desk (Settling bound) Desk.Working (Desk.Finished role) (fun _ _ => True)
      ((connection role fuel).reached (newWorld role session io handlers) choices) := by
  have hcareful : (connection role fuel).Careful (newWorld role session io handlers) (fun _ _ => True) (fun _ _ => True)
      choices := careful_of_forall (fun _ _ => True.intro) fun _ _ => True.intro
  refine adheres_reached (discipline role fuel) ?_ ?_ (settling_newWorld role) ⟨⟨rfl, rfl, rfl⟩, rfl, rfl, rfl, rfl⟩ hcareful
  · exact fun op w k h _ hallows => ⟨True.intro, settling_applyOp hassigns h hallows⟩
  · exact fun action w k h _ => settling_act h action

theorem unmade_reached (hassigns : Assigns bound) (role : Role) {id : ℕ} (h : ((connection role fuel).reached
      (newWorld role session io handlers) choices).state.common.created ≤ id) :
    (((connection role fuel).reached (newWorld role session io handlers) choices).state.common.exchanges id).future =
      .absent := by
  obtain ⟨k, hsettling, -⟩ := settling_reached fuel session io handlers choices hassigns role
  exact hsettling.unmade id h

/-- Every request is settled or abandoned, no slot was settled twice, and no command is left in the queue. -/
structure AllSettled (c : Common) : Prop where
  settled : ∀ id, (c.exchanges id).future ≠ .absent → (c.exchanges id).slot.abandoned = false →
    (c.exchanges id).slot.settled = true
  once : ∀ id, (c.exchanges id).slot.record.length ≤ 1
  queue : c.queue = []

/-- Once the guard has finished dropping and no call of `send_request` is under way, every request is settled. -/
theorem settledRequests_of_over (hassigns : Assigns bound)
    (hover : ((connection .client fuel).reached (newWorld .client session io handlers) choices).stage.isOver = true)
    (hcalls : ∀ id, (((connection .client fuel).reached (newWorld .client session io handlers) choices).state.common.exchanges
      id).future.isCalling = false) :
    AllSettled ((connection .client fuel).reached (newWorld .client session io handlers) choices).state.common := by
  have hadheres := settling_reached fuel session io handlers choices hassigns .client
  generalize (connection .client fuel).reached (newWorld .client session io handlers) choices = reached at *
  obtain ⟨stage, w⟩ := reached
  obtain ⟨k, h, hstage⟩ := hadheres
  cases stage with
  | running p => cases hover
  | cleaning outcome p => cases hover
  | «over» outcome =>
    obtain ⟨⟨hhand, hsubmitting, hleaving⟩, hcleared, hswept⟩ := hstage
    change Settling bound w k at h
    have hhands : w.driver.hand = [] := List.eq_nil_of_length_eq_zero (h.hand.trans hhand)
    have hleft : w.driver.leaving = [] := List.eq_nil_of_length_eq_zero (h.leaving.trans hleaving)
    have hqueue : w.common.queue = [] := by
      obtain hempty | ⟨id, hid⟩ := (h.swept (hswept rfl)).2
      · exact hempty
      · have hcall := hcalls id
        cases hphase : (w.common.exchanges id).future with
        | checkingAgain | draining => simp [hphase, FuturePhase.isCalling] at hcall
        | _ => simp [hphase, isSweeping] at hid
    have hsent : ∀ id, (w.common.exchanges id).future ≠ .absent → isSent (w.common.exchanges id).future = true := by
      intro id habsent
      have hcall := hcalls id
      cases hphase : (w.common.exchanges id).future with
      | absent => exact (habsent hphase).elim
      | checkingGone | checkingRefusing | failing | pushing => simp [hphase, FuturePhase.isCalling] at hcall
      | _ => rfl
    refine ⟨fun id habsent habandoned => ?_, fun id => ?_, hqueue⟩
    · obtain (hsettled | hgiven) | howed := h.owed id (hsent id habsent)
      · exact hsettled
      · exact nomatch habandoned.symm.trans hgiven
      cases howed with
      | queued hcommand => simp [hqueue] at hcommand
      | inHand hcommand => simp [hhands] at hcommand
      | submitting _ hk => simp [hsubmitting] at hk
      | registered hentry => exact nomatch (h.cleared hcleared _).symm.trans hentry
      | leaving hentry => simp [untold, hleft] at hentry
      | @drained other slots hfuture =>
        have hcall := hcalls other
        rw [hfuture] at hcall
        cases hcall
    · have honce := h.once id
      rw [Once] at honce
      dsimp only
      split at honce
      · exact honce.le
      · omega

end Runs

/-! ## A run -/

section Scripted
open Http2ScriptedSession

theorem assigns_script : Assigns (δ := Script) (·.next) where
  fresh headers body d stream h := by
    cases h
    exact ⟨le_rfl, Nat.lt_add_of_pos_right Nat.two_pos⟩
  grows call d := by
    cases call with
    | submitRequest => exact Nat.le_add_right _ 2
    | recv =>
      simp only [Session.call, Script.answer]
      split
      · exact le_rfl
      · exact le_rfl
    | send =>
      simp only [Session.call, Script.answer]
      split
      · exact le_rfl
      · exact le_rfl
    | _ => exact le_rfl

attribute [local instance] accepting

/-- One request is in flight and one in the queue when the driver is dropped, and a third is pushed behind its guard. -/
def droppedDriver : List (Choice WorldAction) :=
  sending 0 4 ++ List.replicate 23 .own ++ sending 1 4 ++ sending 2 2 ++ [.abandon] ++ List.replicate 12 .own ++
    List.replicate 5 (.other (.handle (.stepFuture 2)))

theorem settledRequests_of_over_droppedDriver :
    AllSettled ((scripted .client).reached (startOf .client {}) droppedDriver).state.common := by
  refine settledRequests_of_over assigns_script (by decide +kernel) fun id => ?_
  have hcreated : ((scripted .client).reached (startOf .client {}) droppedDriver).state.common.created = 3 := by
    decide +kernel
  by_cases hid : id < 3
  · exact (by decide +kernel : ∀ id < 3, (((scripted .client).reached (startOf .client {})
      droppedDriver).state.common.exchanges id).future.isCalling = false) id hid
  · exact congrArg FuturePhase.isCalling (unmade_reached assigns_script .client (hcreated.trans_le (by omega)))

end Scripted

end Ngnet.Http2Settlement
