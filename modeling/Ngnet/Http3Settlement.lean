import Ngnet.Http3Placement

/-!
# Requests of an HTTP/3 client are settled

The slot of a request whose `send_request` has returned is settled, or whoever is to settle it still
has it: it is queued, in hand, registered, or its entry was just removed. A driver that is gone has
none of these, so it leaves every slot settled, once.

This rests on nothing being pushed to a queue that was swept. `send_request` looks at `gone` and
pushes in two steps, and a driver may go away between them: such a request is never settled.
-/

namespace Ngnet.Http3Settlement
open QmuxVarints QmuxStreams Http3Heads Http3Handles Http3Conn Http3Driver Http3Passes InterleavedPrograms
open Http3DriverSteps Http3HandleSteps Http3Discipline Http3Tracking Http3Placement
open QmuxHttp3Join (QuicEvent)

variable {β ν η α : Type}

/-! ## Slots -/

/-- An outcome is recorded once the slot is settled, and not before. -/
def Once (slot : Slot) : Prop := slot.record.length = if slot.settled then 1 else 0

theorem once_settle {slot : Slot} (h : Once slot) (outcome : Except Error ResponseParts) :
    Once (slot.settle outcome) ∧ (slot.settle outcome).settled = true := by
  rw [Slot.settle]
  split
  · rename_i hsettled
    exact ⟨h, hsettled⟩
  · rename_i hsettled
    simp_all [Once]

/-- `send_request` has pushed the command, or refused the request. -/
def isSent : FuturePhase → Bool
  | .absent | .checkingGone | .checkingRefusing | .failing _ | .pushing => false
  | _ => true

/-- Someone has the slot and is to settle it. -/
def Owed (w : World β ν η) (id : ℕ) : Prop :=
  (∃ command ∈ w.common.queue, command.exchange = id) ∨
    (∃ hand, w.driver.hand = some hand ∧ hand.command.exchange = id) ∨
    (∃ (key : ℕ) (entry : Entry), w.driver.registry[key]? = some entry ∧ entry.slot = some id) ∨
    id ∈ w.driver.leavingSlots

structure Settling (w : World β ν η) : Prop where
  once : ∀ id, Once (w.common.exchanges id).slot
  owed : ∀ id, isSent (w.common.exchanges id).future = true →
    (w.common.exchanges id).slot.settled = true ∨ Owed w id
  swept : w.common.queueAbandoned = true → w.common.queue = []

/-! ## Handles -/

variable {id : ℕ} {e e' : Exchange} {action : Common.Action}

theorem once_step {given : Option (StreamId × ℕ)}
    (h : ExchangeStep id e action e' given) (honce : Once e.slot) :
    Once e'.slot ∧ (e.slot.settled = true → e'.slot.settled = true) := by
  cases h with
  | refused => exact ⟨(once_settle honce _).1, fun _ => (once_settle honce _).2⟩
  | dropFailed => exact ⟨(once_settle honce _).1, fun _ => (once_settle honce _).2⟩
  | _ => exact ⟨honce, fun h => h⟩

theorem sent_step {given : Option (StreamId × ℕ)}
    (h : ExchangeStep id e action e' given) (honce : Once e.slot) (hsent : isSent e'.future = true) :
    isSent e.future = true ∨ e'.slot.settled = true := by
  cases h with
  | moved hmove =>
    left
    generalize e.future = phase at hmove
    cases hmove with
    | notGone | isGone | notRefusing | isRefusing => cases hsent
    | _ => rfl
  | refused => exact .inr (once_settle honce _).2
  | dropFailed h | handedOver h | waits h | answered h | failed h | dropped h | droppedLate h =>
    left
    rw [h]
    rfl
  | _ => exact .inl hsent

/-- A request is not pushed to a queue that was swept. -/
def pushesInTime (action : Common.Action) (w : World β ν η) : Bool :=
  match action with
  | .stepFuture id => !(w.common.queueAbandoned && decide ((w.common.exchanges id).future = .pushing))
  | _ => true

variable {w : World β ν η}

theorem Owed.of_queue {c : Common} (h : Owed w id)
    (hqueue : ∀ command ∈ w.common.queue, command ∈ c.queue) : Owed { w with common := c } id := by
  obtain ⟨command, hcommand, hid⟩ | h := h
  · exact .inl ⟨command, hqueue command hcommand, hid⟩
  · exact .inr h

theorem settling_act (h : Settling w)
    (hfair : pushesInTime action w = true) : Settling (w.onCommon (·.act action)) := by
  have hacts := acts_act w.common action
  rw [World.onCommon]
  generalize w.common.act action = c' at hacts ⊢
  cases hacts with
  | idle hframe hexchanges =>
    refine ⟨fun id => hexchanges ▸ h.once id, fun id hsent => ?_, fun habandoned => ?_⟩
    · rw [hexchanges] at hsent ⊢
      exact (h.owed id hsent).imp_right fun howed => howed.of_queue (hframe.queue ▸ fun _ h => h)
    · exact hframe.queue ▸ h.swept (hframe.queueAbandoned ▸ habandoned)
  | @sent request =>
    refine ⟨fun id => ?_, fun id hsent => ?_, h.swept⟩
    · by_cases hid : id = w.common.created
      · simp [hid, Once]
      · simpa [hid] using h.once id
    · by_cases hid : id = w.common.created
      · simp [hid, isSent] at hsent
      · simp only [Function.update_of_ne hid] at hsent ⊢
        exact (h.owed id hsent).imp_right fun howed => howed.of_queue fun _ h => h
  | @pushed id request hfuture hrequest hunlocked =>
    have hqueue : ∀ command ∈ w.common.queue,
        command ∈ ((w.common.pushCommand ⟨request, id⟩).setFuture id .waking).queue :=
      fun command hcommand => List.mem_append_left _ hcommand
    refine ⟨fun j => ?_, fun j hsent => ?_, fun habandoned => ?_⟩
    · by_cases hj : j = id
      · simpa [hj, Common.setFuture, Common.modifyExchange, Common.pushCommand] using h.once id
      · simpa [hj, Common.setFuture, Common.modifyExchange, Common.pushCommand] using h.once j
    · by_cases hj : j = id
      · exact .inr (.inl ⟨⟨request, id⟩, List.mem_append_right _ (List.mem_singleton_self _), hj.symm⟩)
      · simp only [Common.setFuture, exchanges_modify_of_ne _ _ hj] at hsent ⊢
        exact (h.owed j hsent).imp_right fun howed => howed.of_queue hqueue
    · have habandoned : w.common.queueAbandoned = true := habandoned
      simp [pushesInTime, habandoned, hfuture] at hfair
  | @moved _ id e' given _ hstep hframe hexchanges =>
    have honce := once_step hstep (h.once id)
    refine ⟨fun j => ?_, fun j hsent => ?_, fun habandoned => ?_⟩
    · rw [hexchanges]
      by_cases hj : j = id
      · simpa [hj] using honce.1
      · simpa [hj] using h.once j
    · rw [hexchanges] at hsent ⊢
      by_cases hj : j = id
      · subst hj
        rw [Function.update_self] at hsent ⊢
        obtain hbefore | hsettled := sent_step hstep (h.once j) hsent
        · obtain hsettled | howed := h.owed j hbefore
          · exact .inl (honce.2 hsettled)
          · exact .inr (howed.of_queue (hframe.queue ▸ fun _ h => h))
        · exact .inl hsettled
      · rw [Function.update_of_ne hj] at hsent ⊢
        exact (h.owed j hsent).imp_right fun howed => howed.of_queue (hframe.queue ▸ fun _ h => h)
    · exact hframe.queue ▸ h.swept (hframe.queueAbandoned ▸ habandoned)

/-! ## The driver -/

/-- What the driver does to a slot. -/
inductive SlotStep (slot : Slot) : Slot → Prop
  | same : SlotStep slot slot
  | settled (outcome : Except Error ResponseParts) : SlotStep slot (slot.settle outcome)
  | bound (stream : StreamId) : SlotStep slot (slot.bind stream)

/-- What the driver does to an exchange: the future is not its own. -/
def Kept (e e' : Exchange) : Prop := e'.future = e.future ∧ SlotStep e.slot e'.slot

theorem SlotStep.once {slot slot' : Slot} (h : SlotStep slot slot') (honce : Once slot) :
    Once slot' ∧ (slot.settled = true → slot'.settled = true) := by
  cases h with
  | same => exact ⟨honce, fun h => h⟩
  | settled outcome => exact ⟨(once_settle honce outcome).1, fun _ => (once_settle honce outcome).2⟩
  | bound stream => exact ⟨honce, fun h => h⟩

theorem kept_refl (e : Exchange) : Kept e e := ⟨rfl, .same⟩

theorem kept_modifySlot (c : Common) (id : ℕ) {f : Slot → Slot} (hf : ∀ slot, SlotStep slot (f slot)) (j : ℕ) :
    Kept (c.exchanges j) ((c.modifySlot id f).exchanges j) := by
  rw [Common.modifySlot]
  by_cases hj : j = id
  · rw [hj, exchanges_modify_self]
    exact ⟨rfl, hf _⟩
  · rw [exchanges_modify_of_ne _ _ hj]
    exact kept_refl _

theorem kept_modifyIncoming (c : Common) (id : ℕ) (f : Incoming → Incoming) (j : ℕ) :
    Kept (c.exchanges j) ((c.modifyIncoming id f).exchanges j) := by
  rw [Common.modifyIncoming]
  by_cases hj : j = id
  · rw [hj, exchanges_modify_self]
    exact ⟨rfl, .same⟩
  · rw [exchanges_modify_of_ne _ _ hj]
    exact kept_refl _

theorem Settling.step {w' : World β ν η} (h : Settling w)
    (hkept : ∀ id, Kept (w.common.exchanges id) (w'.common.exchanges id))
    (howed : ∀ id, Owed w id → (w'.common.exchanges id).slot.settled = true ∨ Owed w' id)
    (hswept : w'.common.queueAbandoned = true → w'.common.queue = []) : Settling w' where
  once id := ((hkept id).2.once (h.once id)).1
  owed id hsent := by
    rw [(hkept id).1] at hsent
    obtain hsettled | hbefore := h.owed id hsent
    · exact .inl (((hkept id).2.once (h.once id)).2 hsettled)
    · exact howed id hbefore
  swept := hswept

theorem kept_of_alike (h : Alike e e') : Kept e e' := by
  obtain ⟨cancelled, rfl⟩ := h
  exact kept_refl e

theorem settled_modifySlot (c : Common) (id : ℕ) {f : Slot → Slot} (hf : ∀ slot, (f slot).settled = true) :
    ((c.modifySlot id f).exchanges id).slot.settled = true := by
  rw [Common.modifySlot, exchanges_modify_self]
  exact hf _

section Steps
variable {w : World β ν η}

theorem settled_fail {slot : Slot} (error : Error) : (slot.fail error).settled = true := by
  rw [Slot.fail, Slot.settle]
  split
  · assumption
  · rfl

theorem slotStep_fail (error : Error) (slot : Slot) : SlotStep slot (slot.fail error) := .settled _

theorem Settling.of_same (h : Settling w) {w' : World β ν η} (hexchanges : w'.common.exchanges = w.common.exchanges)
    (hqueue : w'.common.queue = w.common.queue) (habandoned : w'.common.queueAbandoned = w.common.queueAbandoned)
    (hhand : w'.driver.hand = w.driver.hand) (hregistry : w'.driver.registry = w.driver.registry)
    (hleaving : w'.driver.leavingSlots = w.driver.leavingSlots) : Settling w' := by
  refine h.step (fun id => hexchanges ▸ kept_refl _) (fun id howed => .inr ?_) (hqueue ▸ habandoned ▸ h.swept)
  rwa [Owed, hqueue, hhand, hregistry, hleaving]

theorem settling_onIncoming (h : Settling w) (stream : StreamId) (f : Incoming → Incoming) :
    Settling (w.onIncoming stream f) := by
  rw [World.onIncoming]
  split
  · exact h.step (fun id => kept_modifyIncoming _ _ _ id) (fun id howed => .inr howed) h.swept
  · exact h

theorem settling_erase (h : Settling w) {stream : StreamId} {entry : Entry} {c : Common} {bodies slots : List ℕ}
    (hentry : w.driver.entry stream = some entry) (hkept : ∀ id, Kept (w.common.exchanges id) (c.exchanges id))
    (hqueue : c.queue = w.common.queue) (habandoned : c.queueAbandoned = w.common.queueAbandoned)
    (hheld : ∀ id ∈ w.driver.leavingSlots, id ∈ slots)
    (hslot : ∀ id, entry.slot = some id → (c.exchanges id).slot.settled = true ∨ id ∈ slots) :
    Settling ⟨c, { w.driver.eraseEntry stream with leavingSlots := slots, leavingBodies := bodies }⟩ := by
  refine h.step hkept (fun id howed => ?_) (by rw [hqueue, habandoned]; exact h.swept)
  obtain hcommand | hhand | ⟨key, other, hother, hid⟩ | hleaving := howed
  · exact .inr (.inl (hqueue ▸ hcommand))
  · exact .inr (.inr (.inl hhand))
  · by_cases hkey : stream.val = key
    · have hsame : entry = other := by
        rw [DriverState.entry, hkey, hother] at hentry
        exact (Option.some.inj hentry).symm
      obtain hsettled | hmem := hslot id (hsame ▸ hid)
      · exact .inl hsettled
      · exact .inr (.inr (.inr (.inr hmem)))
    · refine .inr (.inr (.inr (.inl ⟨key, other, ?_, hid⟩)))
      rw [DriverState.eraseEntry, getElem?_erase, if_neg hkey]
      exact hother
  · exact .inr (.inr (.inr (.inr (hheld id hleaving))))

variable [QuicConnection β] [Nghttp3 ν] [Handlers η] {strict : Prop} {k : Desk}

theorem settling_applyOp (h : Settling w) {op : Op β ν α} (hplaced : Placed .client w.driver)
    (htracks : Tracks strict w k) (hallows : k.allows strict .client op) : Settling (applyOp w op).2 := by
  by_cases hidle : idle op = true
  · have hstill := still_applyOp w hidle
    refine h.step (fun id => kept_of_alike (hstill.exchanges id)) (fun id howed => .inr ?_)
      (hstill.queue ▸ hstill.queueAbandoned ▸ h.swept)
    rwa [Owed, hstill.queue, hstill.hand, hstill.registry, hstill.leavingSlots]
  cases op with
  | callback call =>
    cases call with
    | _ => exact h.of_same rfl rfl rfl rfl rfl rfl
  | takeDeferredCredit | keepError | takeError | drainWork | drainObserved | discardClosedSince | lockQueue |
      giveStream => exact h.of_same rfl rfl rfl rfl rfl rfl
  | returnCredit =>
    rw [applyOp]
    split
    · exact h
    · dsimp only [World.onDriver]
      split
      · exact h.of_same rfl rfl rfl rfl rfl rfl
      · exact h.of_same rfl rfl rfl rfl rfl rfl
  | passObservation =>
    rw [applyOp]
    dsimp only [World.onDriver]
    split
    · exact h
    · exact h
    · exact h.of_same rfl rfl rfl rfl rfl rfl
  | deliverData =>
    rw [applyOp]
    dsimp only
    split
    · rename_i stream bytes taken htaken
      have hpassed : Settling (w.onDriver fun d => { d with taken }) := h.of_same rfl rfl rfl rfl rfl rfl
      exact settling_onIncoming hpassed _ _
    · exact h
  | deliverEnd stream => exact settling_onIncoming h _ _
  | deliverTrailers stream fields => exact settling_onIncoming h _ _
  | completeSlot stream head =>
    rw [applyOp, World.onSlot]
    dsimp only
    split
    · exact h.step (fun id => kept_modifySlot _ _ (fun _ => .settled _) id) (fun id howed => .inr howed) h.swept
    · exact h
  | retireSlot stream error =>
    rw [applyOp]
    split
    · exact h
    · rename_i entry hentry
      cases hslot : entry.slot with
      | none =>
        refine settling_erase h hentry (fun id => kept_refl _) rfl rfl (fun _ hid => hid) fun id hid => ?_
        rw [hslot] at hid
        cases hid
      | some slot =>
        refine settling_erase h hentry (fun id => kept_modifySlot _ _ (slotStep_fail error) id) rfl rfl
          (fun _ hid => hid) fun id hid => ?_
        rw [hslot] at hid
        cases hid
        exact .inl (settled_modifySlot _ _ fun _ => settled_fail error)
  | retireBody error =>
    rw [applyOp]
    dsimp only
    split
    · exact h
    · rename_i body rest hleaving
      exact h.step (kept_modifyIncoming w.common body (·.fail error)) (fun id howed => .inr howed) h.swept
  | finishEntry stream =>
    rw [applyOp]
    split
    · exact h
    · rename_i entry hentry
      refine settling_erase h hentry (fun id => kept_modifyIncoming _ _ _ id) rfl rfl
        (fun _ hid => List.mem_append_left _ hid) fun id hid => ?_
      exact .inr (List.mem_append_right _ (by simp [hid]))
  | leavingSettled =>
    rw [applyOp]
    split
    · exact h
    rename_i slot rest hleaving
    split
    · rename_i hsettled
      refine h.step (fun id => kept_refl _) (fun id howed => ?_) h.swept
      obtain hcommand | hhand | hentry | hid := howed
      · exact .inr (.inl hcommand)
      · exact .inr (.inr (.inl hhand))
      · exact .inr (.inr (.inr (.inl hentry)))
      · rw [hleaving] at hid
        obtain rfl | hid := List.mem_cons.mp hid
        · exact .inl hsettled
        · exact .inr (.inr (.inr (.inr hid)))
    · exact h
  | failLeaving error =>
    rw [applyOp]
    dsimp only
    split
    · exact h
    rename_i slot rest hleaving
    refine h.step (fun id => kept_modifySlot _ _ (slotStep_fail error) id) (fun id howed => ?_) h.swept
    obtain hcommand | hhand | hentry | hid := howed
    · exact .inr (.inl hcommand)
    · exact .inr (.inr (.inl hhand))
    · exact .inr (.inr (.inr (.inl hentry)))
    · rw [hleaving] at hid
      obtain rfl | hid := List.mem_cons.mp hid
      · exact .inl (settled_modifySlot _ _ fun _ => settled_fail error)
      · exact .inr (.inr (.inr (.inr hid)))
  | takeAll =>
    refine h.step (fun id => kept_refl _) (fun id howed => ?_) h.swept
    obtain hcommand | hhand | ⟨key, entry, hentry, hid⟩ | hid := howed
    · exact .inr (.inl hcommand)
    · exact .inr (.inr (.inl hhand))
    · refine .inr (.inr (.inr (.inr (List.mem_append_right _ ?_))))
      rw [List.mem_filterMap]
      refine ⟨entry, ?_, hid⟩
      rw [List.mem_map]
      exact ⟨(key, entry), Std.TreeMap.mem_toList_iff_getElem?_eq_some.mpr hentry, rfl⟩
    · exact .inr (.inr (.inr (.inr (List.mem_append_left _ hid))))
  | pop =>
    have hempty : w.driver.hand = none := by
      have hhand := htracks.hand.trans hallows.1
      cases hsome : w.driver.hand with
      | none => rfl
      | some hand =>
        obtain ⟨command, stream, _ | _⟩ := hand
        · simp [handState, hsome] at hhand
        · simp [handState, hsome] at hhand
    rw [applyOp]
    split
    · rename_i stream spare command queue hspare hqueue
      refine h.step (fun id => kept_refl _) (fun id howed => ?_) fun habandoned => ?_
      · obtain ⟨other, hother, hid⟩ | ⟨hand, hhand, -⟩ | hentry | hid := howed
        · rw [hqueue] at hother
          obtain rfl | hother := List.mem_cons.mp hother
          · exact .inr (.inr (.inl ⟨_, rfl, hid⟩))
          · exact .inr (.inl ⟨other, hother, hid⟩)
        · rw [hempty] at hhand
          cases hhand
        · exact .inr (.inr (.inr (.inl hentry)))
        · exact .inr (.inr (.inr (.inr hid)))
      · have := h.swept habandoned
        rw [hqueue] at this
        cases this
    · exact h
  | admitRequest =>
    rw [applyOp]
    split
    · exact h
    rename_i hand hhand
    split
    · rename_i hsettled
      refine h.step (fun id => kept_refl _) (fun id howed => ?_) h.swept
      obtain hcommand | ⟨other, hother, hid⟩ | hentry | hid := howed
      · exact .inr (.inl hcommand)
      · rw [hhand] at hother
        cases hother
        exact .inl (hid ▸ hsettled)
      · exact .inr (.inr (.inr (.inl hentry)))
      · exact .inr (.inr (.inr (.inr hid)))
    · refine h.step (fun id => kept_refl _) (fun id howed => ?_) h.swept
      obtain hcommand | ⟨other, hother, hid⟩ | hentry | hid := howed
      · exact .inr (.inl hcommand)
      · rw [hhand] at hother
        cases hother
        exact .inr (.inr (.inl ⟨_, rfl, hid⟩))
      · exact .inr (.inr (.inr (.inl hentry)))
      · exact .inr (.inr (.inr (.inr hid)))
  | refuse error =>
    rw [applyOp]
    dsimp only
    split
    · exact h
    rename_i hand hhand
    refine h.step (kept_modifySlot w.common hand.command.exchange (slotStep_fail error)) (fun id howed => ?_) h.swept
    obtain hcommand | ⟨other, hother, hid⟩ | hentry | hid := howed
    · exact .inr (.inl hcommand)
    · rw [hhand] at hother
      cases hother
      exact .inl (hid ▸ settled_modifySlot _ _ fun _ => settled_fail error)
    · exact .inr (.inr (.inr (.inl hentry)))
    · exact .inr (.inr (.inr (.inr hid)))
  | enterHand ending =>
    obtain ⟨command, stream, hhand⟩ := hand_admitted (htracks.hand.trans hallows)
    have hfree : w.driver.registry[stream.val]? = none := (hplaced.hand _ hhand).2
    simp only [applyOp, World.enterHand, hhand]
    refine h.step (kept_modifySlot w.common command.exchange fun slot => .bound stream) (fun id howed => .inr ?_) h.swept
    obtain hcommand | ⟨other, hother, hid⟩ | ⟨key, entry, hentry, hid⟩ | hid := howed
    · exact .inl hcommand
    · rw [hhand] at hother
      cases hother
      exact .inr (.inr (.inl ⟨stream.val, _, by rw [getElem?_insert, if_pos rfl], congrArg some hid⟩))
    · refine .inr (.inr (.inl ⟨key, entry, ?_, hid⟩))
      rw [getElem?_insert]
      split
      · rename_i hkey
        rw [hkey, hentry] at hfree
        cases hfree
      · exact hentry
    · exact .inr (.inr (.inr hid))
  | abandonNext =>
    rw [applyOp]
    dsimp only
    split
    · exact h
    rename_i command queue hqueue
    have hkept := kept_modifySlot { w.common with queue } command.exchange (slotStep_fail neverSent)
    refine h.step hkept (fun id howed => ?_) fun habandoned => ?_
    · obtain ⟨other, hother, hid⟩ | hhand | hentry | hid := howed
      · rw [hqueue] at hother
        obtain rfl | hother := List.mem_cons.mp hother
        · exact .inl (hid ▸ settled_modifySlot _ _ fun _ => settled_fail _)
        · exact .inr (.inl ⟨other, hother, hid⟩)
      · exact .inr (.inr (.inl hhand))
      · exact .inr (.inr (.inr (.inl hentry)))
      · exact .inr (.inr (.inr (.inr hid)))
    · have := h.swept habandoned
      rw [hqueue] at this
      cases this
  | unlockQueue =>
    have hempty : w.common.queue = [] := by
      have hqueued := htracks.queued.trans hallows
      simp only [locked] at hqueued
      split at hqueued
      · simpa using hqueued
      · cases hqueued
    exact h.step (fun id => kept_refl _) (fun id howed => .inr howed) fun _ => hempty
  | openExchange stream head => cases hallows
  | _ => exact (hidle rfl).elim

end Steps

/-! ## Runs -/

section Runs
variable [QuicConnection β] [Nghttp3 ν] [Handlers η] [Http] {config : Http3Passes.Config} {fuel : ℕ} {backend : β}
  {raw : ν} {handlers : η} {choices : List (Choice Common.Action)}

omit [QuicConnection β] [Nghttp3 ν] [Handlers η] [Http] in
theorem settling_newWorld : Settling (newWorld .client backend raw handlers) where
  once _ := rfl
  owed _ := nofun
  swept := nofun

theorem settling_reached (h : (connection .client config fuel).Careful (newWorld .client backend raw handlers)
    (fun op w => fresh w op = true) (fun action w => pushesInTime action w = true) choices) :
    Settling ((connection .client config fuel).reached (newWorld .client backend raw handlers) choices).state := by
  have hplaced := careful_placed False (fun _ _ _ => False.elim) (fun _ _ hop => hop) h
  refine state_invariant settling_newWorld ?_ ?_ hplaced
  · intro α op w hsettling ⟨⟨_, k, htracks, hallows⟩, hplaced⟩
    exact settling_applyOp hsettling hplaced htracks hallows
  · intro action w hsettling hfair
    exact settling_act hsettling hfair.1

/-- Every request whose `send_request` has returned is settled, once, and no command that is not is
left in the queue. -/
def AllSettled (c : Common) : Prop :=
  (∀ id, isSent (c.exchanges id).future = true →
    (c.exchanges id).slot.settled = true ∧ (c.exchanges id).slot.record.length = 1) ∧
  ∀ command ∈ c.queue, (c.exchanges command.exchange).slot.settled = true

/-- If nothing is pushed to a queue that was swept, every request is settled once the guard of the driver
has finished dropping. -/
theorem allSettled_of_over (h : (connection .client config fuel).Careful (newWorld .client backend raw handlers)
      (fun op w => fresh w op = true) (fun action w => pushesInTime action w = true) choices)
    (hover : ((connection .client config fuel).reached (newWorld .client backend raw handlers) choices).stage.isOver =
      true) :
    AllSettled
      ((connection .client config fuel).reached (newWorld .client backend raw handlers) choices).state.common := by
  have hadheres := adheres False (fun _ _ _ => False.elim) h
  have hsettling := settling_reached h
  generalize (connection .client config fuel).reached (newWorld .client backend raw handlers) choices = reached at *
  obtain ⟨stage, w⟩ := reached
  obtain ⟨k, htracks, hstage⟩ := hadheres
  cases stage with
  | running p => cases hover
  | cleaning outcome p => cases hover
  | «over» outcome =>
    obtain ⟨⟨hhand, hslots, -, -⟩, hcleared, hswept⟩ := hstage
    have hqueue : w.common.queue = [] := hsettling.swept (htracks.swept (hswept rfl))
    refine ⟨fun id hsent => ?_, by simp [hqueue]⟩
    have hsettled : (w.common.exchanges id).slot.settled = true := by
      obtain hsettled | howed := hsettling.owed id hsent
      · exact hsettled
      obtain ⟨command, hcommand, -⟩ | ⟨hand, hsome, -⟩ | ⟨key, entry, hentry, -⟩ | hleaving := howed
      · rw [hqueue] at hcommand
        cases hcommand
      · have hheld := htracks.hand
        rw [hsome, hhand] at hheld
        obtain ⟨_, _, _ | _⟩ := hand
        · cases hheld
        · cases hheld
      · rw [htracks.cleared hcleared] at hentry
        simp at hentry
      · rw [List.eq_nil_of_length_eq_zero (htracks.slots.trans hslots)] at hleaving
        cases hleaving
    have honce := hsettling.once id
    rw [Once, hsettled] at honce
    exact ⟨hsettled, honce⟩

end Runs

/-! ## A connection that follows a script -/

/-- A backend that has these events to report, opens streams in order and accepts all that it is
given. -/
structure Script where
  events : List QuicEvent := []
  unis : ℕ := 0
  bis : ℕ := 0

theorem requestStream_le (n : ℕ) : 4 * (n % 2 ^ 32) ≤ maxVarint := by
  simp only [maxVarint]
  omega

theorem controlStream_le (n : ℕ) : 4 * (n % 2 ^ 32) + 2 ≤ maxVarint := by
  simp only [maxVarint]
  omega

/-- The `n`-th bidirectional stream of a client. -/
def requestStream (n : ℕ) : StreamId := ⟨4 * (n % 2 ^ 32), requestStream_le n⟩

def controlStream (n : ℕ) : StreamId := ⟨4 * (n % 2 ^ 32) + 2, controlStream_le n⟩

instance : QuicConnection Script where
  call
    | .pollEvent, s => match s.events with
      | [] => (.pending, s)
      | event :: events => (.ready (.ok event), { s with events })
    | .pollFlush, s => (.ready (.ok ()), s)
    | .pollOpenUni, s => (.ready (.ok (controlStream s.unis)), { s with unis := s.unis + 1 })
    | .pollOpenBi, s => (.ready (.ok (requestStream s.bis)), { s with bis := s.bis + 1 })
    | .instruct _, s => (.ok (), s)
  pollTransmit s := .returns (.ready (.ok ())) s

/-- A state machine that calls back as it is told to at each read. -/
structure Parser where
  reads : List (List Callback) := []

def callingBack (calls : List Callback) (rest : Native Parser α) : Native Parser α := calls.foldr .callback rest

instance : Nghttp3 Parser where
  call
    | .readStream _ _ _, p => callingBack (p.reads.headD []) (.returns (.ok 0) { reads := p.reads.tail })
    | .writevStream, p => .returns (.ok none) p
    | .closeStream stream closed, p => .callback (.streamClose stream closed) (.returns (.ok ()) p)
    | .addAckOffset _ _, p => .returns (.ok ()) p
  bindControlStream _ p := (none, p)
  bindQpackStreams _ _ p := (none, p)
  submitRequest _ _ _ p := (none, p)
  submitResponse _ _ _ p := (none, p)
  submitTrailers _ _ p := (none, p)
  addWriteOffset _ _ p := (none, p)
  blockStream _ p := p
  unblockStream _ p := (none, p)
  resumeStream _ p := (none, p)
  shutdownStreamRead _ p := (none, p)
  shutdownStreamWrite _ p := p
  shutdown p := (none, p)
  isFatal _ := false
  inferAppErrorCode _ := 0

/-- Handlers that never answer. -/
inductive Silent | silent

instance : Handlers Silent where
  start _ _ handlers := handlers
  poll _ handlers := (none, handlers)

/-- Every name and value is accepted, and a status is read as a number. -/
@[reducible] def accepting : Http where
  headerName name := some name
  headerValue _ := true
  statusCode value := some (value.foldl (fun n digit => 10 * n + (digit.toNat - 48)) 0)
  method _ := true
  authority _ := true
  pathAndQuery path := some path
  uri _ _ _ := true
  fits _ := true

attribute [local instance] accepting

def scriptedClient : System (Op Script Parser) Error Unit (World Script Parser Silent) Common.Action :=
  connection .client { eventsPerPass := 1 } 9

def startOf (events : List QuicEvent) (reads : List (List Callback)) : World Script Parser Silent :=
  newWorld .client { events } { reads } .silent

def getRequest : Request where
  parts := ⟨ascii "GET", ⟨none, some (ascii "a"), none⟩, []⟩
  body := ⟨fun _ => ([], .clean), true⟩

/-- A request that is pushed before the driver is dropped, and one whose handle finds it gone. -/
def droppedInTime : List (Choice Common.Action) :=
  [.other (.sendRequest getRequest)] ++ List.replicate 4 (.other (.stepFuture 0)) ++ [.abandon] ++ List.replicate 7 .own ++
    [.other (.sendRequest getRequest)] ++ List.replicate 2 (.other (.stepFuture 1))

theorem allSettled_of_over_droppedInTime :
    AllSettled (scriptedClient.reached (startOf [] []) droppedInTime).state.common :=
  allSettled_of_over (careful_of_carefulFrom (by decide +kernel)) (by decide +kernel)

/-- A request that is pushed between the look at `gone` and the end of the guard's sweep. -/
def pushedLate : List (Choice Common.Action) :=
  [.other (.sendRequest getRequest)] ++ List.replicate 2 (.other (.stepFuture 0)) ++ [.abandon] ++ List.replicate 7 .own ++
    List.replicate 2 (.other (.stepFuture 0))

theorem request_left_behind :
    (scriptedClient.reached (startOf [] []) pushedLate).stage.isOver = true ∧
      ¬ AllSettled (scriptedClient.reached (startOf [] []) pushedLate).state.common := by
  refine ⟨by decide +kernel, fun h => ?_⟩
  have hsent := h.1 0 (by decide +kernel)
  have hunsettled : ((scriptedClient.reached (startOf [] []) pushedLate).state.common.exchanges 0).slot.settled =
      false := by decide +kernel
  rw [hunsettled] at hsent
  cases hsent.1

end Ngnet.Http3Settlement
