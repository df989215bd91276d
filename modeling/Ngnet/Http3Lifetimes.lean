import Ngnet.Http3Placement

/-!
# The life of an exchange

An exchange of a client is made, queued, taken in hand, registered and removed, in this order and
each at most once; one of a server is registered as it is made. Until it is registered nothing has
been received for it, and from then on it belongs to one stream.
-/

namespace Ngnet.Http3Lifetimes
open QmuxVarints QmuxStreams Http3Heads Http3Handles Http3Conn Http3Driver Http3Passes InterleavedPrograms
open Http3DriverSteps Http3HandleSteps Http3Discipline Http3Tracking Http3Placement

variable {β ν η α : Type}

/-! ## Where an exchange is -/

/-- `send_request` has not pushed the command yet. -/
def isUnpushed : FuturePhase → Bool
  | .checkingGone | .checkingRefusing | .failing _ | .pushing => true
  | _ => false

def Queued (c : Common) (id : ℕ) : Prop := ∃ command ∈ c.queue, command.exchange = id

def InHand (d : DriverState β ν η) (id : ℕ) : Prop := ∃ hand, d.hand = some hand ∧ hand.command.exchange = id

theorem not_inHand {d : DriverState β ν η} (h : d.hand = none) (id : ℕ) : ¬InHand d id := by
  rintro ⟨hand, hhand, -⟩
  rw [h] at hhand
  cases hhand

def Registered (d : DriverState β ν η) (id : ℕ) : Prop :=
  ∃ (key : ℕ) (entry : Entry), d.registry[key]? = some entry ∧ entry.incoming = id

/-- The exchange was not registered yet. -/
def Early (w : World β ν η) (id : ℕ) : Prop :=
  w.common.created ≤ id ∨ isUnpushed (w.common.exchanges id).future = true ∨ Queued w.common id ∨ InHand w.driver id

/-- Nothing was received for it, and its request was not answered. -/
structure Blank (e : Exchange) : Prop where
  incoming : e.incoming = {}
  body : e.body = none
  stream : e.slot.stream = none
  unanswered : ∀ head, .ok head ∉ e.slot.record

/-- The stream that an exchange belongs to. -/
def streamOf (e : Exchange) : Option StreamId :=
  match e.body with
  | some body => some body.stream
  | none => e.slot.stream

/-- What a future and a body make of an outcome. -/
structure Consistent (e : Exchange) : Prop where
  outcome : ∀ outcome, e.slot.outcome = some outcome → outcome ∈ e.slot.record
  resolving : ∀ head, e.future = .resolving head → .ok head ∈ e.slot.record
  body : e.body.isSome = true → e.future = .absent ∨ e.future = .resolved ∨ e.future = .gone

structure Living (w : World β ν η) : Prop where
  blank : ∀ id, Early w id → Blank (w.common.exchanges id)
  unregistered : ∀ id, Early w id → ¬Registered w.driver id
  staying : ∀ id, Early w id → id ∉ w.driver.leavingBodies
  unpushed : ∀ id, w.common.created ≤ id ∨ isUnpushed (w.common.exchanges id).future = true →
    ¬Queued w.common id ∧ ¬InHand w.driver id
  beyond : ∀ id, w.common.created ≤ id → (w.common.exchanges id).future = .absent
  queue : (w.common.queue.map (·.exchange)).Nodup
  hand : ∀ id, InHand w.driver id → ¬Queued w.common id
  once : ∀ (key key' : ℕ) entry entry', w.driver.registry[key]? = some entry →
    w.driver.registry[key']? = some entry' → entry.incoming = entry'.incoming → key = key'
  slot : ∀ (key : ℕ) entry id, w.driver.registry[key]? = some entry → entry.slot = some id → entry.incoming = id
  home : ∀ (key : ℕ) entry, w.driver.registry[key]? = some entry →
    (streamOf (w.common.exchanges entry.incoming)).map (·.val) = some key
  consistent : ∀ id, Consistent (w.common.exchanges id)

/-! ## The driver -/

/-- What the driver does to an exchange without registering it. -/
structure Touched (e e' : Exchange) : Prop where
  future : e'.future = e.future
  body : e'.body = e.body
  stream : e'.slot.stream = e.slot.stream
  settled : e.slot.settled = true → e'.slot.settled = true
  record : ∀ outcome ∈ e.slot.record, outcome ∈ e'.slot.record
  outcome : ∀ outcome, e'.slot.outcome = some outcome → e.slot.outcome = some outcome ∨ outcome ∈ e'.slot.record

theorem Touched.refl (e : Exchange) : Touched e e := ⟨rfl, rfl, rfl, fun h => h, fun _ h => h, fun _ h => .inl h⟩

variable {e e' : Exchange}

theorem touched_of_alike (h : Alike e e') : Touched e e' := by
  obtain ⟨cancelled, rfl⟩ := h
  exact ⟨rfl, rfl, rfl, fun h => h, fun _ h => h, fun _ h => .inl h⟩

theorem touched_incoming (c : Common) (id : ℕ) (f : Incoming → Incoming) (j : ℕ) :
    Touched (c.exchanges j) ((c.modifyIncoming id f).exchanges j) := by
  rw [Common.modifyIncoming]
  by_cases hj : j = id
  · rw [hj, exchanges_modify_self]
    exact ⟨rfl, rfl, rfl, fun h => h, fun _ h => h, fun _ h => .inl h⟩
  · rw [exchanges_modify_of_ne _ _ hj]
    exact .refl _

theorem touched_settle (c : Common) (id : ℕ) (outcome : Except Error ResponseParts) (j : ℕ) :
    Touched (c.exchanges j) ((c.modifySlot id (·.settle outcome)).exchanges j) := by
  rw [Common.modifySlot]
  by_cases hj : j = id
  · rw [hj, exchanges_modify_self]
    dsimp only [Slot.settle]
    split
    · exact .refl _
    · refine ⟨rfl, rfl, rfl, fun _ => rfl, fun _ h => List.mem_append_left _ h, fun other hother => .inr ?_⟩
      cases hother
      exact List.mem_append_right _ (List.mem_singleton_self _)
  · rw [exchanges_modify_of_ne _ _ hj]
    exact .refl _

theorem Touched.consistent (h : Touched e e') (he : Consistent e) : Consistent e' where
  outcome outcome houtcome := by
    obtain hbefore | hmem := h.outcome outcome houtcome
    · exact h.record _ (he.outcome _ hbefore)
    · exact hmem
  resolving head hfuture := h.record _ (he.resolving head (h.future ▸ hfuture))
  body hbody := by
    rw [h.body] at hbody
    rw [h.future]
    exact he.body hbody

theorem Touched.streamOf_eq (h : Touched e e') : streamOf e' = streamOf e := by
  rw [streamOf, streamOf, h.body, h.stream]

theorem touched_onIncoming (w : World β ν η) (stream : StreamId) (f : Incoming → Incoming) (id : ℕ) :
    Touched (w.common.exchanges id) ((w.onIncoming stream f).common.exchanges id) := by
  rw [World.onIncoming]
  split
  · exact touched_incoming _ _ _ _
  · exact .refl _

theorem touched_applyOp [QuicConnection β] [Nghttp3 ν] [Handlers η] (w : World β ν η) {op : Op β ν α}
    (h : registers op = false) (id : ℕ) :
    Touched (w.common.exchanges id) ((applyOp w op).2.common.exchanges id) := by
  by_cases hidle : idle op = true
  · exact touched_of_alike ((still_applyOp w hidle).exchanges id)
  cases op with
  | callback call =>
    cases call with
    | _ => exact .refl _
  | takeDeferredCredit | keepError | takeError | drainWork | drainObserved | discardClosedSince | passObservation |
      takeAll | giveStream | lockQueue | unlockQueue => exact .refl _
  | returnCredit =>
    rw [applyOp]
    split
    · exact .refl _
    · exact .refl _
  | deliverData =>
    rw [applyOp]
    dsimp only
    split
    · rename_i stream bytes taken htaken
      exact touched_onIncoming (w.onDriver fun d => { d with taken }) stream (·.push bytes) id
    · exact .refl _
  | deliverEnd stream => exact touched_onIncoming w stream _ id
  | deliverTrailers stream fields => exact touched_onIncoming w stream _ id
  | completeSlot stream head =>
    rw [applyOp, World.onSlot]
    dsimp only
    split
    · rename_i slot hslot
      exact touched_settle w.common slot (.ok head) id
    · exact .refl _
  | retireSlot stream error =>
    rw [applyOp]
    split
    · exact .refl _
    · rename_i entry hentry
      cases hslot : entry.slot with
      | none => exact .refl _
      | some slot => exact touched_settle w.common slot (.error error) id
  | retireBody error =>
    rw [applyOp]
    dsimp only
    split
    · exact .refl _
    · rename_i body rest hleaving
      exact touched_incoming w.common body (·.fail error) id
  | finishEntry stream =>
    rw [applyOp]
    split
    · exact .refl _
    · rename_i entry hentry
      exact touched_incoming w.common entry.incoming (·.finish) id
  | leavingSettled =>
    rw [applyOp]
    split
    · exact .refl _
    split
    · exact .refl _
    · exact .refl _
  | failLeaving error =>
    rw [applyOp]
    dsimp only
    split
    · exact .refl _
    · rename_i slot rest hleaving
      exact touched_settle w.common slot (.error error) id
  | pop =>
    rw [applyOp]
    split
    · exact .refl _
    · exact .refl _
  | admitRequest =>
    rw [applyOp]
    split
    · exact .refl _
    split
    · exact .refl _
    · exact .refl _
  | refuse error =>
    rw [applyOp]
    dsimp only
    split
    · exact .refl _
    · rename_i hand hhand
      exact touched_settle w.common hand.command.exchange (.error error) id
  | abandonNext =>
    rw [applyOp]
    dsimp only
    split
    · exact .refl _
    · rename_i command queue hqueue
      exact touched_settle { w.common with queue } command.exchange (.error neverSent) id
  | enterHand | openExchange => cases h
  | _ => exact (hidle rfl).elim

section Steps
variable {w w' : World β ν η}

variable {id : ℕ}

theorem Early.of_step (hcreated : w'.common.created = w.common.created)
    (hqueue : w'.common.queue.Sublist w.common.queue) (hhand : ∀ id, InHand w'.driver id → InHand w.driver id)
    (htouched : ∀ id, Touched (w.common.exchanges id) (w'.common.exchanges id)) (h : Early w' id) :
    Early w id := by
  obtain hbeyond | hunpushed | ⟨command, hcommand, hid⟩ | hhand' := h
  · exact .inl (hcreated ▸ hbeyond)
  · rw [(htouched id).future] at hunpushed
    exact .inr (.inl hunpushed)
  · exact .inr (.inr (.inl ⟨command, hqueue.subset hcommand, hid⟩))
  · exact .inr (.inr (.inr (hhand id hhand')))

theorem Living.step (h : Living w) (hcreated : w'.common.created = w.common.created)
    (hqueue : w'.common.queue.Sublist w.common.queue) (hhand : ∀ id, InHand w'.driver id → InHand w.driver id)
    (hregistry : ∀ (key : ℕ) entry, w'.driver.registry[key]? = some entry → w.driver.registry[key]? = some entry)
    (hleaving : ∀ id ∈ w'.driver.leavingBodies, id ∈ w.driver.leavingBodies ∨ Registered w.driver id)
    (htouched : ∀ id, Touched (w.common.exchanges id) (w'.common.exchanges id))
    (hblank : ∀ id, Early w id → Blank (w'.common.exchanges id)) : Living w' := by
  have hearly : ∀ id, Early w' id → Early w id := fun id => Early.of_step hcreated hqueue hhand htouched
  have hqueued : ∀ id, Queued w'.common id → Queued w.common id := by
    rintro id ⟨command, hcommand, hid⟩
    exact ⟨command, hqueue.subset hcommand, hid⟩
  have hregistered : ∀ id, Registered w'.driver id → Registered w.driver id := by
    rintro id ⟨key, entry, hentry, hid⟩
    exact ⟨key, entry, hregistry key entry hentry, hid⟩
  constructor
  case blank => exact fun id hid => hblank id (hearly id hid)
  case unregistered => exact fun id hid hreg => h.unregistered id (hearly id hid) (hregistered id hreg)
  case staying =>
    intro id hid hmem
    obtain hmem | hreg := hleaving id hmem
    · exact h.staying id (hearly id hid) hmem
    · exact h.unregistered id (hearly id hid) hreg
  case unpushed =>
    intro id hid
    rw [hcreated, (htouched id).future] at hid
    obtain ⟨hnotQueued, hnotHand⟩ := h.unpushed id hid
    exact ⟨fun hq => hnotQueued (hqueued id hq), fun hh => hnotHand (hhand id hh)⟩
  case beyond =>
    intro id hid
    rw [(htouched id).future]
    exact h.beyond id (hcreated ▸ hid)
  case queue => exact h.queue.sublist (hqueue.map _)
  case hand => exact fun id hid hq => h.hand id (hhand id hid) (hqueued id hq)
  case once =>
    exact fun key key' entry entry' hentry hentry' =>
      h.once key key' entry entry' (hregistry _ _ hentry) (hregistry _ _ hentry')
  case slot => exact fun key entry id hentry => h.slot key entry id (hregistry _ _ hentry)
  case home =>
    intro key entry hentry
    rw [(htouched _).streamOf_eq]
    exact h.home key entry (hregistry _ _ hentry)
  case consistent => exact fun id => (htouched id).consistent (h.consistent id)

theorem Living.of_same (h : Living w) (hcreated : w'.common.created = w.common.created)
    (hqueue : w'.common.queue = w.common.queue) (hhand : w'.driver.hand = w.driver.hand)
    (hregistry : w'.driver.registry = w.driver.registry)
    (hleaving : w'.driver.leavingBodies = w.driver.leavingBodies)
    (hexchanges : ∀ id, Alike (w.common.exchanges id) (w'.common.exchanges id)) : Living w' := by
  refine h.step hcreated (hqueue ▸ List.Sublist.refl _) (fun id hid => ?_) (fun key entry hentry => hregistry ▸ hentry)
    (fun id hid => .inl (hleaving ▸ hid)) (fun id => touched_of_alike (hexchanges id)) fun id hid => ?_
  · rwa [InHand, hhand] at hid
  · obtain ⟨cancelled, hcancelled⟩ := hexchanges id
    have hblank := h.blank id hid
    rw [hcancelled]
    exact ⟨hblank.incoming, hblank.body, hblank.stream, hblank.unanswered⟩

theorem blank_fail {e : Exchange} (h : Blank e) (error : Error) : Blank { e with slot := e.slot.fail error } := by
  refine ⟨h.incoming, h.body, ?_, fun head hhead => ?_⟩
  · dsimp only [Slot.fail, Slot.settle]
    split
    · exact h.stream
    · exact h.stream
  · dsimp only [Slot.fail, Slot.settle] at hhead
    split at hhead
    · exact h.unanswered head hhead
    · obtain hmem | hlast := List.mem_append.mp hhead
      · exact h.unanswered head hmem
      · cases List.mem_singleton.mp hlast

variable {c : Common} {j : ℕ}

theorem blank_failed (h : Blank (c.exchanges j)) (id : ℕ) (error : Error) :
    Blank ((c.modifySlot id (·.fail error)).exchanges j) := by
  rw [Common.modifySlot]
  by_cases hj : j = id
  · rw [hj, exchanges_modify_self]
    exact blank_fail (hj ▸ h) error
  · rwa [exchanges_modify_of_ne _ _ hj]

theorem blank_incoming (h : Blank (c.exchanges j)) (f : Incoming → Incoming) (hne : j ≠ id) :
    Blank ((c.modifyIncoming id f).exchanges j) := by
  rwa [Common.modifyIncoming, exchanges_modify_of_ne _ _ hne]

theorem blank_slot (h : Blank (c.exchanges j)) (f : Slot → Slot) (hne : j ≠ id) :
    Blank ((c.modifySlot id f).exchanges j) := by
  rwa [Common.modifySlot, exchanges_modify_of_ne _ _ hne]

variable {stream : StreamId}

theorem Living.ne_of_registered (h : Living w) {entry : Entry}
    (hentry : w.driver.entry stream = some entry) (hid : Early w id) : id ≠ entry.incoming := by
  rintro rfl
  exact h.unregistered _ hid ⟨stream.val, entry, hentry, rfl⟩

theorem living_onIncoming (h : Living w) (stream : StreamId) (f : Incoming → Incoming) :
    Living (w.onIncoming stream f) := by
  rw [World.onIncoming]
  split
  · rename_i entry hentry
    refine h.step rfl (List.Sublist.refl _) (fun _ hid => hid) (fun _ _ hentry => hentry) (fun _ hid => .inl hid)
      (touched_incoming w.common entry.incoming f) fun id hid => ?_
    exact blank_incoming (h.blank id hid) f (h.ne_of_registered hentry hid)
  · exact h

theorem registry_of_erase {registry : Std.TreeMap ℕ Entry} {key other : ℕ} {entry : Entry}
    (h : (registry.erase key)[other]? = some entry) : registry[other]? = some entry := by
  rw [getElem?_erase] at h
  split at h
  · cases h
  · exact h

theorem living_pop (h : Living w) {command : Command} {queue : List Command}
    (hqueue : w.common.queue = command :: queue) : Living
      ⟨{ w.common with queue }, { w.driver with hand := some { command, stream } }⟩ := by
  have hqueued : ∀ id, Queued { w.common with queue } id → Queued w.common id := by
    rintro id ⟨other, hother, hid⟩
    exact ⟨other, hqueue ▸ List.mem_cons_of_mem _ hother, hid⟩
  have hcommand : Queued w.common command.exchange := ⟨command, hqueue ▸ List.mem_cons_self, rfl⟩
  have hearly : ∀ id, Early ⟨{ w.common with queue }, { w.driver with hand := some { command, stream } }⟩ id →
      Early w id := by
    rintro id (hbeyond | hunpushed | hid | ⟨hand, hhand, hid⟩)
    · exact .inl hbeyond
    · exact .inr (.inl hunpushed)
    · exact .inr (.inr (.inl (hqueued id hid)))
    · cases hhand
      exact .inr (.inr (.inl (hid ▸ hcommand)))
  have hnodup := h.queue
  rw [hqueue, List.map_cons, List.nodup_cons] at hnodup
  constructor
  case blank => exact fun id hid => h.blank id (hearly id hid)
  case unregistered => exact fun id hid => h.unregistered id (hearly id hid)
  case staying => exact fun id hid => h.staying id (hearly id hid)
  case unpushed =>
    intro id hid
    obtain ⟨hnotQueued, hnotHand⟩ := h.unpushed id hid
    refine ⟨fun hq => hnotQueued (hqueued id hq), ?_⟩
    rintro ⟨hand, hhand, hid⟩
    cases hhand
    exact hnotQueued (hid ▸ hcommand)
  case beyond => exact h.beyond
  case queue => exact hnodup.2
  case hand =>
    rintro id ⟨hand, hhand, hid⟩ ⟨other, hother, hother'⟩
    cases hhand
    exact hnodup.1 (List.mem_map.mpr ⟨other, hother, hother'.trans hid.symm⟩)
  case once => exact h.once
  case slot => exact h.slot
  case home => exact h.home
  case consistent => exact h.consistent

theorem Living.register (h : Living w) {slot : Option ℕ}
    (hregistry : w'.driver.registry = w.driver.registry.insert stream.val ⟨slot, id⟩)
    (hleaving : w'.driver.leavingBodies = w.driver.leavingBodies) (hqueue : w'.common.queue = w.common.queue)
    (hhand : ∀ j, InHand w'.driver j → InHand w.driver j) (hcreated : w.common.created ≤ w'.common.created)
    (hother : ∀ j, j ≠ id → w'.common.exchanges j = w.common.exchanges j)
    (hearly : Early w id) (hlate : ¬Early w' id) (hslot : ∀ other, slot = some other → id = other)
    (hhome : streamOf (w'.common.exchanges id) = some stream) (hconsistent : Consistent (w'.common.exchanges id)) :
    Living w' := by
  have hearlier : ∀ j, Early w' j → j ≠ id ∧ Early w j := by
    intro j hj
    have hne : j ≠ id := by
      rintro rfl
      exact hlate hj
    refine ⟨hne, ?_⟩
    obtain hbeyond | hunpushed | hqueued | hheld := hj
    · exact .inl (hcreated.trans hbeyond)
    · exact .inr (.inl (hother j hne ▸ hunpushed))
    · exact .inr (.inr (.inl (by rwa [Queued, hqueue] at hqueued)))
    · exact .inr (.inr (.inr (hhand j hheld)))
  have hlookup : ∀ (key : ℕ) entry, w'.driver.registry[key]? = some entry →
      key = stream.val ∧ entry = ⟨slot, id⟩ ∨ entry.incoming ≠ id ∧ w.driver.registry[key]? = some entry := by
    intro key entry hentry
    rw [hregistry, getElem?_insert] at hentry
    split at hentry
    · rename_i hkey
      exact .inl ⟨hkey.symm, (Option.some.inj hentry).symm⟩
    · refine .inr ⟨?_, hentry⟩
      rintro rfl
      exact h.unregistered _ hearly ⟨key, entry, hentry, rfl⟩
  constructor
  case blank =>
    intro j hj
    rw [hother j (hearlier j hj).1]
    exact h.blank j (hearlier j hj).2
  case unregistered =>
    rintro j hj ⟨key, entry, hentry, hid⟩
    obtain ⟨-, rfl⟩ | ⟨-, hbefore⟩ := hlookup key entry hentry
    · exact (hearlier j hj).1 hid.symm
    · exact h.unregistered j (hearlier j hj).2 ⟨key, entry, hbefore, hid⟩
  case staying =>
    intro j hj
    rw [hleaving]
    exact h.staying j (hearlier j hj).2
  case unpushed =>
    intro j hj
    have hj' : Early w' j := by
      obtain hbeyond | hunpushed := hj
      · exact .inl hbeyond
      · exact .inr (.inl hunpushed)
    rw [hother j (hearlier j hj').1] at hj
    obtain ⟨hnotQueued, hnotHand⟩ := h.unpushed j (hj.imp_left hcreated.trans)
    exact ⟨fun hq => hnotQueued (by rwa [Queued, hqueue] at hq), fun hh => hnotHand (hhand j hh)⟩
  case beyond =>
    intro j hj
    rw [hother j (hearlier j (.inl hj)).1]
    exact h.beyond j (hcreated.trans hj)
  case queue =>
    rw [hqueue]
    exact h.queue
  case hand =>
    intro j hj hq
    exact h.hand j (hhand j hj) (by rwa [Queued, hqueue] at hq)
  case once =>
    intro key key' entry entry' hentry hentry' hsame
    obtain ⟨rfl, rfl⟩ | ⟨hne, hbefore⟩ := hlookup key entry hentry
    · obtain ⟨rfl, -⟩ | ⟨hne', -⟩ := hlookup key' entry' hentry'
      · rfl
      · exact (hne' hsame.symm).elim
    · obtain ⟨-, rfl⟩ | ⟨-, hbefore'⟩ := hlookup key' entry' hentry'
      · exact (hne hsame).elim
      · exact h.once key key' entry entry' hbefore hbefore' hsame
  case slot =>
    intro key entry other hentry hother'
    obtain ⟨-, rfl⟩ | ⟨-, hbefore⟩ := hlookup key entry hentry
    · exact hslot other hother'
    · exact h.slot key entry other hbefore hother'
  case home =>
    intro key entry hentry
    obtain ⟨rfl, rfl⟩ | ⟨hne, hbefore⟩ := hlookup key entry hentry
    · rw [hhome]
      rfl
    · rw [hother _ hne]
      exact h.home key entry hbefore
  case consistent =>
    intro j
    by_cases hj : j = id
    · rw [hj]
      exact hconsistent
    · rw [hother j hj]
      exact h.consistent j

theorem living_enterHand (h : Living w) {command : Command} {admitted : Bool}
    (hhand : w.driver.hand = some ⟨command, stream, admitted⟩) (ending : Option ℕ) : Living (w.enterHand ending) := by
  have hheld : InHand w.driver command.exchange := ⟨_, hhand, rfl⟩
  have hearly : Early w command.exchange := .inr (.inr (.inr hheld))
  have hblank := h.blank _ hearly
  simp only [World.enterHand, hhand]
  refine h.register rfl rfl rfl (fun j hj => (not_inHand rfl j hj).elim) le_rfl
    (fun j hj => exchanges_modify_of_ne w.common (fun e => { e with slot := e.slot.bind stream }) hj) hearly ?_ (fun _ hid => Option.some.inj hid) ?_ ?_
  · rintro (hbeyond | hunpushed | hqueued | ⟨_, hnone, _⟩)
    · exact (h.unpushed _ (.inl hbeyond)).2 hheld
    · simp only [Common.modifySlot, exchanges_modify_self] at hunpushed
      exact (h.unpushed _ (.inr hunpushed)).2 hheld
    · exact h.hand _ hheld hqueued
    · cases hnone
  · simp only [Common.modifySlot, exchanges_modify_self]
    rw [streamOf, hblank.body]
    rfl
  · simp only [Common.modifySlot, exchanges_modify_self]
    have hconsistent := h.consistent command.exchange
    exact ⟨hconsistent.outcome, hconsistent.resolving, hconsistent.body⟩

theorem living_openExchange [Handlers η] (h : Living w) (stream : StreamId) (head : RequestParts) :
    Living (w.openExchange stream head) := by
  have hself : (w.openExchange stream head).common.exchanges w.common.created = { body := some ⟨stream, false, .held⟩ } := by
    simp [World.openExchange]
  refine h.register rfl rfl rfl (fun _ hj => hj) (Nat.le_succ _) (fun j hj => Function.update_of_ne hj _ _) (.inl le_rfl)
    ?_ nofun ?_ ?_
  · rintro (hbeyond | hunpushed | hqueued | hheld)
    · exact Nat.not_succ_le_self _ hbeyond
    · rw [hself] at hunpushed
      cases hunpushed
    · exact (h.unpushed _ (.inl le_rfl)).1 hqueued
    · exact (h.unpushed _ (.inl le_rfl)).2 hheld
  · rw [hself]
    rfl
  · rw [hself]
    exact ⟨nofun, nofun, fun _ => .inl rfl⟩

variable [QuicConnection β] [Nghttp3 ν] [Handlers η] {strict : Prop} {role : Role} {k : Desk}

theorem living_applyOp (h : Living w) {op : Op β ν α} (htracks : Tracks strict w k) (hallows : k.allows strict role op) : Living (applyOp w op).2 := by
  by_cases hidle : idle op = true
  · have hstill := still_applyOp w hidle
    exact h.of_same hstill.created hstill.queue hstill.hand hstill.registry hstill.leavingBodies hstill.exchanges
  cases op with
  | callback call =>
    cases call with
    | _ => exact h.of_same rfl rfl rfl rfl rfl fun _ => Alike.refl _
  | takeDeferredCredit | keepError | takeError | drainWork | drainObserved | discardClosedSince | lockQueue |
      unlockQueue | giveStream => exact h.of_same rfl rfl rfl rfl rfl fun _ => Alike.refl _
  | returnCredit =>
    rw [applyOp]
    split
    · exact h
    · dsimp only [World.onDriver]
      split
      · exact h.of_same rfl rfl rfl rfl rfl fun _ => Alike.refl _
      · exact h.of_same rfl rfl rfl rfl rfl fun _ => Alike.refl _
  | passObservation =>
    rw [applyOp]
    dsimp only [World.onDriver]
    split
    · exact h
    · exact h
    · exact h.of_same rfl rfl rfl rfl rfl fun _ => Alike.refl _
  | deliverData =>
    rw [applyOp]
    dsimp only
    split
    · rename_i stream bytes taken htaken
      have hpassed : Living (w.onDriver fun d => { d with taken }) :=
        h.of_same rfl rfl rfl rfl rfl fun _ => Alike.refl _
      exact living_onIncoming hpassed _ _
    · exact h
  | deliverEnd stream => exact living_onIncoming h _ _
  | deliverTrailers stream fields => exact living_onIncoming h _ _
  | completeSlot stream head =>
    rw [applyOp, World.onSlot]
    dsimp only
    split
    · rename_i slot hslot
      obtain ⟨entry, hentry, hid⟩ := Option.bind_eq_some_iff.mp hslot
      refine h.step rfl (List.Sublist.refl _) (fun _ hid => hid) (fun _ _ hentry => hentry) (fun _ hid => .inl hid)
        (touched_settle w.common slot (.ok head)) fun id hearly => ?_
      have hne : id ≠ slot := h.slot _ entry slot hentry hid ▸ h.ne_of_registered hentry hearly
      exact blank_slot (h.blank id hearly) (·.complete head) hne
    · exact h
  | retireSlot stream error =>
    rw [applyOp]
    split
    · exact h
    · rename_i entry hentry
      have hleaving : ∀ id ∈ w.driver.leavingBodies ++ [entry.incoming],
          id ∈ w.driver.leavingBodies ∨ Registered w.driver id := by
        intro id hid
        obtain hmem | hlast := List.mem_append.mp hid
        · exact .inl hmem
        · exact .inr ⟨stream.val, entry, hentry, (List.mem_singleton.mp hlast).symm⟩
      cases hslot : entry.slot with
      | none =>
        exact h.step rfl (List.Sublist.refl _) (fun _ hid => hid) (fun _ _ => registry_of_erase) hleaving
          (fun _ => .refl _) h.blank
      | some slot =>
        exact h.step rfl (List.Sublist.refl _) (fun _ hid => hid) (fun _ _ => registry_of_erase) hleaving
          (touched_settle w.common slot (.error error)) fun id hid => blank_failed (h.blank id hid) slot error
  | retireBody error =>
    rw [applyOp]
    dsimp only
    split
    · exact h
    · rename_i body rest hleaving
      refine h.step rfl (List.Sublist.refl _) (fun _ hid => hid) (fun _ _ hentry => hentry)
        (fun id hid => .inl (hleaving ▸ List.mem_cons_of_mem _ hid)) (touched_incoming w.common body (·.fail error))
        fun id hid => ?_
      refine blank_incoming (h.blank id hid) (·.fail error) ?_
      rintro rfl
      exact h.staying id hid (hleaving ▸ List.mem_cons_self)
  | finishEntry stream =>
    rw [applyOp]
    split
    · exact h
    · rename_i entry hentry
      exact h.step rfl (List.Sublist.refl _) (fun _ hid => hid) (fun _ _ => registry_of_erase) (fun _ hid => .inl hid)
        (touched_incoming w.common entry.incoming (·.finish)) fun id hid =>
          blank_incoming (h.blank id hid) (·.finish) (h.ne_of_registered hentry hid)
  | leavingSettled =>
    rw [applyOp]
    split
    · exact h
    split
    · exact h.of_same rfl rfl rfl rfl rfl fun _ => Alike.refl _
    · exact h
  | failLeaving error =>
    rw [applyOp]
    dsimp only
    split
    · exact h
    · rename_i slot rest hleaving
      exact h.step rfl (List.Sublist.refl _) (fun _ hid => hid) (fun _ _ hentry => hentry) (fun _ hid => .inl hid)
        (touched_settle w.common slot (.error error)) fun id hid => blank_failed (h.blank id hid) slot error
  | takeAll =>
    refine h.step rfl (List.Sublist.refl _) (fun _ hid => hid)
      (fun key entry hentry => by simp [applyOp, World.onDriver] at hentry) (fun id hid => ?_) (fun _ => .refl _) h.blank
    obtain hmem | hmem := List.mem_append.mp hid
    · exact .inl hmem
    · rw [List.map_map, List.mem_map] at hmem
      obtain ⟨⟨key, entry⟩, hentry, hid⟩ := hmem
      exact .inr ⟨key, entry, Std.TreeMap.mem_toList_iff_getElem?_eq_some.mp hentry, hid⟩
  | pop =>
    rw [applyOp]
    split
    · rename_i stream spare command queue hspare hqueue
      exact living_pop h hqueue
    · exact h
  | admitRequest =>
    rw [applyOp]
    split
    · exact h
    rename_i hand hhand
    split
    · exact h.step rfl (List.Sublist.refl _) (fun id hid => (not_inHand rfl id hid).elim) (fun _ _ hentry => hentry)
        (fun _ hid => .inl hid) (fun _ => .refl _) h.blank
    · refine h.step rfl (List.Sublist.refl _) ?_ (fun _ _ hentry => hentry)
        (fun _ hid => .inl hid) (fun _ => .refl _) h.blank
      rintro id ⟨other, hother, hid⟩
      cases hother
      exact ⟨hand, hhand, hid⟩
  | refuse error =>
    rw [applyOp]
    dsimp only
    split
    · exact h
    rename_i hand hhand
    exact h.step rfl (List.Sublist.refl _) (fun id hid => (not_inHand rfl id hid).elim) (fun _ _ hentry => hentry)
      (fun _ hid => .inl hid) (touched_settle w.common hand.command.exchange (.error error))
      fun id hid => blank_failed (h.blank id hid) _ error
  | enterHand ending =>
    obtain ⟨command, stream, hhand⟩ := hand_admitted (htracks.hand.trans hallows)
    exact living_enterHand h hhand ending
  | abandonNext =>
    rw [applyOp]
    dsimp only
    split
    · exact h
    rename_i command queue hqueue
    exact h.step rfl (hqueue ▸ List.sublist_cons_self _ _) (fun _ hid => hid) (fun _ _ hentry => hentry)
      (fun _ hid => .inl hid) (touched_settle { w.common with queue } command.exchange (.error neverSent))
      fun id hid => blank_failed (c := { w.common with queue }) (h.blank id hid) _ neverSent
  | openExchange stream head => exact living_openExchange h stream head
  | _ => exact (hidle rfl).elim

end Steps

/-! ## Handles -/

section Handles
variable {e e' : Exchange} {id : ℕ} {action : Common.Action} {given : Option (StreamId × ℕ)}

theorem unpushed_of_step (h : ExchangeStep id e action e' given) (hunpushed : isUnpushed e'.future = true) :
    isUnpushed e.future = true := by
  cases h with
  | moved hmove =>
    generalize e.future = phase at hmove
    cases hmove with
    | notGone | isGone | notRefusing | isRefusing => rfl
    | _ => cases hunpushed
  | polled | bodyMoved | credited | abandoned | dropCredited | bodyDropped | waits => 
    first
      | exact hunpushed
      | cases hunpushed
  | _ => cases hunpushed

theorem Consistent.no_body (h : Consistent e) (habsent : e.future ≠ .absent) (hresolved : e.future ≠ .resolved)
    (hgone : e.future ≠ .gone) : e.body = none := by
  by_contra hbody
  obtain hfuture | hfuture | hfuture := h.body (Option.isSome_iff_ne_none.mpr hbody)
  · exact habsent hfuture
  · exact hresolved hfuture
  · exact hgone hfuture

theorem no_body_of_move (h : Consistent e) {phase : FuturePhase} (hmove : FutureMove e.future phase) : e.body = none := by
  refine h.no_body ?_ ?_ ?_
  all_goals
    intro hfuture
    rw [hfuture] at hmove
    cases hmove

theorem no_step_of_absent (hfuture : e.future = .absent) (hbody : e.body = none) : ¬ExchangeStep id e action e' given := by
  intro h
  cases h with
  | moved hmove =>
    rw [hfuture] at hmove
    cases hmove
  | refused h | dropFailed h | handedOver h | waits h | answered h | failed h | dropped h | droppedLate h =>
    rw [hfuture] at h
    cases h
  | polled h | bodyMoved h | credited h | abandoned h | dropCredited h | bodyDropped h =>
    rw [hbody] at h
    cases h

theorem blank_of_step (h : ExchangeStep id e action e' given) (hconsistent : Consistent e) (hblank : Blank e) :
    Blank e' := by
  cases h with
  | moved | dropped | droppedLate => exact ⟨hblank.incoming, hblank.body, hblank.stream, hblank.unanswered⟩
  | refused => 
    have hfailed := blank_fail hblank
    exact ⟨hblank.incoming, hblank.body, (hfailed _).stream, (hfailed _).unanswered⟩
  | dropFailed =>
    have hfailed := blank_fail hblank
    exact ⟨hblank.incoming, hblank.body, (hfailed _).stream, (hfailed _).unanswered⟩
  | handedOver _ hstream =>
    rw [hblank.stream] at hstream
    cases hstream
  | waits => exact ⟨hblank.incoming, hblank.body, hblank.stream, hblank.unanswered⟩
  | answered _ houtcome => exact (hblank.unanswered _ (hconsistent.outcome _ houtcome)).elim
  | failed => exact ⟨hblank.incoming, hblank.body, hblank.stream, hblank.unanswered⟩
  | polled hbody | bodyMoved hbody | credited hbody | abandoned hbody | dropCredited hbody | bodyDropped hbody =>
    rw [hblank.body] at hbody
    cases hbody

theorem stream_fail (slot : Slot) (error : Error) : (slot.fail error).stream = slot.stream := by
  rw [Slot.fail, Slot.settle]
  split
  · rfl
  · rfl

theorem streamOf_of_step (h : ExchangeStep id e action e' given) (hconsistent : Consistent e) :
    streamOf e' = streamOf e := by
  cases h with
  | refused => simp only [streamOf, stream_fail]
  | dropFailed => simp only [streamOf, stream_fail]
  | handedOver hfuture hstream =>
    have hbody := hconsistent.no_body (by simp [hfuture]) (by simp [hfuture]) (by simp [hfuture])
    simp only [streamOf, hbody, hstream]
  | polled hbody | bodyMoved hbody | credited hbody | abandoned hbody | dropCredited hbody | bodyDropped hbody =>
    simp only [streamOf, hbody]
  | _ => rfl

theorem consistent_settle (h : Consistent e) (hbody : e.body = none) (outcome : Except Error ResponseParts)
    {future : FuturePhase} (hfuture : ∀ head, future ≠ .resolving head) :
    Consistent { e with slot := e.slot.settle outcome, future } := by
  refine ⟨fun other hother => ?_, fun head hhead => (hfuture head hhead).elim, fun hsome => ?_⟩
  · dsimp only [Slot.settle] at hother ⊢
    split at hother
    · rename_i hsettled
      rw [if_pos hsettled]
      exact h.outcome other hother
    · rename_i hsettled
      cases hother
      rw [if_neg hsettled]
      exact List.mem_append_right _ (List.mem_singleton_self _)
  · simp [hbody] at hsome

theorem consistent_of_step (h : ExchangeStep id e action e' given) (hconsistent : Consistent e) : Consistent e' := by
  have hnone : ∀ {phase : FuturePhase}, e.future = phase → phase ≠ .absent → phase ≠ .resolved → phase ≠ .gone →
      e.body = none := by
    rintro phase rfl
    exact hconsistent.no_body
  cases h with
  | moved hmove =>
    have hbody := no_body_of_move hconsistent hmove
    refine ⟨hconsistent.outcome, fun head hhead => ?_, fun hsome => ?_⟩
    · dsimp only at hhead
      rw [hhead] at hmove
      generalize e.future = before at hmove
      cases hmove
    · simp [hbody] at hsome
  | refused hfuture => exact consistent_settle hconsistent (hnone hfuture nofun nofun nofun) _ nofun
  | dropFailed hfuture => exact consistent_settle hconsistent (hnone hfuture nofun nofun nofun) _ nofun
  | handedOver => exact ⟨hconsistent.outcome, nofun, fun _ => .inr (.inl rfl)⟩
  | waits hfuture =>
    have hbody := hnone hfuture nofun nofun nofun
    exact ⟨nofun, nofun, fun hsome => by simp [hbody] at hsome⟩
  | answered hfuture houtcome =>
    have hbody := hnone hfuture nofun nofun nofun
    refine ⟨nofun, fun head hhead => ?_, fun hsome => by simp [hbody] at hsome⟩
    cases hhead
    exact hconsistent.outcome _ houtcome
  | failed => exact ⟨nofun, nofun, fun _ => .inr (.inl rfl)⟩
  | dropped hfuture =>
    have hbody := hnone hfuture nofun nofun nofun
    exact ⟨hconsistent.outcome, nofun, fun hsome => by simp [hbody] at hsome⟩
  | droppedLate => exact ⟨hconsistent.outcome, nofun, fun _ => .inr (.inr rfl)⟩
  | polled hbody | bodyMoved hbody | credited hbody | abandoned hbody | dropCredited hbody | bodyDropped hbody =>
    exact ⟨hconsistent.outcome, hconsistent.resolving, fun _ => hconsistent.body (by simp [hbody])⟩

end Handles

theorem living_act {w : World β ν η} (h : Living w) (action : Common.Action) : Living (w.onCommon (·.act action)) := by
  have hacts := acts_act w.common action
  rw [World.onCommon]
  generalize w.common.act action = c' at hacts ⊢
  cases hacts with
  | idle hframe hexchanges =>
    exact h.of_same hframe.created hframe.queue rfl rfl rfl fun id => hexchanges ▸ Alike.refl _
  | @sent request =>
    have hnew : Early w w.common.created := .inl le_rfl
    have hearly : ∀ id, Early ⟨{ w.common with
        created := w.common.created + 1
        exchanges := Function.update w.common.exchanges w.common.created
          { request := some request, future := .checkingGone } }, w.driver⟩ id → Early w id := by
      rintro id (hbeyond | hunpushed | hqueued | hheld)
      · exact .inl (Nat.le_of_succ_le hbeyond)
      · by_cases hid : id = w.common.created
        · exact hid ▸ hnew
        · simp only [Function.update_of_ne hid] at hunpushed
          exact .inr (.inl hunpushed)
      · exact .inr (.inr (.inl hqueued))
      · exact .inr (.inr (.inr hheld))
    constructor
    case blank =>
      intro id hid
      by_cases hcreated : id = w.common.created
      · simp only [hcreated, Function.update_self]
        exact ⟨rfl, rfl, rfl, by simp⟩
      · simp only [Function.update_of_ne hcreated]
        exact h.blank id (hearly id hid)
    case unregistered => exact fun id hid => h.unregistered id (hearly id hid)
    case staying => exact fun id hid => h.staying id (hearly id hid)
    case unpushed =>
      intro id hid
      by_cases hcreated : id = w.common.created
      · exact h.unpushed id (.inl hcreated.ge)
      · simp only [Function.update_of_ne hcreated] at hid
        exact h.unpushed id (hid.imp_left Nat.le_of_succ_le)
    case beyond =>
      intro id hid
      have hne : id ≠ w.common.created := fun heq => Nat.not_succ_le_self _ (heq ▸ hid)
      simp only [Function.update_of_ne hne]
      exact h.beyond id (Nat.le_of_succ_le hid)
    case queue => exact h.queue
    case hand => exact h.hand
    case once => exact h.once
    case slot => exact h.slot
    case home =>
      intro key entry hentry
      have hne : entry.incoming ≠ w.common.created :=
        fun heq => h.unregistered _ hnew ⟨key, entry, hentry, heq⟩
      simp only [Function.update_of_ne hne]
      exact h.home key entry hentry
    case consistent =>
      intro id
      by_cases hcreated : id = w.common.created
      · simp only [hcreated, Function.update_self]
        exact ⟨by simp, by simp, by simp⟩
      · simp only [Function.update_of_ne hcreated]
        exact h.consistent id
  | @pushed id request hfuture hrequest hunlocked =>
    have hunpushed : w.common.created ≤ id ∨ isUnpushed (w.common.exchanges id).future = true := .inr (by rw [hfuture]; rfl)
    have hother : ∀ j, j ≠ id →
        ((w.common.pushCommand ⟨request, id⟩).setFuture id .waking).exchanges j = w.common.exchanges j :=
      fun j hj => exchanges_modify_of_ne _ _ hj
    have hself : ((w.common.pushCommand ⟨request, id⟩).setFuture id .waking).exchanges id =
        { w.common.exchanges id with future := .waking } := exchanges_modify_self _ _ _
    have hqueued : ∀ j, Queued ((w.common.pushCommand ⟨request, id⟩).setFuture id .waking) j →
        Queued w.common j ∨ j = id := by
      rintro j ⟨command, hcommand, hj⟩
      obtain hmem | hlast := List.mem_append.mp hcommand
      · exact .inl ⟨command, hmem, hj⟩
      · cases List.mem_singleton.mp hlast
        exact .inr hj.symm
    have hearly : ∀ j, Early ⟨(w.common.pushCommand ⟨request, id⟩).setFuture id .waking, w.driver⟩ j → Early w j := by
      intro j hj
      by_cases hne : j = id
      · exact hne ▸ hunpushed.imp_right .inl
      obtain hbeyond | hunpushed' | hq | hheld := hj
      · exact .inl hbeyond
      · rw [hother j hne] at hunpushed'
        exact .inr (.inl hunpushed')
      · exact .inr (.inr (.inl ((hqueued j hq).resolve_right hne)))
      · exact .inr (.inr (.inr hheld))
    have hqueue : ((w.common.pushCommand ⟨request, id⟩).setFuture id .waking).queue = w.common.queue ++ [⟨request, id⟩] :=
      rfl
    constructor
    case blank =>
      intro j hj
      have hblank := h.blank j (hearly j hj)
      by_cases hne : j = id
      · subst hne
        rw [hself]
        exact ⟨hblank.incoming, hblank.body, hblank.stream, hblank.unanswered⟩
      · rwa [hother j hne]
    case unregistered => exact fun j hj => h.unregistered j (hearly j hj)
    case staying => exact fun j hj => h.staying j (hearly j hj)
    case unpushed =>
      intro j hj
      have hne : j ≠ id := by
        rintro rfl
        rw [hself] at hj
        obtain hbeyond | hwaking := hj
        · have habsent := h.beyond j hbeyond
          rw [hfuture] at habsent
          cases habsent
        · cases hwaking
      rw [hother j hne] at hj
      obtain ⟨hnotQueued, hnotHand⟩ := h.unpushed j hj
      exact ⟨fun hq => hnotQueued ((hqueued j hq).resolve_right hne), hnotHand⟩
    case beyond =>
      intro j hj
      have hne : j ≠ id := by
        rintro rfl
        have habsent := h.beyond j hj
        rw [hfuture] at habsent
        cases habsent
      rw [hother j hne]
      exact h.beyond j hj
    case queue =>
      rw [hqueue, List.map_append, List.nodup_append]
      refine ⟨h.queue, List.nodup_singleton _, fun j hj last hlast heq => ?_⟩
      obtain ⟨command, hcommand, hid⟩ := List.mem_map.mp hj
      rw [List.map_singleton, List.mem_singleton] at hlast
      exact (h.unpushed id hunpushed).1 ⟨command, hcommand, hid.trans (heq.trans hlast)⟩
    case hand =>
      intro j hj hq
      obtain hq | rfl := hqueued j hq
      · exact h.hand j hj hq
      · exact (h.unpushed j hunpushed).2 hj
    case once => exact h.once
    case slot => exact h.slot
    case home =>
      intro key entry hentry
      have hne : entry.incoming ≠ id :=
        fun heq => h.unregistered _ (hunpushed.imp_right .inl) ⟨key, entry, hentry, heq⟩
      rw [hother _ hne]
      exact h.home key entry hentry
    case consistent =>
      intro j
      by_cases hne : j = id
      · subst hne
        rw [hself]
        have hconsistent := h.consistent j
        have hbody := hconsistent.no_body (by simp [hfuture]) (by simp [hfuture]) (by simp [hfuture])
        exact ⟨hconsistent.outcome, by simp, fun hsome => by simp [hbody] at hsome⟩
      · rw [hother j hne]
        exact h.consistent j
  | @moved _ id e' given _ hstep hframe hexchanges =>
    have hother : ∀ j, j ≠ id → c'.exchanges j = w.common.exchanges j := by
      intro j hj
      rw [hexchanges, Function.update_of_ne hj]
    have hself : c'.exchanges id = e' := by rw [hexchanges, Function.update_self]
    have hfuture : ∀ j, isUnpushed (c'.exchanges j).future = true → isUnpushed (w.common.exchanges j).future = true := by
      intro j hj
      by_cases hne : j = id
      · subst hne
        rw [hself] at hj
        exact unpushed_of_step hstep hj
      · rwa [hother j hne] at hj
    have hearly : ∀ j, Early ⟨c', w.driver⟩ j → Early w j := by
      rintro j (hbeyond | hunpushed | hqueued | hheld)
      · exact .inl (hframe.created ▸ hbeyond)
      · exact .inr (.inl (hfuture j hunpushed))
      · exact .inr (.inr (.inl (by rwa [Queued, hframe.queue] at hqueued)))
      · exact .inr (.inr (.inr hheld))
    constructor
    case blank =>
      intro j hj
      have hblank := h.blank j (hearly j hj)
      by_cases hne : j = id
      · subst hne
        rw [hself]
        exact blank_of_step hstep (h.consistent j) hblank
      · rwa [hother j hne]
    case unregistered => exact fun j hj => h.unregistered j (hearly j hj)
    case staying => exact fun j hj => h.staying j (hearly j hj)
    case unpushed =>
      intro j hj
      obtain ⟨hnotQueued, hnotHand⟩ := h.unpushed j (hj.imp (fun hbeyond => hframe.created ▸ hbeyond) (hfuture j))
      exact ⟨fun hq => hnotQueued (by rwa [Queued, hframe.queue] at hq), hnotHand⟩
    case beyond =>
      intro j hj
      have hbeyond : w.common.created ≤ j := hframe.created ▸ hj
      have habsent := h.beyond j hbeyond
      by_cases hne : j = id
      · subst hne
        have hbody := (h.blank j (.inl hbeyond)).body
        exact absurd hstep (no_step_of_absent habsent hbody)
      · rwa [hother j hne]
    case queue =>
      rw [hframe.queue]
      exact h.queue
    case hand => exact fun j hj hq => h.hand j hj (by rwa [Queued, hframe.queue] at hq)
    case once => exact h.once
    case slot => exact h.slot
    case home =>
      intro key entry hentry
      by_cases hne : entry.incoming = id
      · rw [hne, hself, streamOf_of_step hstep (h.consistent id), ← hne]
        exact h.home key entry hentry
      · rw [hother _ hne]
        exact h.home key entry hentry
    case consistent =>
      intro j
      by_cases hne : j = id
      · subst hne
        rw [hself]
        exact consistent_of_step hstep (h.consistent j)
      · rw [hother j hne]
        exact h.consistent j

/-! ## Runs -/

section Runs
variable [QuicConnection β] [Nghttp3 ν] [Handlers η] [Http] {strict : Prop} {role : Role} {config : Http3Passes.Config}
  {fuel : ℕ} {backend : β} {raw : ν} {handlers : η} {choices : List (Choice Common.Action)}
  {good : {α : Type} → Op β ν α → World β ν η → Prop} {fair : Common.Action → World β ν η → Prop}

omit [QuicConnection β] [Nghttp3 ν] [Handlers η] [Http] in
theorem living_newWorld : Living (newWorld role backend raw handlers) where
  blank _ _ := ⟨rfl, rfl, rfl, by simp [newWorld]⟩
  unregistered _ _ := by
    rintro ⟨key, entry, hentry, -⟩
    simp [newWorld] at hentry
  staying _ _ := List.not_mem_nil
  unpushed _ _ := by
    refine ⟨?_, not_inHand rfl _⟩
    rintro ⟨command, hcommand, -⟩
    cases hcommand
  beyond _ _ := rfl
  queue := List.nodup_nil
  hand id := not_inHand rfl id |>.elim
  once key key' entry entry' hentry := by simp [newWorld] at hentry
  slot key entry id hentry := by simp [newWorld] at hentry
  home key entry hentry := by simp [newWorld] at hentry
  consistent _ := ⟨by simp [newWorld], by simp [newWorld], by simp [newWorld]⟩

variable (strict)

/-- In a run whose streams are fresh, what is known of the driver's hands, of the streams and of the
exchanges may be relied on. -/
theorem careful_living (hgood : ∀ {α : Type} (op : Op β ν α) w, good op w → strict → Unfailing role op w)
    (hfresh : ∀ {α : Type} (op : Op β ν α) w, good op w → fresh w op = true)
    (h : (connection role config fuel).Careful (newWorld role backend raw handlers) good fair choices) :
    (connection role config fuel).Careful (newWorld role backend raw handlers)
      (fun op w => ((good op w ∧ ∃ k : Desk, Tracks strict w k ∧ k.allows strict role op) ∧ Placed role w.driver) ∧
        Living w)
      (fun action w => (fair action w ∧ Placed role w.driver) ∧ Living w) choices := by
  refine careful_invariant (I := Living) living_newWorld ?_ ?_ (careful_placed strict hgood hfresh h)
  · intro α op w hliving ⟨⟨_, k, htracks, hallows⟩, _⟩
    exact living_applyOp hliving htracks hallows
  · intro action w hliving _
    exact living_act hliving action

theorem living_reached (hgood : ∀ {α : Type} (op : Op β ν α) w, good op w → strict → Unfailing role op w)
    (hfresh : ∀ {α : Type} (op : Op β ν α) w, good op w → fresh w op = true)
    (h : (connection role config fuel).Careful (newWorld role backend raw handlers) good fair choices) :
    Living ((connection role config fuel).reached (newWorld role backend raw handlers) choices).state := by
  refine state_invariant living_newWorld ?_ ?_ (careful_placed strict hgood hfresh h)
  · intro α op w hliving ⟨⟨_, k, htracks, hallows⟩, _⟩
    exact living_applyOp hliving htracks hallows
  · intro action w hliving _
    exact living_act hliving action

end Runs

end Ngnet.Http3Lifetimes
