import Mathlib.Tactic.Common
import Ngnet.Http3Passes

/-!
# What the operations of an HTTP/3 driver can do

Most operations touch neither the exchanges nor what the driver holds of them. `Still` says so once,
for all the state that the results about a connection speak of; each of these has to look at the
other operations only.
-/

namespace Ngnet.Http3DriverSteps
open QmuxVarints QmuxStreams Http3Heads Http3Handles Http3Conn Http3Driver

variable {β ν η α : Type}

/-- The exchanges agree up to whether they were cancelled. -/
def Alike (e e' : Exchange) : Prop := ∃ cancelled, e' = { e with cancelled }

theorem Alike.refl (e : Exchange) : Alike e e := ⟨e.cancelled, rfl⟩

theorem Alike.trans {e e' e'' : Exchange} (h : Alike e e') (h' : Alike e' e'') : Alike e e'' := by
  obtain ⟨_, rfl⟩ := h
  obtain ⟨cancelled, rfl⟩ := h'
  exact ⟨cancelled, rfl⟩

/-- Nothing has happened to the exchanges, where they are or what is owed for them. -/
structure Still (w w' : World β ν η) : Prop where
  exchanges : ∀ id, Alike (w.common.exchanges id) (w'.common.exchanges id) := by exact fun _ => Alike.refl _
  created : w'.common.created = w.common.created := by rfl
  queue : w'.common.queue = w.common.queue := by rfl
  queueLocked : w'.common.queueLocked = w.common.queueLocked := by rfl
  queueAbandoned : w'.common.queueAbandoned = w.common.queueAbandoned := by rfl
  credit : w'.common.inner.credit = w.common.inner.credit := by rfl
  registry : w'.driver.registry = w.driver.registry := by rfl
  hand : w'.driver.hand = w.driver.hand := by rfl
  leavingSlots : w'.driver.leavingSlots = w.driver.leavingSlots := by rfl
  leavingBodies : w'.driver.leavingBodies = w.driver.leavingBodies := by rfl
  spare : w'.driver.spare = w.driver.spare := by rfl
  used : w'.driver.used = w.driver.used := by rfl
  openedBi : w'.driver.openedBi = w.driver.openedBi := by rfl
  observed : w'.driver.events.observed = w.driver.events.observed := by rfl
  taken : w'.driver.taken = w.driver.taken := by rfl
  drained : w'.driver.work.credit = w.driver.work.credit := by rfl
  recorded : w'.driver.recorded = w.driver.recorded := by rfl
  returned : w'.driver.returned = w.driver.returned := by rfl
  unclaimed : w'.driver.conn.unclaimedCredit = w.driver.conn.unclaimedCredit := by rfl
  deferred : w'.driver.deferred = w.driver.deferred := by rfl
  deferredTaken : w'.driver.deferredTaken = w.driver.deferredTaken := by rfl
  pushbackError : w'.driver.pushbackError = w.driver.pushbackError := by rfl

/-- The operation leaves the exchanges and what is held of them alone. -/
def idle : Op β ν α → Bool
  | .callback _ | .takeDeferredCredit | .keepError _ | .takeError | .drainWork | .returnCredit => false
  | .drainObserved | .discardClosedSince _ _ | .passObservation | .deliverData | .deliverEnd _ => false
  | .deliverTrailers _ _ | .completeSlot _ _ | .retireSlot _ _ | .retireBody _ | .finishEntry _ => false
  | .leavingSettled | .failLeaving _ | .takeAll | .giveStream _ | .pop | .admitRequest | .refuse _ => false
  | .enterHand _ | .lockQueue | .abandonNext | .unlockQueue | .openExchange _ _ => false
  | _ => true

variable (c : Common)

theorem exchanges_trip (id j : ℕ) : Alike (c.exchanges j) ((c.trip id).exchanges j) := by
  by_cases h : j = id
  · subst h
    exact ⟨true, by simp [Common.trip, Common.modifyExchange]⟩
  · simpa [Common.trip, Common.modifyExchange, h] using Alike.refl _

theorem trips_eq (cancels : List (StreamId × ℕ)) :
    ∃ exchanges, cancels.foldl (fun c cancel => Common.trip c cancel.2) c = { c with exchanges } ∧
      ∀ id, Alike (c.exchanges id) (exchanges id) := by
  induction cancels generalizing c with
  | nil => exact ⟨c.exchanges, rfl, fun id => Alike.refl _⟩
  | cons cancel rest ih =>
    obtain ⟨exchanges, heq, hexchanges⟩ := ih (c.trip cancel.2)
    exact ⟨exchanges, heq, fun id => (exchanges_trip c cancel.2 id).trans (hexchanges id)⟩

section Conn
variable [Nghttp3 ν]

/-! ## The credit that the state machine holds

Callbacks add to it and drop it; no call touches it itself. -/

variable (c : Conn ν)

theorem unclaimedCredit_record (code : ℤ) (context : String) (fatal : Bool) :
    (c.record code context fatal).2.unclaimedCredit = c.unclaimedCredit := by
  rw [Conn.record]
  split
  · rfl
  · rfl

theorem unclaimedCredit_native (f : ν → Option ℤ × ν) (context : String) :
    (c.native f context).2.unclaimedCredit = c.unclaimedCredit := by
  rw [Conn.native]
  split
  · rfl
  · exact unclaimedCredit_record _ _ _ _

omit [Nghttp3 ν] in
theorem unclaimedCredit_checked (checks : List (Except CoreError Unit))
    {call : Conn ν → Except CoreError Unit × Conn ν} (hcall : (call c).2.unclaimedCredit = c.unclaimedCredit) :
    (c.checked checks call).2.unclaimedCredit = c.unclaimedCredit := by
  rw [Conn.checked]
  split
  · rfl
  split
  · rfl
  · exact hcall

variable (stream : StreamId)

theorem unclaimedCredit_submit (body : Option Outgoing)
    (f : Bool → ν → Option ℤ × ν) (context : String) :
    (c.submit stream body f context).2.unclaimedCredit = c.unclaimedCredit := by
  cases body with
  | none => exact unclaimedCredit_native _ _ _
  | some body =>
  rw [Conn.submit]
  split
  · rfl
  have hnative := unclaimedCredit_native { c with bodies := (stream, body) :: c.bodies } (f true) context
  split
  · rename_i hresult
    rwa [hresult] at hnative
  · rename_i hresult
    rwa [hresult] at hnative

omit [Nghttp3 ν] in
theorem unclaimedCredit_then {c : Conn ν} {result : Except CoreError Unit × Conn ν} {record : Conn ν → Conn ν}
    (hresult : result.2.unclaimedCredit = c.unclaimedCredit)
    (hthen : ∀ c, (record c).unclaimedCredit = c.unclaimedCredit) :
    (match result with
      | (.ok (), c) => ((.ok (), record c) : Except CoreError Unit × Conn ν)
      | failed => failed).2.unclaimedCredit = c.unclaimedCredit := by
  obtain ⟨_ | ⟨⟩, c'⟩ := result
  · exact hresult
  · exact (hthen c').trans hresult

theorem unclaimedCredit_call (call : ConnCall) :
    (c.call call).2.unclaimedCredit = c.unclaimedCredit := by
  cases call with
  | bindControlStream stream =>
    exact unclaimedCredit_checked _ _ (unclaimedCredit_then (unclaimedCredit_native _ _ _) fun _ => rfl)
  | bindQpackStreams encoder decoder =>
    exact unclaimedCredit_checked _ _ (unclaimedCredit_then (unclaimedCredit_native _ _ _) fun _ => rfl)
  | submitRequest stream fields body => exact unclaimedCredit_checked _ _ (unclaimedCredit_submit _ _ _ _ _)
  | submitResponse stream fields body => exact unclaimedCredit_checked _ _ (unclaimedCredit_submit _ _ _ _ _)
  | submitTrailers stream fields => exact unclaimedCredit_checked _ _ (unclaimedCredit_native _ _ _)
  | commit offer accepted =>
    rw [Conn.call, Conn.commit]
    split
    · rfl
    · refine unclaimedCredit_then (unclaimedCredit_native _ _ _) fun c => ?_
      rw [Conn.recordCommitted]
      split
      · rfl
      · rfl
  | blockStream stream => exact unclaimedCredit_checked _ _ rfl
  | unblockStream stream => exact unclaimedCredit_checked _ _ (unclaimedCredit_native _ _ _)
  | resumeStream stream => exact unclaimedCredit_checked _ _ (unclaimedCredit_native _ _ _)
  | shutdownStreamRead stream => exact unclaimedCredit_checked _ _ (unclaimedCredit_native _ _ _)
  | shutdownStreamWrite stream => exact unclaimedCredit_checked _ _ rfl
  | shutdown => exact unclaimedCredit_checked _ _ (unclaimedCredit_then (unclaimedCredit_native _ _ _) fun _ => rfl)

omit [Nghttp3 ν] in
theorem unclaimedCredit_recordAcked (n : ℕ) :
    (c.recordAcked stream n).2.unclaimedCredit = c.unclaimedCredit := by
  rw [Conn.recordAcked]
  split
  · rfl
  split
  · rfl
  dsimp only
  split
  · rfl
  · rfl

theorem unclaimedCredit_enter (call : NativeCall α) :
    (c.enter call).2.unclaimedCredit = c.unclaimedCredit := by
  cases hpoison : c.poison with
  | some context => simp [Conn.enter, hpoison]
  | none =>
    cases call with
    | readStream stream data fin => simp [Conn.enter, hpoison]
    | writevStream => simp [Conn.enter, hpoison]
    | closeStream stream closed => simp [Conn.enter, hpoison]
    | addAckOffset stream n => simpa [Conn.enter, hpoison] using unclaimedCredit_recordAcked c stream n

theorem unclaimedCredit_leave (call : NativeCall α) (result : Except ℤ α) (raw : ν) :
    (c.leave call result raw).2.unclaimedCredit = c.unclaimedCredit := by
  cases result with
  | ok a => rfl
  | error code => exact unclaimedCredit_record _ _ _ _

omit [Nghttp3 ν] in
theorem unclaimedCredit_readData (veccnt : ℕ) :
    (c.readData stream veccnt).2.2.unclaimedCredit = c.unclaimedCredit := by
  rw [Conn.readData]
  split
  · rfl
  · rfl

end Conn

/-! ## Idle operations -/

section Still
variable [QuicConnection β] [Nghttp3 ν] [Handlers η]

theorem still_applyOp (w : World β ν η) {op : Op β ν α} (h : idle op = true) : Still w (applyOp w op).2 := by
  cases op with
  | conn call => exact { unclaimed := unclaimedCredit_call _ _ }
  | enter call => exact { unclaimed := unclaimedCredit_enter _ _ }
  | leave call result raw => exact { unclaimed := unclaimedCredit_leave _ _ _ _ }
  | readData stream veccnt =>
    have hconn := unclaimedCredit_readData w.driver.conn stream veccnt
    rw [applyOp]
    generalize w.driver.conn.readData stream veccnt = read at hconn ⊢
    obtain ⟨answer, _ | ending, conn⟩ := read
    · exact { unclaimed := hconn }
    · exact { unclaimed := hconn }
  | pollHandler stream =>
    rw [applyOp]
    split
    · dsimp only
      split
      · exact {}
      · exact {}
    · exact {}
  | takeEnding index =>
    rw [applyOp]
    split
    · exact {}
    · exact {}
  | reset stream code =>
    refine { credit := ?_ }
    simp only [applyOp, World.onCommon, Common.modifyInner, Inner.reset]
    split
    · rfl
    · rfl
  | cancel stream =>
    rw [applyOp]
    dsimp only
    split
    · exact {}
    · exact { exchanges := fun id => exchanges_trip _ _ _ }
  | abandonHandlers =>
    obtain ⟨exchanges, heq, hexchanges⟩ := trips_eq w.common w.driver.cancels
    simp only [applyOp, heq]
    exact { exchanges := hexchanges }
  | _ => first
    | exact (Bool.false_ne_true h).elim
    | exact {}

end Still

/-! ## Lookups -/

theorem exchanges_modify_self (id : ℕ) (f : Exchange → Exchange) :
    (c.modifyExchange id f).exchanges id = f (c.exchanges id) := by
  simp [Common.modifyExchange]

theorem exchanges_modify_of_ne {id j : ℕ} (f : Exchange → Exchange) (h : j ≠ id) :
    (c.modifyExchange id f).exchanges j = c.exchanges j := by
  simp [Common.modifyExchange, h]

theorem driver_onIncoming (w : World β ν η) (stream : StreamId) (f : Incoming → Incoming) :
    ∃ exchanges, w.onIncoming stream f = { w with common := { w.common with exchanges } } := by
  rw [World.onIncoming]
  split
  · exact ⟨_, rfl⟩
  · exact ⟨_, rfl⟩

theorem driver_onSlot (w : World β ν η) (stream : StreamId) (f : Slot → Slot) :
    ∃ exchanges, w.onSlot stream f = { w with common := { w.common with exchanges } } := by
  rw [World.onSlot]
  split
  · exact ⟨_, rfl⟩
  · exact ⟨_, rfl⟩

theorem common_failSlots (slot : Option ℕ) (error : Error) :
    ∃ exchanges, World.failSlots c slot error = { c with exchanges } := by
  cases slot with
  | none => exact ⟨_, rfl⟩
  | some id => exact ⟨_, rfl⟩

theorem getElem?_insert (registry : Std.TreeMap ℕ Entry) (key other : ℕ) (entry : Entry) :
    (registry.insert key entry)[other]? = if key = other then some entry else registry[other]? := by
  simp [Std.TreeMap.getElem?_insert]

theorem getElem?_erase (registry : Std.TreeMap ℕ Entry) (key other : ℕ) :
    (registry.erase key)[other]? = if key = other then none else registry[other]? := by
  simp [Std.TreeMap.getElem?_erase]

/-! ## Request streams and entries -/

/-- The operation opens a stream, takes one or handles the command in hand. -/
def handles : Op β ν α → Bool
  | .giveStream _ | .pop | .admitRequest | .refuse _ | .enterHand _ => true
  | _ => false

/-- The operation registers an exchange. -/
def registers : Op β ν α → Bool
  | .enterHand _ | .openExchange _ _ => true
  | _ => false

/-- The streams of requests and the command in hand are as they were. -/
structure SameHand (d d' : DriverState β ν η) : Prop where
  hand : d'.hand = d.hand := by rfl
  spare : d'.spare = d.spare := by rfl
  used : d'.used = d.used := by rfl
  openedBi : d'.openedBi = d.openedBi := by rfl

/-- Every entry was there before. -/
def Fewer (d d' : DriverState β ν η) : Prop :=
  ∀ (key : ℕ) entry, d'.registry[key]? = some entry → d.registry[key]? = some entry

theorem Fewer.of_eq {d d' : DriverState β ν η} (h : d'.registry = d.registry) : Fewer d d' := by
  intro key entry hentry
  rwa [h] at hentry

theorem fewer_erase (d : DriverState β ν η) (stream : StreamId) : Fewer d (d.eraseEntry stream) := by
  intro key entry hentry
  rw [DriverState.eraseEntry, getElem?_erase] at hentry
  split at hentry
  · cases hentry
  · exact hentry

section Frames
variable [QuicConnection β] [Nghttp3 ν] [Handlers η]

theorem sameHand_applyOp (w : World β ν η) {op : Op β ν α} (h : handles op = false) :
    SameHand w.driver (applyOp w op).2.driver := by
  by_cases hidle : idle op = true
  · have hstill := still_applyOp w hidle
    exact ⟨hstill.hand, hstill.spare, hstill.used, hstill.openedBi⟩
  cases op with
  | callback call =>
    cases call with
    | _ => exact {}
  | takeDeferredCredit | keepError | takeError | drainWork | drainObserved | discardClosedSince | takeAll | lockQueue |
      unlockQueue | openExchange => exact {}
  | deliverData =>
    rw [applyOp]
    dsimp only
    split
    · rename_i stream bytes taken htaken
      obtain ⟨exchanges, heq⟩ := driver_onIncoming (w.onDriver fun d => { d with taken }) stream (·.push bytes)
      rw [heq]
      exact {}
    · exact {}
  | deliverEnd stream =>
    obtain ⟨exchanges, heq⟩ := driver_onIncoming w stream (·.endOfMessage)
    rw [applyOp, heq]
    exact {}
  | deliverTrailers stream fields =>
    obtain ⟨exchanges, heq⟩ := driver_onIncoming w stream (·.setTrailers fields)
    rw [applyOp, heq]
    exact {}
  | completeSlot stream head =>
    obtain ⟨exchanges, heq⟩ := driver_onSlot w stream (·.complete head)
    rw [applyOp, heq]
    exact {}
  | returnCredit =>
    rw [applyOp]
    split
    · exact {}
    · dsimp only [World.onDriver]
      split
      · exact {}
      · exact {}
  | passObservation =>
    rw [applyOp]
    dsimp only [World.onDriver]
    split
    · exact {}
    · exact {}
    · exact {}
  | retireBody | failLeaving | abandonNext =>
    rw [applyOp]
    dsimp only
    split
    · exact {}
    · exact {}
  | retireSlot | finishEntry =>
    rw [applyOp]
    split
    · exact {}
    · exact {}
  | leavingSettled =>
    rw [applyOp]
    split
    · exact {}
    split
    · exact {}
    · exact {}
  | giveStream | pop | admitRequest | refuse | enterHand => cases h
  | _ => exact (hidle rfl).elim

theorem fewer_applyOp (w : World β ν η) {op : Op β ν α} (h : registers op = false) :
    Fewer w.driver (applyOp w op).2.driver := by
  by_cases hidle : idle op = true
  · exact .of_eq (still_applyOp w hidle).registry
  cases op with
  | callback call =>
    cases call with
    | _ => exact .of_eq rfl
  | takeDeferredCredit | keepError | takeError | drainWork | drainObserved | discardClosedSince | lockQueue |
      unlockQueue | giveStream => exact .of_eq rfl
  | takeAll =>
    intro key entry hentry
    simp [applyOp, World.onDriver] at hentry
  | deliverData =>
    rw [applyOp]
    dsimp only
    split
    · rename_i stream bytes taken htaken
      obtain ⟨exchanges, heq⟩ := driver_onIncoming (w.onDriver fun d => { d with taken }) stream (·.push bytes)
      rw [heq]
      exact .of_eq rfl
    · exact .of_eq rfl
  | deliverEnd stream =>
    obtain ⟨exchanges, heq⟩ := driver_onIncoming w stream (·.endOfMessage)
    rw [applyOp, heq]
    exact .of_eq rfl
  | deliverTrailers stream fields =>
    obtain ⟨exchanges, heq⟩ := driver_onIncoming w stream (·.setTrailers fields)
    rw [applyOp, heq]
    exact .of_eq rfl
  | completeSlot stream head =>
    obtain ⟨exchanges, heq⟩ := driver_onSlot w stream (·.complete head)
    rw [applyOp, heq]
    exact .of_eq rfl
  | returnCredit =>
    rw [applyOp]
    split
    · exact .of_eq rfl
    · dsimp only [World.onDriver]
      split
      · exact .of_eq rfl
      · exact .of_eq rfl
  | passObservation =>
    rw [applyOp]
    dsimp only [World.onDriver]
    split
    · exact .of_eq rfl
    · exact .of_eq rfl
    · exact .of_eq rfl
  | retireBody | failLeaving | abandonNext =>
    rw [applyOp]
    dsimp only
    split
    · exact .of_eq rfl
    · exact .of_eq rfl
  | retireSlot stream | finishEntry stream =>
    rw [applyOp]
    split
    · exact .of_eq rfl
    · exact fewer_erase w.driver stream
  | leavingSettled | admitRequest =>
    rw [applyOp]
    split
    · exact .of_eq rfl
    split
    · exact .of_eq rfl
    · exact .of_eq rfl
  | pop =>
    rw [applyOp]
    split
    · exact .of_eq rfl
    · exact .of_eq rfl
  | refuse =>
    rw [applyOp]
    dsimp only
    split
    · exact .of_eq rfl
    · exact .of_eq rfl
  | enterHand | openExchange => cases h
  | _ => exact (hidle rfl).elim

end Frames

end Ngnet.Http3DriverSteps
