import Ngnet.Histories
import Ngnet.QuicEndpoint
import Ngnet.WakerLists

/-!
# The outbound queue of a detached connection

`endpoint/shared.rs`: the owner of a detached connection queues datagrams once it has seen room for them, and a close at
any time, the endpoint takes them, and whoever finds the queue full waits for its capacity. The queue is that of the
shared state, with the wakers that wait for it.
-/

namespace Ngnet.QuicOutboundQueue
open QmuxVarints QuicEndpoint Histories

/-- What was taken: a datagram, or a close with all that was queued up to then. -/
inductive Taken
  | data (datagram : Bytes)
  | close (datagram : Bytes) (queued : List Bytes)

def Taken.data? : Taken → Option Bytes
  | .data datagram => some datagram
  | .close _ _ => none

def Taken.close? : Taken → Option Bytes
  | .data _ => none
  | .close datagram _ => some datagram

/-- The queue and its wakers, the room that the producer has seen and not used, the tasks that found the queue full
and have not looked again, and what was queued, offered as a close and taken. -/
structure Outbound (ω : Type) where
  shared : ConnectionShared := {}
  capacity : WakerLists Unit ω := {}
  observed : Bool := false
  parked : List ω := []
  queued : List Bytes := []
  offered : List Bytes := []
  taken : List Taken := []
  panicked : Bool := false

inductive Action (ω : Type)
  | outboundHasRoom
  | outboundReadyOrRegister (waker : ω)
  | queueOutbound (datagram : Bytes)
  | queueCloseOutbound (datagram : Bytes)
  | takeOutbound
  | wakeNext

namespace Outbound
variable {ω : Type} [DecidableEq ω]

def depth (q : Outbound ω) : ℕ := q.shared.outbound.length + q.shared.closeOutbound.toList.length

def outboundReadyOrRegister (waker : ω) (q : Outbound ω) : Outbound ω :=
  let q := { q with capacity := q.capacity.forget waker, parked := q.parked.filter (· ≠ waker) }
  if q.shared.outboundHasRoom then { q with observed := true }
  else { q with capacity := q.capacity.register () waker, parked := waker :: q.parked }

def queueOutbound (datagram : Bytes) (q : Outbound ω) : Outbound ω :=
  { q with
    shared := q.shared.queueOutbound datagram
    observed := false
    queued := q.queued ++ [datagram]
    panicked := q.panicked || !q.shared.outboundHasRoom }

def queueCloseOutbound (datagram : Bytes) (q : Outbound ω) : Outbound ω :=
  let q := { q with shared := q.shared.queueCloseOutbound datagram, offered := q.offered ++ [datagram] }
  { q with panicked := q.panicked || decide (datagramQueue < q.depth) }

def takeOutbound (q : Outbound ω) : Outbound ω :=
  match q.shared.takeOutbound with
  | (none, _) => q
  | (some datagram, shared) =>
    { q with
      shared
      capacity := if q.shared.outbound.length = outboundDataQueue then q.capacity.take () else q.capacity
      taken := q.taken ++ [if q.shared.outbound = [] then .close datagram q.queued else .data datagram] }

/-- The single producer queues a datagram only where it has seen room for it. -/
def act (q : Outbound ω) : Action ω → Outbound ω
  | .outboundHasRoom => { q with observed := q.observed || q.shared.outboundHasRoom }
  | .outboundReadyOrRegister waker => q.outboundReadyOrRegister waker
  | .queueOutbound datagram => if q.observed then q.queueOutbound datagram else q
  | .queueCloseOutbound datagram => q.queueCloseOutbound datagram
  | .takeOutbound => q.takeOutbound
  | .wakeNext => { q with capacity := q.capacity.wakeNext }

def run (actions : List (Action ω)) : Outbound ω := actions.foldl act {}

end Outbound

variable {ω : Type} {q : Outbound ω}

/-- Before a close was taken, all that was queued up to then was. -/
def Behind (before : List Taken) : Taken → Prop
  | .data _ => True
  | .close _ queued => before.filterMap Taken.data? = queued

/-- Bounded, in order, and with nobody asleep beside room. -/
structure Sound (q : Outbound ω) : Prop where
  bound : q.shared.outbound.length ≤ outboundDataQueue
  room : q.observed = true → q.shared.outboundHasRoom = true
  calm : q.panicked = false
  order : q.taken.filterMap Taken.data? ++ q.shared.outbound = q.queued
  behind : AtEach Behind q.taken
  first : (q.taken.filterMap Taken.close? ++ q.shared.closeOutbound.toList).head? = q.offered.head?
  full : q.capacity.registered () ≠ [] → q.shared.outboundHasRoom = false
  heeding : ∀ waker ∈ q.parked, q.capacity.Heeds () waker (q.shared.outboundHasRoom = true)

theorem hasRoom_iff (s : ConnectionShared) : s.outboundHasRoom = true ↔ s.outbound.length < outboundDataQueue := by
  simp [ConnectionShared.outboundHasRoom]

theorem Sound.queueOutbound (h : Sound q) (hobserved : q.observed = true) (datagram : Bytes) :
    Sound (q.queueOutbound datagram) := by
  have hroom := h.room hobserved
  have hlen := (hasRoom_iff _).mp hroom
  have hnobody : q.capacity.registered () = [] := by
    by_contra hne
    simp [h.full hne] at hroom
  have hshared : q.shared.queueOutbound datagram = { q.shared with outbound := q.shared.outbound ++ [datagram] } := by
    rw [ConnectionShared.queueOutbound, if_pos hroom]
  rw [Outbound.queueOutbound, hshared]
  refine { h with bound := ?_, room := by simp, calm := ?_, order := ?_, full := ?_, heeding := ?_ }
  · simp only [List.length_append, List.length_singleton]
    omega
  · simp [h.calm, hroom]
  · simp [← h.order]
  · simp [hnobody]
  · exact fun waker hwaker => (h.heeding waker hwaker).imp fun _ => .inl hroom

theorem queueCloseOutbound_eq (s : ConnectionShared) (datagram : Bytes) : s.queueCloseOutbound datagram =
    { s with closeOutbound := some (s.closeOutbound.getD datagram) } := by
  rw [ConnectionShared.queueCloseOutbound]
  split
  · rename_i hclose
    rw [hclose, Option.getD_some, ← hclose]
  · rename_i hclose
    rw [hclose, Option.getD_none]

theorem Sound.queueCloseOutbound (h : Sound q) (datagram : Bytes) : Sound (q.queueCloseOutbound datagram) := by
  have hlen := h.bound
  have hfirst := h.first
  simp only [Outbound.queueCloseOutbound, queueCloseOutbound_eq]
  refine { h with calm := ?_, first := ?_ }
  · show (q.panicked || decide (datagramQueue < q.shared.outbound.length + 1)) = false
    simp only [outboundDataQueue, datagramQueue] at hlen ⊢
    rw [h.calm, Bool.false_or]
    exact decide_eq_false (by omega)
  · show (_ ++ [_]).head? = (q.offered ++ [datagram]).head?
    rw [List.head?_append, List.head?_append, ← hfirst]
    cases q.shared.closeOutbound <;> simp

theorem nobody_takeOutbound (h : Sound q) :
    (if q.shared.outbound.length = outboundDataQueue then q.capacity.take () else q.capacity).registered () = [] := by
  split
  · simp [WakerLists.take]
  · rename_i hlen
    have hroom := (hasRoom_iff q.shared).mpr (Nat.lt_of_le_of_ne h.bound hlen)
    by_contra hne
    simp [h.full hne] at hroom

theorem heeds_takeOutbound (h : Sound q) {waker : ω} (hwaker : waker ∈ q.parked) (p : Prop) :
    (if q.shared.outbound.length = outboundDataQueue then q.capacity.take () else q.capacity).Heeds () waker p := by
  have hnobody := nobody_takeOutbound h
  have hheeds : (if q.shared.outbound.length = outboundDataQueue then q.capacity.take () else q.capacity).Heeds ()
      waker (q.shared.outboundHasRoom = true) := by
    split
    · exact (h.heeding waker hwaker).take ()
    · exact h.heeding waker hwaker
  rcases hheeds with hwoken | hwaking | ⟨hregistered, -⟩
  · exact .inl hwoken
  · exact .inr (.inl hwaking)
  · simp [hnobody] at hregistered

theorem Sound.takeOutbound (h : Sound q) : Sound q.takeOutbound := by
  have hbound := h.bound
  have horder := h.order
  have hfirst := h.first
  have hnobody := nobody_takeOutbound h
  have hheeds := fun waker (hwaker : waker ∈ q.parked) => heeds_takeOutbound h hwaker
  cases hdata : q.shared.outbound with
  | cons datagram outbound =>
    have hshared : q.shared.takeOutbound = (some datagram, { q.shared with outbound }) := by
      rw [ConnectionShared.takeOutbound, hdata]
    rw [hdata] at hbound horder hnobody hheeds
    have hroom : outbound.length < outboundDataQueue := hbound
    simp only [Outbound.takeOutbound, hshared, hdata, reduceCtorEq, if_false]
    constructor
    case bound => exact Nat.le_of_lt hroom
    case room => exact fun _ => (hasRoom_iff _).mpr hroom
    case calm => exact h.calm
    case order => simpa [Taken.data?] using horder
    case behind => exact atEach_concat.mpr ⟨h.behind, trivial⟩
    case first => simpa [Taken.close?] using hfirst
    case full => exact fun hne => absurd hnobody hne
    case heeding => exact fun waker hwaker => hheeds waker hwaker _
  | nil =>
    have hshared : q.shared.takeOutbound = (q.shared.closeOutbound, { q.shared with closeOutbound := none }) := by
      simp only [ConnectionShared.takeOutbound, hdata]
    rw [hdata] at hbound horder hnobody hheeds
    simp only [Outbound.takeOutbound, hshared]
    cases hclose : q.shared.closeOutbound with
    | none => exact h
    | some close =>
      rw [hclose] at hfirst
      simp only [hdata, if_true]
      constructor
      case bound => exact Nat.zero_le _
      case room => exact fun _ => rfl
      case calm => exact h.calm
      case order => simpa [List.filterMap_cons, Taken.data?] using horder
      case behind => exact atEach_concat.mpr ⟨h.behind, by simpa [Behind] using horder⟩
      case first => simpa [Taken.close?] using hfirst
      case full => exact fun hne => absurd hnobody hne
      case heeding => exact fun waker hwaker => hheeds waker hwaker _

variable [DecidableEq ω]

theorem Sound.outboundReadyOrRegister (h : Sound q) (waker : ω) : Sound (q.outboundReadyOrRegister waker) := by
  have hothers : ∀ other ∈ q.parked.filter (· ≠ waker),
      (q.capacity.forget waker).Heeds () other (q.shared.outboundHasRoom = true) := by
    intro other hother
    obtain ⟨hmem, hne⟩ := List.mem_filter.mp hother
    exact (h.heeding other hmem).imp_left fun hwoken => List.mem_filter.mpr ⟨hwoken, hne⟩
  simp only [Outbound.outboundReadyOrRegister]
  split
  · rename_i hroom
    exact { h with room := fun _ => hroom, heeding := hothers }
  · rename_i hroom
    refine { h with full := fun _ => by simpa using hroom, heeding := ?_ }
    intro other hother
    rcases List.mem_cons.mp hother with rfl | hother
    · exact WakerLists.heeds_register _ _ fun hp => absurd hp hroom
    · exact (hothers other hother).register () waker

theorem sound_act (h : Sound q) (action : Action ω) : Sound (q.act action) := by
  cases action with
  | outboundHasRoom =>
    refine { h with room := ?_ }
    intro hobserved
    rcases (Bool.or_eq_true _ _).mp hobserved with hbefore | hroom
    · exact h.room hbefore
    · exact hroom
  | outboundReadyOrRegister waker => exact h.outboundReadyOrRegister waker
  | queueOutbound datagram =>
    rw [Outbound.act]
    split
    · exact h.queueOutbound ‹_› datagram
    · exact h
  | queueCloseOutbound datagram => exact h.queueCloseOutbound datagram
  | takeOutbound => exact h.takeOutbound
  | wakeNext =>
    have hsame : q.capacity.wakeNext.registered = q.capacity.registered := by
      rw [WakerLists.wakeNext]
      split <;> rfl
    refine { h with full := ?_, heeding := fun waker hwaker => (h.heeding waker hwaker).wakeNext }
    exact fun hne => h.full (hsame ▸ hne)

theorem sound_run (actions : List (Action ω)) : Sound (Outbound.run actions) := by
  induction actions using List.reverseRecOn with
  | nil =>
    exact ⟨Nat.zero_le _, fun _ => rfl, rfl, rfl, atEach_nil, rfl, fun hne => absurd rfl hne, by simp [Outbound.run]⟩
  | append_singleton actions action ih =>
    rw [Outbound.run, List.foldl_concat]
    exact sound_act ih action

/-- In every run of the producer, of whoever closes and of the endpoint, neither assertion fires, at most so many
datagrams wait, they are taken in the order in which they were queued, the first close behind all that was queued
before it was taken, and who waits for room is not asleep beside it. -/
theorem outboundQueue_reached (actions : List (Action ω)) :
    let q := Outbound.run actions
    q.panicked = false ∧ q.depth ≤ datagramQueue ∧
      q.taken.filterMap Taken.data? ++ q.shared.outbound = q.queued ∧ AtEach Behind q.taken ∧
      (q.taken.filterMap Taken.close? ++ q.shared.closeOutbound.toList).head? = q.offered.head? ∧
      (q.capacity.registered () ≠ [] → q.shared.outbound.length = outboundDataQueue) ∧
      ∀ waker ∈ q.parked, q.capacity.Asleep () waker → q.shared.outbound.length = outboundDataQueue := by
  intro q
  have h : Sound q := sound_run actions
  have hle := h.bound
  have hfull : q.shared.outboundHasRoom = false → q.shared.outbound.length = outboundDataQueue := by
    intro hno
    simp only [ConnectionShared.outboundHasRoom, decide_eq_false_iff_not] at hno
    omega
  have hdepth : q.depth ≤ datagramQueue := by
    have hclose := q.shared.closeOutbound.length_toList_le
    simp only [Outbound.depth, outboundDataQueue, datagramQueue] at hle ⊢
    omega
  refine ⟨h.calm, hdepth, h.order, h.behind, h.first, fun hne => hfull (h.full hne), ?_⟩
  intro waker hwaker hasleep
  exact hfull (by simpa using (h.heeding waker hwaker).not_of_asleep hasleep)

end Ngnet.QuicOutboundQueue
