import Ngnet.Http3DriverSteps
import Ngnet.Http3HandleSteps
import Ngnet.Http3Discipline

/-!
# Where the state of a driver agrees with what it holds

`Tracks` ties what the protocol `desk` says to the state of the connection. Others only ever push to
the queue, and not while it is locked, so the two agree in every run. From this every invariant of a
run may rest on what the protocol allows.
-/

namespace Ngnet.Http3Tracking
open QmuxVarints QmuxStreams Http3Heads Http3Handles Http3Conn Http3Driver Http3Passes InterleavedPrograms
open Http3DriverSteps Http3HandleSteps Http3Discipline

variable {β ν η α : Type}

/-! ## What is held -/

def handState : Option Hand → HandState
  | none => .empty
  | some hand => if hand.admitted then .admitted else .popped

/-- The commands that are left in the queue while it is locked. -/
def locked (c : Common) : Option ℕ := if c.queueLocked then some c.queue.length else none

/-- What the state says about the driver's hands, its locks and its registry. -/
structure Tracks (strict : Prop) (w : World β ν η) (k : Desk) : Prop where
  hand : handState w.driver.hand = k.hand
  slots : w.driver.leavingSlots.length = k.slots
  bodies : w.driver.leavingBodies.length = k.bodies
  queued : locked w.common = k.queued
  cleared : k.cleared = true → w.driver.registry = {}
  swept : k.swept = true → w.common.queueAbandoned = true
  kept : strict → w.driver.pushbackError = none

section Steps
variable [QuicConnection β] [Nghttp3 ν] [Handlers η] [Http] {strict : Prop} {role : Role} {w : World β ν η} {k : Desk}

omit [QuicConnection β] [Nghttp3 ν] [Handlers η] [Http] in
theorem Tracks.of_still {w' : World β ν η} (h : Tracks strict w k) (hstill : Still w w') : Tracks strict w' k where
  hand := hstill.hand ▸ h.hand
  slots := hstill.leavingSlots ▸ h.slots
  bodies := hstill.leavingBodies ▸ h.bodies
  queued := by rw [locked, hstill.queueLocked, hstill.queue, ← locked, h.queued]
  cleared := hstill.registry ▸ h.cleared
  swept := hstill.queueAbandoned ▸ h.swept
  kept := hstill.pushbackError ▸ h.kept

omit [Http] in
theorem not_errorKept (h : Tracks strict w k) (hstrict : strict) (op : Op β ν α) :
    errorKept op (applyOp w op).1 = false := by
  cases op with
  | takeError => simp only [applyOp, h.kept hstrict, errorKept]
  | _ => rfl

omit [QuicConnection β] [Nghttp3 ν] [Http] in
theorem next_of_idle {op : Op β ν α} (h : idle op = true) (a : α) : k.next op a = k := by
  cases op with
  | _ => first
    | exact (Bool.false_ne_true h).elim
    | rfl

omit [Http] in
theorem tracks_applyOp (h : Tracks strict w k) (op : Op β ν α) (hallows : k.allows strict role op) :
    Tracks strict (applyOp w op).2 (k.next op (applyOp w op).1) := by
  by_cases hidle : idle op = true
  · rw [next_of_idle hidle]
    exact h.of_still (still_applyOp w hidle)
  obtain ⟨hhand, hslots, hbodies, hqueued, hcleared, hswept, hkept⟩ := h
  cases op with
  | callback call =>
    cases call with
    | _ => exact ⟨hhand, hslots, hbodies, hqueued, hcleared, hswept, hkept⟩
  | takeDeferredCredit | drainWork | drainObserved | discardClosedSince | giveStream =>
    exact ⟨hhand, hslots, hbodies, hqueued, hcleared, hswept, hkept⟩
  | keepError error => exact ⟨hhand, hslots, hbodies, hqueued, hcleared, hswept, fun hstrict => (hallows hstrict).elim⟩
  | takeError => exact ⟨hhand, hslots, hbodies, hqueued, hcleared, hswept, fun _ => rfl⟩
  | returnCredit =>
    rw [applyOp]
    split
    · exact ⟨hhand, hslots, hbodies, hqueued, hcleared, hswept, hkept⟩
    · dsimp only [World.onDriver]
      split
      · exact ⟨hhand, hslots, hbodies, hqueued, hcleared, hswept, hkept⟩
      · exact ⟨hhand, hslots, hbodies, hqueued, hcleared, hswept, hkept⟩
  | passObservation =>
    rw [applyOp]
    dsimp only [World.onDriver]
    split
    · exact ⟨hhand, hslots, hbodies, hqueued, hcleared, hswept, hkept⟩
    · exact ⟨hhand, hslots, hbodies, hqueued, hcleared, hswept, hkept⟩
    · exact ⟨hhand, hslots, hbodies, hqueued, hcleared, hswept, hkept⟩
  | deliverData =>
    rw [applyOp]
    dsimp only
    split
    · rename_i stream bytes taken htaken
      obtain ⟨exchanges, heq⟩ := driver_onIncoming (w.onDriver fun d => { d with taken }) stream (·.push bytes)
      rw [heq]
      exact ⟨hhand, hslots, hbodies, hqueued, hcleared, hswept, hkept⟩
    · exact ⟨hhand, hslots, hbodies, hqueued, hcleared, hswept, hkept⟩
  | deliverEnd stream =>
    obtain ⟨exchanges, heq⟩ := driver_onIncoming w stream (·.endOfMessage)
    rw [applyOp, heq]
    exact ⟨hhand, hslots, hbodies, hqueued, hcleared, hswept, hkept⟩
  | deliverTrailers stream fields =>
    obtain ⟨exchanges, heq⟩ := driver_onIncoming w stream (·.setTrailers fields)
    rw [applyOp, heq]
    exact ⟨hhand, hslots, hbodies, hqueued, hcleared, hswept, hkept⟩
  | completeSlot stream head =>
    obtain ⟨exchanges, heq⟩ := driver_onSlot w stream (·.complete head)
    rw [applyOp, heq]
    exact ⟨hhand, hslots, hbodies, hqueued, hcleared, hswept, hkept⟩
  | retireSlot stream error =>
    rw [applyOp]
    split
    · exact ⟨hhand, hslots, hbodies, hqueued, hcleared, hswept, hkept⟩
    · rename_i entry hentry
      obtain ⟨exchanges, heq⟩ := common_failSlots w.common entry.slot error
      dsimp only
      rw [heq]
      refine ⟨hhand, hslots, by simp [Desk.next, hbodies], hqueued, fun h => ?_, hswept, hkept⟩
      simp [DriverState.entry, hcleared h] at hentry
  | retireBody error =>
    rw [applyOp]
    dsimp only
    split
    · rename_i hnone
      have := hnone ▸ hbodies
      exact absurd hallows (by simp [Desk.allows, ← this])
    · rename_i id rest hsome
      rw [hsome, List.length_cons] at hbodies
      exact ⟨hhand, hslots, by simp [Desk.next, ← hbodies], hqueued, hcleared, hswept, hkept⟩
  | finishEntry stream =>
    rw [applyOp]
    split
    · exact ⟨hhand, hslots, hbodies, hqueued, hcleared, hswept, hkept⟩
    · rename_i entry hentry
      have hregistry : k.cleared = true → w.driver.registry.erase stream.val = {} := by
        intro h
        simp [DriverState.entry, hcleared h] at hentry
      obtain ⟨_ | slot, incoming⟩ := entry
      · exact ⟨hhand, by simpa [Desk.next] using hslots, hbodies, hqueued, hregistry, hswept, hkept⟩
      · exact ⟨hhand, by simp [Desk.next, hslots], hbodies, hqueued, hregistry, hswept, hkept⟩
  | leavingSettled =>
    rw [applyOp]
    split
    · rename_i hnone
      have := hnone ▸ hslots
      exact absurd hallows (by simp [Desk.allows, ← this])
    · rename_i id rest hsome
      split
      · rw [hsome, List.length_cons] at hslots
        exact ⟨hhand, by simp [World.onDriver, Desk.next, ← hslots], hbodies, hqueued, hcleared, hswept, hkept⟩
      · exact ⟨hhand, hslots, hbodies, hqueued, hcleared, hswept, hkept⟩
  | failLeaving error =>
    rw [applyOp]
    dsimp only
    split
    · rename_i hnone
      have := hnone ▸ hslots
      exact absurd hallows (by simp [Desk.allows, ← this])
    · rename_i id rest hsome
      rw [hsome, List.length_cons] at hslots
      exact ⟨hhand, by simp [Desk.next, ← hslots], hbodies, hqueued, hcleared, hswept, hkept⟩
  | takeAll =>
    refine ⟨hhand, ?_, ?_, hqueued, fun _ => rfl, hswept, hkept⟩
    · simp [applyOp, World.onDriver, Desk.next, hslots]
    · simp [applyOp, World.onDriver, Desk.next, hbodies]
  | pop =>
    obtain ⟨hempty, hnone, -⟩ := hallows
    rw [applyOp]
    split
    · refine ⟨rfl, hslots, hbodies, ?_, hcleared, hswept, hkept⟩
      simp_all [locked, Desk.next]
    · exact ⟨hhand, hslots, hbodies, hqueued, hcleared, hswept, hkept⟩
  | admitRequest =>
    rw [applyOp]
    split
    · rename_i hnone
      exact ⟨congrArg handState hnone, hslots, hbodies, hqueued, hcleared, hswept, hkept⟩
    · split
      · exact ⟨rfl, hslots, hbodies, hqueued, hcleared, hswept, hkept⟩
      · exact ⟨rfl, hslots, hbodies, hqueued, hcleared, hswept, hkept⟩
  | refuse error =>
    rw [applyOp]
    dsimp only
    split
    · rename_i hnone
      exact ⟨hnone ▸ rfl, hslots, hbodies, hqueued, hcleared, hswept, hkept⟩
    · exact ⟨rfl, hslots, hbodies, hqueued, hcleared, hswept, hkept⟩
  | enterHand ending =>
    rw [applyOp, World.enterHand]
    split
    · exact ⟨rfl, hslots, hbodies, hqueued, by rintro ⟨⟩, hswept, hkept⟩
    · rename_i hnone
      exact ⟨hnone ▸ rfl, hslots, hbodies, hqueued, by rintro ⟨⟩, hswept, hkept⟩
  | lockQueue => exact ⟨hhand, hslots, hbodies, rfl, hcleared, hswept, hkept⟩
  | abandonNext =>
    obtain ⟨n, hn⟩ := hallows
    rw [applyOp]
    dsimp only
    split
    · rename_i hnone
      simp [locked, hnone, hn] at hqueued
    · rename_i command queue hsome
      refine ⟨hhand, hslots, hbodies, ?_, hcleared, hswept, hkept⟩
      simp only [locked, hsome, hn] at hqueued
      simp only [locked, World.onCommon, Common.modifySlot, Common.modifyExchange, Desk.next, hn]
      split at hqueued
      · rename_i hlocked
        simp_all
      · cases hqueued
  | unlockQueue => exact ⟨hhand, hslots, hbodies, rfl, hcleared, fun _ => rfl, hkept⟩
  | openExchange stream head => exact ⟨hhand, hslots, hbodies, hqueued, by rintro ⟨⟩, hswept, hkept⟩
  | _ => exact (hidle rfl).elim

omit [QuicConnection β] [Nghttp3 ν] [Handlers η] [Http] in
theorem tracks_act (h : Tracks strict w k) (action : Common.Action) :
    Tracks strict (w.onCommon (·.act action)) k := by
  obtain ⟨hhand, hslots, hbodies, hqueued, hcleared, hswept, hkept⟩ := h
  have hlocked : locked (w.common.act action) = locked w.common ∧
      (w.common.act action).queueAbandoned = w.common.queueAbandoned := by
    have hacts := acts_act w.common action
    generalize w.common.act action = c' at hacts ⊢
    cases hacts with
    | idle hframe => exact ⟨by rw [locked, hframe.queueLocked, hframe.queue, ← locked], hframe.queueAbandoned⟩
    | sent => exact ⟨rfl, rfl⟩
    | pushed hfuture hrequest hunlocked =>
      refine ⟨?_, rfl⟩
      simp [locked, Common.setFuture, Common.modifyExchange, Common.pushCommand, hunlocked]
    | moved _ hframe => exact ⟨by rw [locked, hframe.queueLocked, hframe.queue, ← locked], hframe.queueAbandoned⟩
  exact ⟨hhand, hslots, hbodies, hlocked.1 ▸ hqueued, hcleared, fun h => hlocked.2 ▸ hswept h, hkept⟩

end Steps

/-! ## Runs -/

section Runs
variable [QuicConnection β] [Nghttp3 ν] [Handlers η] [Http] {strict : Prop} {role : Role} {config : Http3Passes.Config}
  {fuel : ℕ} {backend : β} {raw : ν} {handlers : η} {choices : List (Choice Common.Action)}
  {good : {α : Type} → Op β ν α → World β ν η → Prop} {fair : Common.Action → World β ν η → Prop}

/-- No answer reports a failure. -/
def Unfailing (role : Role) (op : Op β ν α) (w : World β ν η) : Prop :=
  connectionFailed op (applyOp w op).1 = false ∧ exchangeFailed role op (applyOp w op).1 = false

theorem expected_of_unfailing {w : World β ν η} {k : Desk} (h : Tracks strict w k) {op : Op β ν α}
    (hop : strict → Unfailing role op w) : (desk strict role).expects op (applyOp w op).1 := by
  intro hstrict
  obtain ⟨hconnection, hexchange⟩ := hop hstrict
  simp only [blamed, hconnection, hexchange, not_errorKept h hstrict op, Bool.or_self]

omit [QuicConnection β] [Nghttp3 ν] [Handlers η] [Http] in
theorem tracks_newWorld : Tracks strict (newWorld role backend raw handlers) {} where
  hand := rfl
  slots := rfl
  bodies := rfl
  queued := rfl
  cleared := nofun
  swept := nofun
  kept _ := rfl

variable (strict)

theorem adheres (hgood : ∀ {α : Type} (op : Op β ν α) w, good op w → strict → Unfailing role op w)
    (h : (connection role config fuel).Careful (newWorld role backend raw handlers) good fair choices) :
    Adheres (desk strict role) (Tracks strict) Desk.Tidy (Desk.Done role) (fun _ _ => ¬strict)
      ((connection role config fuel).reached (newWorld role backend raw handlers) choices) := by
  refine adheres_reached (connection_discipline config fuel) ?_ ?_ tracks_newWorld ⟨rfl, rfl, rfl, rfl⟩ h
  · intro α op w k htracks hop hallows
    exact ⟨expected_of_unfailing htracks (hgood op w hop), tracks_applyOp htracks op hallows⟩
  · intro action w k htracks _
    exact tracks_act htracks action

theorem careful_tracked (hgood : ∀ {α : Type} (op : Op β ν α) w, good op w → strict → Unfailing role op w)
    (h : (connection role config fuel).Careful (newWorld role backend raw handlers) good fair choices) :
    (connection role config fuel).Careful (newWorld role backend raw handlers)
      (fun op w => good op w ∧ ∃ k, Tracks strict w k ∧ (desk strict role).allows k op) fair choices := by
  refine careful_allowed (connection_discipline config fuel) tracks_newWorld ⟨rfl, rfl, rfl, rfl⟩ ?_ ?_ h
  · intro α op w k htracks hop hallows
    exact ⟨expected_of_unfailing htracks (hgood op w hop), tracks_applyOp htracks op hallows⟩
  · intro action w k htracks _
    exact tracks_act htracks action

end Runs

end Ngnet.Http3Tracking
