import Mathlib.Data.List.Induction
import Mathlib.Logic.Function.Basic
import Ngnet.QmuxStreams

/-!
# The handlers of an HTTP/3 server

`http/tasks.rs`: the driver holds the futures that answer requests, each with a waker that marks its stream and then
wakes the driver. A waker checks first that its handler is still held. The check, the mark and the wake are steps of
their own, between which the driver may poll, forget or start handlers, look for marks under its own waker, and park.
-/

namespace Ngnet.Http3HandlerTasks
open QmuxStreams

inductive Phase | passing | registered | parked
  deriving DecidableEq

/-- `Tasks` with `Ready`, and the driver around them. `running` tells the liveness token of the handler of a stream.
`waking` are the streams whose wakers have found their handler and not marked it, `announcing` the number of those that
have marked it and not woken the driver, `taken` the marks that the driver has taken and not come to, and `due` tells
of a handler that its waker was used, or that it was started, since it was polled last. -/
structure Tasks where
  running : StreamId → Option ℕ := fun _ => none
  tokens : ℕ := 0
  ready : List StreamId := []
  waking : List StreamId := []
  announcing : ℕ := 0
  taken : List StreamId := []
  due : StreamId → Bool := fun _ => false
  phase : Phase := .passing
  hasWaker : Bool := false
  woken : Bool := false

inductive Action
  /-- A waker with this token is used. -/
  | wake (stream : StreamId) (token : ℕ)
  | mark
  | wakeDriver
  | start (stream : StreamId)
  | takeWoken
  /-- The next handler is polled, and finishes or not. -/
  | poll (finishes : Bool)
  | forget (stream : StreamId)
  | abandonAll
  /-- The driver goes to park, or is polled there. -/
  | refresh
  | check

namespace Tasks

/-- `Ready::mark`. -/
def marked (ready : List StreamId) (stream : StreamId) : List StreamId :=
  if stream ∈ ready then ready else ready ++ [stream]

/-- The liveness check. -/
def wake (t : Tasks) (stream : StreamId) (token : ℕ) : Tasks :=
  if t.running stream = some token then
    { t with waking := t.waking ++ [stream], due := Function.update t.due stream true }
  else t

def mark (t : Tasks) : Tasks :=
  match t.waking with
  | [] => t
  | stream :: waking => { t with waking, ready := marked t.ready stream, announcing := t.announcing + 1 }

/-- The waker of the driver is looked for, and used where it is there. -/
def wakeDriver (t : Tasks) : Tasks :=
  if t.announcing = 0 then t else { t with announcing := t.announcing - 1, woken := t.woken || t.hasWaker }

def start (t : Tasks) (stream : StreamId) : Tasks :=
  { t with
    running := Function.update t.running stream (some t.tokens)
    tokens := t.tokens + 1
    ready := marked t.ready stream
    due := Function.update t.due stream true }

def takeWoken (t : Tasks) : Tasks := if t.taken = [] then { t with taken := t.ready, ready := [] } else t

def forget (t : Tasks) (stream : StreamId) : Tasks :=
  { t with running := Function.update t.running stream none, ready := t.ready.filter (· ≠ stream) }

/-- A stream without a handler is passed over. -/
def poll (t : Tasks) (finishes : Bool) : Tasks :=
  match t.taken with
  | [] => t
  | stream :: taken =>
    let t := { t with taken }
    if (t.running stream).isNone then t
    else
      let t := { t with due := Function.update t.due stream false }
      if finishes then t.forget stream else t

/-- A driver that is parked is polled only where it was woken. A batch is dealt with before the driver parks. -/
def refresh (t : Tasks) : Tasks :=
  if t.phase = .parked then if t.woken then { t with phase := .registered, hasWaker := true, woken := false } else t
  else if t.taken = [] then { t with phase := .registered, hasWaker := true } else t

def check (t : Tasks) : Tasks :=
  if t.phase = .registered then { t with phase := if t.ready = [] then .parked else .passing } else t

def whilePassing (t : Tasks) (f : Tasks → Tasks) : Tasks := if t.phase = .passing then f t else t

def act (t : Tasks) : Action → Tasks
  | .wake stream token => t.wake stream token
  | .mark => t.mark
  | .wakeDriver => t.wakeDriver
  | .start stream => t.whilePassing (·.start stream)
  | .takeWoken => t.whilePassing takeWoken
  | .poll finishes => t.whilePassing (·.poll finishes)
  | .forget stream => t.whilePassing (·.forget stream)
  | .abandonAll => t.whilePassing ({ · with running := fun _ => none })
  | .refresh => t.refresh
  | .check => t.check

def run (actions : List Action) : Tasks := actions.foldl act {}

end Tasks

/-- A handler that is due is marked, or about to be, or in the batch. A driver that parks has no batch and a waker, and
where it is parked over a mark its wake is there or on its way. -/
structure Sound (t : Tasks) : Prop where
  due : ∀ stream, (t.running stream).isSome → t.due stream = true → stream ∈ t.ready ∨ stream ∈ t.waking ∨ stream ∈ t.taken
  batch : t.phase ≠ .passing → t.taken = [] ∧ t.hasWaker = true
  parked : t.phase = .parked → t.ready ≠ [] → t.woken = true ∨ t.announcing ≠ 0

variable {t : Tasks}

theorem mem_marked (ready : List StreamId) (stream other : StreamId) :
    other ∈ Tasks.marked ready stream ↔ other = stream ∨ other ∈ ready := by
  rw [Tasks.marked]
  split
  · simp_all
  · simp [or_comm]

theorem Sound.wake (h : Sound t) (stream : StreamId) (token : ℕ) : Sound (t.wake stream token) := by
  rw [Tasks.wake]
  split
  · refine { h with due := ?_ }
    intro other hrunning hdue
    dsimp only at hrunning hdue ⊢
    by_cases heq : other = stream
    · simp [heq]
    · rw [Function.update_of_ne heq] at hdue
      exact (h.due other hrunning hdue).imp_right fun h => h.imp_left (List.mem_append_left _)
  · exact h

theorem Sound.mark (h : Sound t) : Sound t.mark := by
  rw [Tasks.mark]
  split
  · exact h
  · rename_i stream waking hwaking
    refine { h with due := ?_, parked := fun _ _ => .inr (Nat.succ_ne_zero _) }
    intro other hrunning hdue
    have hplace := h.due other hrunning hdue
    rw [hwaking, List.mem_cons] at hplace
    dsimp only
    rw [mem_marked]
    tauto

theorem Sound.wakeDriver (h : Sound t) : Sound t.wakeDriver := by
  rw [Tasks.wakeDriver]
  split
  · exact h
  · refine { h with parked := ?_ }
    intro hparked _
    have hwaker : t.hasWaker = true := (h.batch (by rw [hparked]; decide)).2
    simp [hwaker]

theorem Sound.start (h : Sound t) (hpassing : t.phase = .passing) (stream : StreamId) : Sound (t.start stream) := by
  refine { h with due := ?_, parked := fun hparked => ?_ }
  · intro other hrunning hdue
    simp only [Tasks.start, mem_marked] at hrunning hdue ⊢
    by_cases heq : other = stream
    · exact .inl (.inl heq)
    · rw [Function.update_of_ne heq] at hrunning hdue
      exact (h.due other hrunning hdue).imp_left .inr
  · cases hpassing.symm.trans hparked

theorem Sound.takeWoken (h : Sound t) (hpassing : t.phase = .passing) : Sound t.takeWoken := by
  rw [Tasks.takeWoken]
  split
  · rename_i htaken
    refine ⟨?_, fun hphase => absurd hpassing hphase, fun hparked => ?_⟩
    · intro other hrunning hdue
      have hplace := h.due other hrunning hdue
      rw [htaken] at hplace
      simpa [or_comm] using hplace
    · cases hpassing.symm.trans hparked
  · exact h

theorem Sound.forget (h : Sound t) (hpassing : t.phase = .passing) (stream : StreamId) : Sound (t.forget stream) := by
  refine { h with due := ?_, parked := fun hparked => ?_ }
  · intro other hrunning hdue
    simp only [Tasks.forget] at hrunning hdue ⊢
    by_cases heq : other = stream
    · simp [heq] at hrunning
    · rw [Function.update_of_ne heq] at hrunning
      simpa [heq] using h.due other hrunning hdue
  · cases hpassing.symm.trans hparked

theorem Sound.poll (h : Sound t) (hpassing : t.phase = .passing) (finishes : Bool) : Sound (t.poll finishes) := by
  rw [Tasks.poll]
  split
  · exact h
  · rename_i stream taken htaken
    -- the stream leaves the batch, and nothing is due on it
    have hleft : ∀ due, (∀ other, other ≠ stream → due other = t.due other) →
        ((t.running stream).isSome → due stream = false) → Sound { t with taken, due } := by
      intro due hothers hnone
      refine ⟨?_, fun hphase => absurd hpassing hphase, fun hparked => ?_⟩
      · intro other hrunning hdue
        dsimp only at hrunning hdue ⊢
        by_cases heq : other = stream
        · rw [heq] at hrunning hdue
          simp [hnone hrunning] at hdue
        · rw [hothers other heq] at hdue
          have hplace := h.due other hrunning hdue
          simpa [htaken, heq] using hplace
      · cases hpassing.symm.trans hparked
    dsimp only
    split
    · rename_i hnone
      exact hleft t.due (fun _ _ => rfl) fun hsome => by simp_all
    · have hpolled : Sound { t with taken, due := Function.update t.due stream false } :=
        hleft _ (fun other heq => Function.update_of_ne heq _ _) fun _ => Function.update_self ..
      split
      · exact hpolled.forget hpassing stream
      · exact hpolled

theorem Sound.refresh (h : Sound t) : Sound t.refresh := by
  rw [Tasks.refresh]
  split
  · rename_i hparked
    split
    · exact ⟨h.due, fun _ => ⟨(h.batch (by rw [hparked]; decide)).1, rfl⟩, fun hphase => by cases hphase⟩
    · exact h
  · split
    · rename_i htaken
      exact ⟨h.due, fun _ => ⟨htaken, rfl⟩, fun hphase => by cases hphase⟩
    · exact h

theorem Sound.check (h : Sound t) : Sound t.check := by
  rw [Tasks.check]
  split
  · rename_i hphase
    have hbatch := h.batch (by rw [hphase]; decide)
    split
    · rename_i hready
      exact ⟨h.due, fun _ => hbatch, fun _ hne => absurd hready hne⟩
    · exact ⟨h.due, fun _ => hbatch, fun hphase => by cases hphase⟩
  · exact h

theorem Sound.whilePassing (h : Sound t) (f : Tasks → Tasks) (hf : t.phase = .passing → Sound (f t)) :
    Sound (t.whilePassing f) := by
  rw [Tasks.whilePassing]
  split
  · exact hf ‹_›
  · exact h

theorem sound_act (h : Sound t) (action : Action) : Sound (t.act action) := by
  cases action with
  | wake stream token => exact h.wake stream token
  | mark => exact h.mark
  | wakeDriver => exact h.wakeDriver
  | refresh => exact h.refresh
  | check => exact h.check
  | start stream => exact h.whilePassing (·.start stream) fun hpassing => h.start hpassing stream
  | takeWoken => exact h.whilePassing _ h.takeWoken
  | poll finishes => exact h.whilePassing (·.poll finishes) fun hpassing => h.poll hpassing finishes
  | forget stream => exact h.whilePassing (·.forget stream) fun hpassing => h.forget hpassing stream
  | abandonAll => exact h.whilePassing ({ · with running := fun _ => none }) fun _ => { h with due := by simp }

theorem sound_run (actions : List Action) : Sound (Tasks.run actions) := by
  induction actions using List.reverseRecOn with
  | nil => exact ⟨by simp [Tasks.run], fun hphase => absurd rfl hphase, fun _ hne => absurd rfl hne⟩
  | append_singleton actions action ih =>
    rw [Tasks.run, List.foldl_concat]
    exact sound_act ih action

end Ngnet.Http3HandlerTasks
