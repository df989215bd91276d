import Ngnet.Http3DriverSteps
import Ngnet.Http3Operations

/-!
# Replaying what an HTTP/3 driver has performed

What only the driver reads and writes is a function of what it has performed, whatever others do in
between. So a result about it is one about the paths of its program, on those answers that the
operations on it have really given.
-/

namespace Ngnet.Http3Replay
open QmuxVarints QmuxStreams Http3Heads Http3Handles Http3Conn Http3Driver Http3Passes InterleavedPrograms
open OperationTraces Http3Operations Http3DriverSteps

variable {β ν η α : Type}

/-! ## The driver's own variables -/

def localsStep (l : Locals) : Performed (Op β ν) → Locals
  | ⟨.locally f, _⟩ => (f l).2
  | _ => l

def localsAfter (l : Locals) (t : List (Performed (Op β ν))) : Locals := t.foldl localsStep l

/-- The operation has given the answer that the variables say. -/
def Answers (l : Locals) : Performed (Op β ν) → Prop
  | ⟨.locally f, answer⟩ => answer = (f l).1
  | _ => True

/-- All of them have. -/
def Honest : Locals → List (Performed (Op β ν)) → Prop
  | _, [] => True
  | l, x :: t => Answers l x ∧ Honest (localsStep l x) t

@[simp] theorem localsAfter_append (l : Locals) (t t' : List (Performed (Op β ν))) :
    localsAfter l (t ++ t') = localsAfter (localsAfter l t) t' := by
  simp [localsAfter]

theorem honest_append {l : Locals} {t t' : List (Performed (Op β ν))} :
    Honest l (t ++ t') ↔ Honest l t ∧ Honest (localsAfter l t) t' := by
  induction t generalizing l with
  | nil => simp [Honest, localsAfter]
  | cons x t ih => simp [Honest, localsAfter, ih, and_assoc]

section Runs
variable [QuicConnection β] [Nghttp3 ν] [Handlers η]

theorem locals_applyOp (w : World β ν η) (op : Op β ν α) :
    (applyOp w op).2.driver.locals = localsStep w.driver.locals ⟨op, (applyOp w op).1⟩ := by
  cases op with
  | locally f => rfl
  | callback call =>
    cases call with
    | _ => rfl
  | readData stream veccnt =>
    rw [applyOp]
    generalize w.driver.conn.readData stream veccnt = read
    obtain ⟨answer, _ | ending, conn⟩ := read
    · rfl
    · rfl
  | returnCredit =>
    rw [applyOp]
    split
    · rfl
    · dsimp only [World.onDriver]
      split
      · rfl
      · rfl
  | passObservation =>
    rw [applyOp]
    dsimp only [World.onDriver]
    split
    · rfl
    · rfl
    · rfl
  | deliverData =>
    rw [applyOp]
    dsimp only
    split
    · rename_i stream bytes taken htaken
      obtain ⟨exchanges, heq⟩ := driver_onIncoming (w.onDriver fun d => { d with taken }) stream (·.push bytes)
      rw [heq]
      rfl
    · rfl
  | deliverEnd stream =>
    obtain ⟨exchanges, heq⟩ := driver_onIncoming w stream (·.endOfMessage)
    rw [applyOp, heq]
    rfl
  | deliverTrailers stream fields =>
    obtain ⟨exchanges, heq⟩ := driver_onIncoming w stream (·.setTrailers fields)
    rw [applyOp, heq]
    rfl
  | completeSlot stream head =>
    obtain ⟨exchanges, heq⟩ := driver_onSlot w stream (·.complete head)
    rw [applyOp, heq]
    rfl
  | retireBody | failLeaving | abandonNext | cancel | refuse =>
    rw [applyOp]
    dsimp only
    split
    · rfl
    · rfl
  | enterHand =>
    rw [applyOp, World.enterHand]
    split
    · rfl
    · rfl
  | retireSlot | finishEntry | pop | takeEnding =>
    rw [applyOp]
    split
    · rfl
    · rfl
  | leavingSettled | admitRequest =>
    rw [applyOp]
    split
    · rfl
    split
    · rfl
    · rfl
  | pollHandler stream =>
    rw [applyOp]
    split
    · dsimp only
      split
      · rfl
      · rfl
    · rfl
  | _ => rfl

variable [Http] {role : Role} {config : Http3Passes.Config} {fuel : ℕ} {backend : β} {raw : ν} {handlers : η}
  {choices : List (Choice Common.Action)}

theorem locals_reached : Honest {} (trace (connection role config fuel) (newWorld role backend raw handlers) choices) ∧
    ((connection role config fuel).reached (newWorld role backend raw handlers) choices).state.driver.locals =
      localsAfter {} (trace (connection role config fuel) (newWorld role backend raw handlers) choices) := by
  have hcareful : (connection role config fuel).Careful (newWorld role backend raw handlers) (fun _ _ => True)
      (fun _ _ => True) choices := careful_of_forall (fun _ _ => True.intro) fun _ _ => True.intro
  refine trace_invariant (I := fun t (w : World β ν η) => Honest {} t ∧ w.driver.locals = localsAfter {} t)
    ⟨True.intro, rfl⟩ ?_ ?_ hcareful
  · intro α op t w hI _
    obtain ⟨hhonest, hlocals⟩ := hI
    constructor
    · rw [honest_append]
      refine ⟨hhonest, ?_, True.intro⟩
      rw [← hlocals]
      cases op with
      | _ => first
        | exact True.intro
        | rfl
    · rw [localsAfter_append, ← hlocals]
      exact locals_applyOp w op
  · intro action t w hI _
    exact hI

end Runs

end Ngnet.Http3Replay
