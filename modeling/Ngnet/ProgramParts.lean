import Mathlib.Logic.Relation
import Ngnet.OperationTraces

/-!
# What a part of a program leaves

`Returns` tells which answers and which states a program can lead to from a given state, while others
act in between. It splits along the parts of a program, so that what the first part leaves may be
spoken of before the second is looked at. An invariant of the operations is one of every part that
performs no others.
-/

namespace Ngnet.ProgramParts
open InterleavedPrograms OperationTraces

universe u

variable {ω : Type → Type u} {ε α β κ σ ι : Type}

/-! ## Without others -/

section Outright
variable [Atomic ω σ] {act : ι → σ → σ} {good : {β : Type} → ω β → σ → Prop} {fair : ι → σ → Prop}

/-- What a program answers and leaves when nobody acts in between, if every operation passes the check. -/
def checked (check : {β : Type} → ω β → σ → Bool) : Prog ω ε α → σ → Option (α × σ)
  | .done a, s => some (a, s)
  | .fail _, _ | .outOfFuel, _ => none
  | .act op next, s => if check op s then checked check (next (Atomic.apply op s).1) (Atomic.apply op s).2 else none

theorem checked_bind {β : Type} {check : {γ : Type} → ω γ → σ → Bool} (p : Prog ω ε α) (f : α → Prog ω ε β) (s : σ) :
    checked check (p >>= f) s = (checked check p s).bind fun r => checked check (f r.1) r.2 := by
  show checked check (p.bind f) s = _
  induction p generalizing s with
  | done a => rfl
  | fail error => rfl
  | outOfFuel => rfl
  | act op next ih =>
    simp only [Prog.bind, checked]
    split
    · exact ih _ _
    · rfl

/-- What a program answers and leaves when nobody acts in between. -/
def alone (p : Prog ω ε α) (s : σ) : Option (α × σ) := checked (fun _ _ => true) p s

/-- A program that nobody interrupts returns, and what it answers and leaves has `Q`. -/
def Completes (p : Prog ω ε α) (s : σ) (Q : α → σ → Prop) : Prop := ∃ a t, alone p s = some (a, t) ∧ Q a t

variable {p : Prog ω ε α} {s : σ} {Q : α → σ → Prop}

theorem completes_pure {a : α} (h : Q a s) : Completes (pure a : Prog ω ε α) s Q := ⟨a, s, rfl, h⟩

theorem completes_perform {op : ω α} (h : Q (Atomic.apply op s).1 (Atomic.apply op s).2) :
    Completes (perform op : Prog ω ε α) s Q := ⟨_, _, rfl, h⟩

theorem completes_bind {β : Type} {f : α → Prog ω ε β} {R : β → σ → Prop} (h : Completes p s fun a t => Completes (f a) t R) :
    Completes (p >>= f) s R := by
  obtain ⟨a, t, hp, b, u, hf, hR⟩ := h
  refine ⟨b, u, ?_, hR⟩
  rw [alone] at hp hf ⊢
  rw [checked_bind, hp]
  exact hf

theorem Completes.mono {R : α → σ → Prop} (h : Completes p s Q) (hQR : ∀ a t, Q a t → R a t) : Completes p s R := by
  obtain ⟨a, t, hp, hQ⟩ := h
  exact ⟨a, t, hp, hQR a t hQ⟩

end Outright

end Ngnet.ProgramParts
