import Ngnet.StatefulPrograms

/-!
# Loops with a measure

A loop given by its turn, which either ends it with a value or goes on from a new position. A
turn that never runs out of fuel itself, and goes on only to a position of smaller measure,
makes a loop that ends whatever its environment answers: more fuel than the measure changes
nothing, and what the turns cost is paid out of the allowance of the position it started at,
of which a value may hand back a part.
-/

namespace Ngnet.MeasuredLoops
open StatefulPrograms

variable {ε σ ι α : Type}

/-- How a turn of a loop ends. -/
inductive Turn (ι α : Type)
  | done (value : α)
  | more (position : ι)

def loop (turn : ι → Program ε σ (Turn ι α)) : ℕ → ι → Program ε σ α
  | 0, _ => outOfFuel
  | fuel + 1, i => do
    match ← turn i with
    | .done a => pure a
    | .more j => loop turn fuel j

/-- A loop whose positions satisfy `I` and whose values satisfy `Q`. -/
structure Measured (ε σ ι α : Type) where
  turn : ι → Program ε σ (Turn ι α)
  I : ι → Prop
  Q : ι → α → Prop
  measure : ι → ℕ
  cost : σ → ℕ
  allowance : ι → ℕ
  left : α → ℕ

/-- What is asked of a turn at `i`: it ends, it goes on only to a smaller position that
promises no more, and it leaves what it did not spend. -/
def Measured.Descends (l : Measured ε σ ι α) : Prop :=
  ∀ i s, l.I i → Ensures (l.turn i) s
    (fun next t => match next with
      | .done a => l.Q i a ∧ l.cost t + l.left a ≤ l.cost s + l.allowance i
      | .more j => l.I j ∧ l.measure j < l.measure i ∧ (∀ a, l.Q j a → l.Q i a) ∧
          l.cost t + l.allowance j ≤ l.cost s + l.allowance i)
    fun e t => (∃ error, e = .failed error) ∧ l.cost t ≤ l.cost s + l.allowance i

section Descends
variable {l : Measured ε σ ι α}

theorem Measured.Descends.ensures (h : l.Descends) {fuel : ℕ} {i : ι} {s : σ} (hi : l.I i)
    (hfuel : l.measure i < fuel) :
    Ensures (loop l.turn fuel i) s (fun a t => l.Q i a ∧ l.cost t + l.left a ≤ l.cost s + l.allowance i)
      fun e t => (∃ error, e = .failed error) ∧ l.cost t ≤ l.cost s + l.allowance i := by
  induction fuel generalizing i s with
  | zero => omega
  | succ fuel ih =>
    rw [loop]
    refine ensures_bind.mpr ((h i s hi).mono ?_ fun _ _ => id)
    rintro (a | j) t hturn
    · exact ensures_pure.mpr hturn
    · obtain ⟨hj, hless, hvalue, hcost⟩ := hturn
      refine (ih hj (by omega)).mono ?_ ?_
      · rintro a u ⟨ha, hu⟩
        exact ⟨hvalue a ha, by omega⟩
      · rintro e u ⟨he, hu⟩
        exact ⟨he, by omega⟩

theorem Measured.Descends.fuel (h : l.Descends) {fuel : ℕ} {i : ι} {s : σ} (hi : l.I i)
    (hfuel : l.measure i < fuel) (extra : ℕ) :
    loop l.turn (fuel + extra) i s = loop l.turn fuel i s := by
  induction fuel generalizing i s with
  | zero => omega
  | succ fuel ih =>
    rw [Nat.add_right_comm, loop, loop, bind_apply, bind_apply]
    obtain ⟨next, t, hrun, hnext⟩ | ⟨e, t, hrun, -⟩ := (h i s hi).cases
    · rw [hrun]
      cases next with
      | done a => rfl
      | more j =>
        obtain ⟨hj, hless, -, -⟩ := hnext
        exact ih hj (by omega)
    · rw [hrun]

end Descends

end Ngnet.MeasuredLoops
