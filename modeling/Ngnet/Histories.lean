import Mathlib.Data.List.Induction

/-!
# Histories

What holds of each entry of a list and the entries before it. A history that grows at its end keeps such a property
if the new entries have it.
-/

namespace Ngnet.Histories

variable {α : Type*} {P Q : List α → α → Prop} {h t : List α} {a : α}

/-- `P` holds of each entry and of what came before it. -/
def AtEach (P : List α → α → Prop) (h : List α) : Prop := ∀ before a after, h = before ++ a :: after → P before a

theorem atEach_nil : AtEach P [] := by
  intro before a after heq
  simp at heq

theorem atEach_concat : AtEach P (h ++ [a]) ↔ AtEach P h ∧ P h a := by
  constructor
  · intro hall
    constructor
    · intro before b after heq
      exact hall before b (after ++ [a]) (by simp [heq])
    · exact hall h a [] rfl
  · rintro ⟨hall, ha⟩ before b after heq
    induction after using List.reverseRecOn with
    | nil =>
      obtain ⟨rfl, hb⟩ := List.append_inj' heq rfl
      cases hb
      exact ha
    | append_singleton after c _ =>
      rw [← List.cons_append, ← List.append_assoc] at heq
      obtain ⟨rfl, -⟩ := List.append_inj' heq rfl
      exact hall before b after rfl

theorem atEach_iff_take : AtEach P h ↔ ∀ i (hi : i < h.length), P (h.take i) h[i] := by
  constructor
  · intro hall i hi
    refine hall _ _ (h.drop (i + 1)) ?_
    rw [List.getElem_cons_drop, List.take_append_drop]
  · rintro hall before a after rfl
    simpa using hall before.length (by simp)

theorem AtEach.append (hall : AtEach P h) (ht : ∀ a ∈ t, ∀ before, P before a) : AtEach P (h ++ t) := by
  induction t using List.reverseRecOn with
  | nil => simpa using hall
  | append_singleton t a ih =>
    rw [← List.append_assoc, atEach_concat]
    exact ⟨ih fun b hb => ht b (List.mem_append_left _ hb), ht a (by simp) _⟩

theorem AtEach.left (hall : AtEach P (h ++ t)) : AtEach P h := by
  intro before a after heq
  exact hall before a (after ++ t) (by simp [heq])

end Ngnet.Histories
