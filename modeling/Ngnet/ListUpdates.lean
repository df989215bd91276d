import Mathlib.Algebra.GroupWithZero.Nat
import Mathlib.Data.List.Basic
import Mathlib.Tactic.Common

/-!
# Lists of which one entry changes

What is said of the entries of a list, or counted among them, when the entry at one place is changed.
-/

namespace Ngnet.ListUpdates

variable {α : Type} {p : α → Bool} {f : α → α} {l : List α} {i j : ℕ} {a b : α}

theorem getElem?_modify_some (h : (l.modify i f)[j]? = some b) :
    (j = i ∧ ∃ a, l[i]? = some a ∧ b = f a) ∨ j ≠ i ∧ l[j]? = some b := by
  by_cases hij : i = j
  · subst hij
    rw [List.getElem?_modify_eq] at h
    obtain ⟨a, ha, hb⟩ := Option.map_eq_some_iff.mp h
    exact .inl ⟨rfl, a, ha, hb.symm⟩
  · rw [List.getElem?_modify_ne _ _ hij] at h
    exact .inr ⟨fun heq => hij heq.symm, h⟩

theorem getElem?_concat_some (h : (l ++ [a])[j]? = some b) :
    (j = l.length ∧ b = a) ∨ j < l.length ∧ l[j]? = some b := by
  rw [List.getElem?_append] at h
  split at h
  · rename_i hj
    exact .inr ⟨hj, h⟩
  · have hj := (List.getElem?_eq_some_iff.mp h).1
    simp only [List.length_singleton] at hj
    exact .inl ⟨by omega, List.mem_singleton.mp (List.mem_of_getElem? h)⟩

theorem countP_modify (h : l[i]? = some a) :
    (l.modify i f).countP p + (if p a then 1 else 0) = l.countP p + if p (f a) then 1 else 0 := by
  induction l generalizing i with
  | nil => simp at h
  | cons b l ih =>
    cases i with
    | zero =>
      obtain rfl : b = a := by simpa using h
      simp only [List.modify_zero_cons, List.countP_cons]
      omega
    | succ i =>
      simp only [List.modify_succ_cons, List.countP_cons]
      have := ih (i := i) (by simpa using h)
      omega

theorem sum_map_modify {g : α → ℕ} (h : l[i]? = some a) :
    ((l.modify i f).map g).sum + g a = (l.map g).sum + g (f a) := by
  induction l generalizing i with
  | nil => simp at h
  | cons b l ih =>
    cases i with
    | zero =>
      obtain rfl : b = a := by simpa using h
      simp only [List.modify_zero_cons, List.map_cons, List.sum_cons]
      omega
    | succ i =>
      simp only [List.modify_succ_cons, List.map_cons, List.sum_cons]
      have := ih (i := i) (by simpa using h)
      omega

theorem countP_modify_of_eq (h : l[i]? = some a) (hp : p (f a) = p a) : (l.modify i f).countP p = l.countP p := by
  have := countP_modify (p := p) (f := f) h
  rw [hp] at this
  omega

theorem map_modify_of_eq {β : Type*} {g : α → β} (hg : ∀ a, g (f a) = g a) (l : List α) (i : ℕ) :
    (l.modify i f).map g = l.map g := by
  induction l generalizing i with
  | nil => simp
  | cons b l ih =>
    cases i with
    | zero => simp [hg]
    | succ i => simp [ih]

end Ngnet.ListUpdates
