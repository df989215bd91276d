import Mathlib.Data.List.Basic
import Mathlib.Tactic.Common

/-!
# Offers that are taken in parts

A list of regions is offered, and as many elements as the taker likes are taken off its front. What is left over
is a list of regions again: those behind the taken elements, the first of them without what was taken of it.
-/

namespace Ngnet.ShortWrites

variable {α : Type}

/-- What is left of the regions without their first `n` elements. -/
def leftOver : ℕ → List (List α) → List (List α)
  | _, [] => []
  | n, region :: rest => if region.length ≤ n then leftOver (n - region.length) rest else region.drop n :: rest

theorem flatten_leftOver (regions : List (List α)) :
    ∀ n, (leftOver n regions).flatten = regions.flatten.drop n := by
  induction regions with
  | nil => intro n; simp [leftOver]
  | cons region rest ih =>
    intro n
    rw [leftOver, List.flatten_cons, List.drop_append]
    split
    · next h => rw [ih, List.drop_eq_nil_of_le h, List.nil_append]
    · next h => rw [List.flatten_cons, Nat.sub_eq_zero_of_le (by omega), List.drop_zero]

theorem leftOver_ne_nil {regions : List (List α)} :
    ∀ {n}, (∀ region ∈ regions, region ≠ []) → ∀ region ∈ leftOver n regions, region ≠ [] := by
  induction regions with
  | nil => intro n _ region hmem; simp [leftOver] at hmem
  | cons first rest ih =>
    intro n h region hmem
    rw [leftOver] at hmem
    split at hmem
    · exact ih (fun region hmem => h region (List.mem_cons_of_mem _ hmem)) region hmem
    · next hlong =>
      cases hmem with
      | head => simpa using hlong
      | tail _ hmem => exact h region (List.mem_cons_of_mem _ hmem)

theorem length_leftOver_le (regions : List (List α)) : ∀ n, (leftOver n regions).length ≤ regions.length := by
  induction regions with
  | nil => intro n; simp [leftOver]
  | cons region rest ih =>
    intro n
    rw [leftOver]
    split
    · exact Nat.le_trans (ih _) (by simp)
    · simp

theorem eq_nil_of_flatten {regions : List (List α)} (h : ∀ region ∈ regions, region ≠ [])
    (hflat : regions.flatten = []) : regions = [] := by
  cases regions with
  | nil => rfl
  | cons region rest =>
    have hregion : region = [] := List.flatten_eq_nil_iff.mp hflat region (by simp)
    exact absurd hregion (h region (by simp))

end Ngnet.ShortWrites
