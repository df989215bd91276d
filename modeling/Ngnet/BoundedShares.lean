import Mathlib.Algebra.BigOperators.Group.Finset.Piecewise
import Mathlib.Algebra.Order.BigOperators.Group.Finset

/-!
# Shares of a whole

Shares at infinitely many places, of which any finitely many fit into a whole together with what is set aside. What
moves between a place, what is set aside and the outside keeps that, without a word on how many places are in use.
-/

namespace Ngnet.BoundedShares

variable {ι : Type} {share share' : ι → ℕ} {aside aside' whole whole' : ℕ}

/-- However many shares are added up, they fit into the whole beside what is set aside. -/
def Within (share : ι → ℕ) (aside whole : ℕ) : Prop := ∀ places : Finset ι, ∑ i ∈ places, share i + aside ≤ whole

theorem within_zero (whole : ℕ) : Within (fun _ : ι => 0) 0 whole := by
  intro places
  simp

theorem Within.move (h : Within share aside whole) (hmoved : aside' + whole ≤ aside + whole') :
    Within share aside' whole' := by
  intro places
  have hplaces := h places
  omega

theorem Within.update [DecidableEq ι] (h : Within share aside whole) (i : ι) {v : ℕ}
    (hmoved : v + aside' + whole ≤ share i + aside + whole') : Within (Function.update share i v) aside' whole' := by
  intro places
  have hrest : ∑ j ∈ places.erase i, Function.update share i v j = ∑ j ∈ places.erase i, share j :=
    Finset.sum_congr rfl fun j hj => Function.update_of_ne (Finset.ne_of_mem_erase hj) v share
  have hinsert := h (insert i (places.erase i))
  rw [Finset.sum_insert (Finset.notMem_erase i places)] at hinsert
  have hle : ∑ j ∈ places, Function.update share i v j ≤ v + ∑ j ∈ places.erase i, share j := by
    by_cases hi : i ∈ places
    · rw [← Finset.add_sum_erase _ _ hi, hrest, Function.update_self]
    · rw [← hrest, Finset.erase_eq_of_notMem hi]
      exact Nat.le_add_left _ _
  omega

end Ngnet.BoundedShares
