import Mathlib.Algebra.BigOperators.Group.List.Basic
import Mathlib.Algebra.GroupWithZero.Nat
import Mathlib.Data.List.AList

/-!
# Totals over an ordered map

The sum of a measure over the values of a map, and how it changes with an insertion, a removal
and a map over all values.
-/

namespace Ngnet.TreeMapTotals
open Std

variable {α β γ : Type} {cmp : α → α → Ordering} [TransCmp cmp] [LawfulEqCmp cmp]
  {m : TreeMap α β cmp} {k : α} {v w : β} (f : β → ℕ)

def total (f : β → ℕ) (m : TreeMap α β cmp) : ℕ := (m.toList.map fun entry => f entry.2).sum

omit [TransCmp cmp] [LawfulEqCmp cmp] in
theorem total_empty : total f (∅ : TreeMap α β cmp) = 0 := rfl

theorem total_of_lookups {m n : TreeMap α β cmp} (h : ∀ k : α, m[k]? = n[k]?) : total f m = total f n := by
  have hperm := TreeMap.equiv_iff_toList_perm.mp (TreeMap.Equiv.of_forall_constGet?_eq h)
  exact (hperm.map _).sum_eq

theorem total_insert_filter [DecidableEq α] :
    total f (m.insert k v) = f v + ((m.toList.filter fun entry => ¬ k == entry.1).map fun entry => f entry.2).sum := by
  have hperm : (m.insert k v).toList.Perm ((k, v) :: m.toList.filter fun entry => ¬ k == entry.1) :=
    TreeMap.toList_insert_perm
  rw [total, (hperm.map _).sum_eq, List.map_cons, List.sum_cons]

theorem total_insert_new [DecidableEq α] (h : m[k]? = none) : total f (m.insert k v) = total f m + f v := by
  have hother : m.toList.filter (fun entry => ¬ k == entry.1) = m.toList := by
    rw [List.filter_eq_self]
    rintro ⟨k', v'⟩ hentry
    rw [TreeMap.mem_toList_iff_getElem?_eq_some] at hentry
    have hne : k ≠ k' := by
      rintro rfl
      rw [h] at hentry
      cases hentry
    simpa using hne
  rw [total_insert_filter, hother, total, Nat.add_comm]

theorem total_insert [DecidableEq α] (h : m[k]? = some w) :
    total f (m.insert k v) + f w = total f m + f v := by
  have hsame : total f (m.insert k w) = total f m := by
    apply total_of_lookups
    intro k'
    rw [TreeMap.getElem?_insert]
    split
    · rename_i heq
      rw [← LawfulEqCmp.eq_of_compare heq, h]
    · rfl
  rw [total_insert_filter] at hsame ⊢
  omega

theorem total_erase [DecidableEq α] (h : m[k]? = some w) : total f (m.erase k) + f w = total f m := by
  have hback : total f ((m.erase k).insert k w) = total f m := by
    apply total_of_lookups
    intro k'
    rw [TreeMap.getElem?_insert, TreeMap.getElem?_erase]
    split
    · rename_i heq
      rw [← LawfulEqCmp.eq_of_compare heq, h]
    · rfl
  rw [← hback, total_insert_new f TreeMap.getElem?_erase_self]

omit [TransCmp cmp] [LawfulEqCmp cmp] in
theorem total_map {f : β → ℕ} (g : β → β) (h : ∀ v, f (g v) = f v) :
    total f (m.map fun _ => g) = total f m := by
  rw [total, TreeMap.toList_map, List.map_map]
  apply congrArg List.sum
  apply List.map_congr_left
  intro entry _
  exact h entry.2

end Ngnet.TreeMapTotals
