import Mathlib.Logic.Function.Basic
import Mathlib.Tactic.Common

/-!
# Lists of wakers

A task that waits for an event registers its waker on a list that belongs to the event, and sleeps. Whoever lets
the event happen owes the list a wake from then on: it takes the list, and then wakes what was on it, one waker
after the other. A task sleeps through an event if it registers once the list was taken and does not look again.

A waker is heeding an event while that is excluded. It stays so, whatever happens to the lists, until its task
starts to look again.
-/

namespace Ngnet
variable {ι ω : Type} [DecidableEq ι] [DecidableEq ω] {i j : ι} {waker other : ω} {p q : Prop}

/-- The lists, those among them that are owed a wake, and the wakers that were taken from them and are still to
be woken. -/
structure WakerLists (ι ω : Type) where
  registered : ι → List ω := fun _ => []
  owed : List ι := []
  waking : List ω := []
  woken : List ω := []

namespace WakerLists

/-- A waker is not registered twice. -/
def register (s : WakerLists ι ω) (i : ι) (waker : ω) : WakerLists ι ω :=
  if waker ∈ s.registered i then s
  else { s with registered := Function.update s.registered i (s.registered i ++ [waker]) }

def owe (s : WakerLists ι ω) (i : ι) : WakerLists ι ω := { s with owed := i :: s.owed }

def take (s : WakerLists ι ω) (i : ι) : WakerLists ι ω :=
  { s with
    registered := Function.update s.registered i []
    owed := s.owed.filter (· ≠ i)
    waking := s.waking ++ s.registered i }

def wakeNext (s : WakerLists ι ω) : WakerLists ι ω :=
  match s.waking with
  | [] => s
  | waker :: waking => { s with waking, woken := waker :: s.woken }

/-- The task of a waker starts to look again. -/
def forget (s : WakerLists ι ω) (waker : ω) : WakerLists ι ω := { s with woken := s.woken.filter (· ≠ waker) }

/-- The waker was woken, or is about to be, or it is on its list, which is owed a wake if the event has
happened. -/
def Heeds (s : WakerLists ι ω) (i : ι) (waker : ω) (p : Prop) : Prop :=
  waker ∈ s.woken ∨ waker ∈ s.waking ∨ waker ∈ s.registered i ∧ (p → i ∈ s.owed)

/-- Nothing is on its way to the waker. -/
def Asleep (s : WakerLists ι ω) (i : ι) (waker : ω) : Prop := waker ∉ s.woken ∧ waker ∉ s.waking ∧ i ∉ s.owed

instance (s : WakerLists ι ω) (i : ι) (waker : ω) : Decidable (s.Asleep i waker) := inferInstanceAs (Decidable (_ ∧ _ ∧ _))

variable {s : WakerLists ι ω}

omit [DecidableEq ι] [DecidableEq ω] in
theorem Heeds.not_of_asleep (h : s.Heeds i waker p) (hasleep : s.Asleep i waker) : ¬ p := by
  obtain ⟨hwoken, hwaking, howed⟩ := hasleep
  rcases h with hwoken' | hwaking' | ⟨-, hdue⟩
  · exact (hwoken hwoken').elim
  · exact (hwaking hwaking').elim
  · exact fun hp => howed (hdue hp)

omit [DecidableEq ι] [DecidableEq ω] in
theorem Heeds.imp (h : s.Heeds i waker p) (hq : q → p ∨ i ∈ s.owed) : s.Heeds i waker q := by
  refine h.imp_right fun h => h.imp_right fun ⟨hregistered, hdue⟩ => ⟨hregistered, fun hhappened => ?_⟩
  exact (hq hhappened).elim hdue id

omit [DecidableEq ι] [DecidableEq ω] in
theorem Heeds.of_not (h : s.Heeds i waker p) (hq : ¬ q) : s.Heeds i waker q := h.imp fun hhappened => (hq hhappened).elim

theorem mem_registered (s : WakerLists ι ω) (i : ι) (waker : ω) : waker ∈ (s.register i waker).registered i := by
  rw [WakerLists.register]
  split
  · assumption
  · simp

theorem registered_subset (s : WakerLists ι ω) (j : ι) (other : ω) (h : waker ∈ s.registered i) :
    waker ∈ (s.register j other).registered i := by
  rw [WakerLists.register]
  split
  · exact h
  · by_cases hi : i = j
    · subst hi
      simp [h]
    · simpa [Function.update_of_ne hi] using h

theorem register_same (s : WakerLists ι ω) (j : ι) (other : ω) : (s.register j other).woken = s.woken ∧
    (s.register j other).waking = s.waking ∧ (s.register j other).owed = s.owed := by
  rw [WakerLists.register]
  split
  all_goals exact ⟨rfl, rfl, rfl⟩

theorem heeds_register (s : WakerLists ι ω) (waker : ω) (h : p → i ∈ s.owed) : (s.register i waker).Heeds i waker p := by
  refine .inr (.inr ⟨mem_registered s i waker, fun hp => ?_⟩)
  rw [(register_same s i waker).2.2]
  exact h hp

theorem Heeds.register (h : s.Heeds i waker p) (j : ι) (other : ω) : (s.register j other).Heeds i waker p := by
  obtain ⟨hwoken, hwaking, howed⟩ := register_same s j other
  rw [WakerLists.Heeds, hwoken, hwaking, howed]
  exact h.imp_right fun h => h.imp_right fun ⟨hregistered, hdue⟩ => ⟨registered_subset s j other hregistered, hdue⟩

omit [DecidableEq ι] [DecidableEq ω] in
theorem Heeds.owe (h : s.Heeds i waker p) (j : ι) : (s.owe j).Heeds i waker p :=
  h.imp_right fun h => h.imp_right fun ⟨hregistered, hdue⟩ => ⟨hregistered, fun hp => List.mem_cons_of_mem j (hdue hp)⟩

omit [DecidableEq ω] in
theorem Heeds.take (h : s.Heeds i waker p) (j : ι) : (s.take j).Heeds i waker p := by
  rcases h with hwoken | hwaking | ⟨hregistered, hdue⟩
  · exact .inl hwoken
  · exact .inr (.inl (List.mem_append_left _ hwaking))
  · by_cases hi : i = j
    · subst hi
      exact .inr (.inl (List.mem_append_right _ hregistered))
    · refine .inr (.inr ⟨?_, fun hp => ?_⟩)
      · simpa [WakerLists.take, Function.update_of_ne hi] using hregistered
      · simpa [WakerLists.take, hi] using hdue hp

omit [DecidableEq ι] [DecidableEq ω] in
theorem Heeds.wakeNext (h : s.Heeds i waker p) : s.wakeNext.Heeds i waker p := by
  rw [WakerLists.wakeNext]
  split
  · exact h
  rename_i first waking hwaking
  rcases h with hwoken | hmem | hlisted
  · exact .inl (List.mem_cons_of_mem _ hwoken)
  · rw [hwaking] at hmem
    rcases List.mem_cons.mp hmem with rfl | hmem
    · exact .inl List.mem_cons_self
    · exact .inr (.inl hmem)
  · exact .inr (.inr hlisted)

end WakerLists

end Ngnet
