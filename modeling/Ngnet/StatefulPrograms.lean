import Mathlib.Logic.Relation
import Mathlib.Tactic.Common

/-!
# Programs over an explicit state

A program may fail, and a loop that its environment can keep going for ever is given a bound;
both end it with the state it had reached. `Moves r m s Q` says that `m`, started in `s`, only
takes steps of the relation `r`, however it ends, and that `Q` holds when it returns. What one
step preserves is then preserved by every program built from such steps, and by every run.
-/

namespace Ngnet.StatefulPrograms
open Relation

variable {ε ε' σ τ α β ι ο : Type}

/-- Why a program stopped without a value. -/
inductive Halt (ε : Type)
  | failed (error : ε)
  | outOfFuel
  deriving DecidableEq, Repr

abbrev Program (ε σ α : Type) := EStateM (Halt ε) σ α

def fail (error : ε) : Program ε σ α := throw (.failed error)

def outOfFuel : Program ε σ α := throw .outOfFuel

/-- The outcome of a program as a value, and the state it left. -/
def outcome (m : Program ε σ α) (s : σ) : Except (Halt ε) α × σ :=
  match m s with
  | .ok a t => (.ok a, t)
  | .error e t => (.error e, t)

/-- The failure of `m` as a value. -/
def attempt (m : Program ε σ α) : Program ε' σ (Except ε α) := fun s =>
  match m s with
  | .ok a t => .ok (.ok a) t
  | .error (.failed e) t => .ok (.error e) t
  | .error .outOfFuel t => .error .outOfFuel t

/-- Runs `m` on a component of the state. -/
def within (component : σ → τ) (replace : σ → τ → σ) (m : Program ε τ α) : Program ε σ α := fun s =>
  match m (component s) with
  | .ok a t => .ok a (replace s t)
  | .error e t => .error e (replace s t)

/-- Successive operations, each of which may fail without ending the run. -/
def run (step : ι → σ → ο × σ) : List ι → σ → List ο × σ
  | [], s => ([], s)
  | i :: rest, s =>
    let (o, s) := step i s
    let (more, s) := run step rest s
    (o :: more, s)

/-! ## Running a program -/

section Apply
variable {m : Program ε σ α} {f : α → Program ε σ β} {s : σ}

theorem bind_apply : (m >>= f) s = match m s with
    | .ok a t => f a t
    | .error e t => .error e t := by
  show EStateM.bind m f s = _
  rw [EStateM.bind]
  cases m s <;> rfl

theorem bind_ok {a : α} {t : σ} (h : m s = .ok a t) : (m >>= f) s = f a t := by
  rw [bind_apply, h]

theorem bind_error {e : Halt ε} {t : σ} (h : m s = .error e t) : (m >>= f) s = .error e t := by
  rw [bind_apply, h]

theorem pure_apply {a : α} : (pure a : Program ε σ α) s = .ok a s := rfl

theorem fail_apply {e : ε} : (fail e : Program ε σ α) s = .error (.failed e) s := rfl

theorem get_apply : (get : Program ε σ σ) s = .ok s s := rfl

theorem set_apply {t : σ} : (set t : Program ε σ PUnit) s = .ok ⟨⟩ t := rfl

theorem modify_apply {g : σ → σ} : (modify g : Program ε σ PUnit) s = .ok ⟨⟩ (g s) := rfl

end Apply

/-! ## What a program ensures -/

/-- `Q` holds when `m`, started in `s`, returns, and `E` when it stops without a value. A goal
about a program is never settled by evaluating it, so this does not unfold. -/
@[irreducible] def Ensures (m : Program ε σ α) (s : σ) (Q : α → σ → Prop) (E : Halt ε → σ → Prop) : Prop :=
  match m s with
  | .ok a t => Q a t
  | .error e t => E e t

section Ensures
variable {m : Program ε σ α} {f : α → Program ε σ β} {s : σ} {Q Q' : α → σ → Prop}
  {E E' : Halt ε → σ → Prop}

theorem ensures_of_ok {a : α} {t : σ} (h : m s = .ok a t) : Ensures m s Q E ↔ Q a t := by
  unfold Ensures
  rw [h]

theorem ensures_of_error {e : Halt ε} {t : σ} (h : m s = .error e t) :
    Ensures m s Q E ↔ E e t := by
  unfold Ensures
  rw [h]

theorem Ensures.cases (h : Ensures m s Q E) :
    (∃ a t, m s = .ok a t ∧ Q a t) ∨ ∃ e t, m s = .error e t ∧ E e t := by
  cases hm : m s with
  | ok a t => exact .inl ⟨a, t, rfl, (ensures_of_ok hm).mp h⟩
  | error e t => exact .inr ⟨e, t, rfl, (ensures_of_error hm).mp h⟩

theorem ensures_pure {a : α} : Ensures (pure a : Program ε σ α) s Q E ↔ Q a s :=
  ensures_of_ok pure_apply

theorem ensures_fail {e : ε} : Ensures (fail e : Program ε σ α) s Q E ↔ E (.failed e) s :=
  ensures_of_error fail_apply

theorem ensures_bind {Q : β → σ → Prop} :
    Ensures (m >>= f) s Q E ↔ Ensures m s (fun a t => Ensures (f a) t Q E) E := by
  unfold Ensures
  rw [bind_apply]
  cases m s <;> rfl

theorem ensures_get {f : σ → Program ε σ β} {Q : β → σ → Prop} :
    Ensures (get >>= f) s Q E ↔ Ensures (f s) s Q E := by
  rw [ensures_bind, ensures_of_ok get_apply]

theorem ensures_modify {g : σ → σ} {f : PUnit → Program ε σ β} {Q : β → σ → Prop} :
    Ensures (modify g >>= f) s Q E ↔ Ensures (f ⟨⟩) (g s) Q E := by
  rw [ensures_bind, ensures_of_ok modify_apply]

theorem ensures_attempt {Q : Except ε α → σ → Prop} {E : Halt ε' → σ → Prop} :
    Ensures (attempt m) s Q E ↔ Ensures m s (fun a t => Q (.ok a) t)
      fun e t => match e with
        | .failed e => Q (.error e) t
        | .outOfFuel => E .outOfFuel t := by
  unfold Ensures attempt
  cases m s with
  | ok a t => rfl
  | error e t => cases e <;> rfl

theorem ensures_within {component : τ → σ} {replace : τ → σ → τ} {s : τ} {Q : α → τ → Prop}
    {E : Halt ε → τ → Prop} :
    Ensures (within component replace m) s Q E ↔
      Ensures m (component s) (fun a t => Q a (replace s t)) fun e t => E e (replace s t) := by
  unfold Ensures within
  cases m (component s) <;> rfl

theorem Ensures.and (h : Ensures m s Q E) (h' : Ensures m s Q' E') :
    Ensures m s (fun a t => Q a t ∧ Q' a t) fun e t => E e t ∧ E' e t := by
  obtain ⟨a, t, hm, ha⟩ | ⟨e, t, hm, he⟩ := h.cases
  · exact (ensures_of_ok hm).mpr ⟨ha, (ensures_of_ok hm).mp h'⟩
  · exact (ensures_of_error hm).mpr ⟨he, (ensures_of_error hm).mp h'⟩

theorem Ensures.mono (h : Ensures m s Q E) (hQ : ∀ a t, Q a t → Q' a t)
    (hE : ∀ e t, E e t → E' e t) : Ensures m s Q' E' := by
  obtain ⟨a, t, hm, ha⟩ | ⟨e, t, hm, he⟩ := h.cases
  · exact (ensures_of_ok hm).mpr (hQ a t ha)
  · exact (ensures_of_error hm).mpr (hE e t he)

end Ensures

/-! ## Programs that take steps -/

/-- `m` takes steps of `r` only, and `Q` holds when it returns. -/
def Moves (r : σ → σ → Prop) (m : Program ε σ α) (s : σ) (Q : α → σ → Prop) : Prop :=
  Ensures m s (fun a t => ReflTransGen r s t ∧ Q a t) fun _ t => ReflTransGen r s t

section Moves
variable {r : σ → σ → Prop} {m : Program ε σ α} {f : α → Program ε σ β} {s t : σ}
  {Q Q' : α → σ → Prop}

theorem moves_of_ok {a : α} {t : σ} (h : m s = .ok a t) :
    Moves r m s Q ↔ ReflTransGen r s t ∧ Q a t := ensures_of_ok h

theorem moves_of_error {e : Halt ε} {t : σ} (h : m s = .error e t) :
    Moves r m s Q ↔ ReflTransGen r s t := ensures_of_error h

theorem Moves.pure {a : α} (h : Q a s) : Moves r (pure a : Program ε σ α) s Q :=
  (moves_of_ok pure_apply).mpr ⟨.refl, h⟩

theorem Moves.fail {e : ε} : Moves r (fail e : Program ε σ α) s Q :=
  (moves_of_error fail_apply).mpr .refl

theorem Moves.outOfFuel : Moves r (outOfFuel : Program ε σ α) s Q :=
  (moves_of_error rfl).mpr .refl

theorem Moves.behind (hst : ReflTransGen r s t) (h : Moves r m t Q) :
    Ensures m t (fun a u => ReflTransGen r s u ∧ Q a u) fun _ u => ReflTransGen r s u :=
  Ensures.mono h (fun _ _ ⟨htu, hQ⟩ => ⟨hst.trans htu, hQ⟩) fun _ _ htu => hst.trans htu

theorem Moves.bind {Q' : β → σ → Prop} (h : Moves r m s Q)
    (hf : ∀ a t, Q a t → Moves r (f a) t Q') : Moves r (m >>= f) s Q' := by
  refine ensures_bind.mpr (Ensures.mono h ?_ fun _ _ => id)
  rintro a t ⟨hst, hQ⟩
  exact (hf a t hQ).behind hst

theorem Moves.mono (h : Moves r m s Q) (hQ : ∀ a t, Q a t → Q' a t) : Moves r m s Q' :=
  Ensures.mono h (fun a t ⟨hst, ha⟩ => ⟨hst, hQ a t ha⟩) fun _ _ => id

theorem Moves.weaken {r' : σ → σ → Prop} (h : Moves r m s Q) (hr : ∀ a b, r a b → r' a b) :
    Moves r' m s Q :=
  Ensures.mono h (fun _ _ ⟨hst, ha⟩ => ⟨ReflTransGen.mono hr _ _ hst, ha⟩) fun _ _ => ReflTransGen.mono hr _ _

theorem Moves.get {Q : β → σ → Prop} {f : σ → Program ε σ β} (h : Moves r (f s) s Q) :
    Moves r (get >>= f) s Q := ensures_get.mpr h

theorem Moves.attempt {Q : Except ε α → σ → Prop} (h : Moves r m s fun a t => Q (.ok a) t)
    (hE : ∀ e t, ReflTransGen r s t → Q (.error e) t) :
    Moves r (attempt m : Program ε' σ (Except ε α)) s Q := by
  refine ensures_attempt.mpr (Ensures.mono h (fun _ _ => id) ?_)
  intro e t hst
  cases e with
  | failed e => exact ⟨hst, hE e t hst⟩
  | outOfFuel => exact hst

theorem Moves.outcome (h : Moves r m s Q) : ReflTransGen r s (outcome m s).2 := by
  unfold StatefulPrograms.outcome
  obtain ⟨a, t, hm, hst, -⟩ | ⟨e, t, hm, hst⟩ := Ensures.cases h
  · rwa [hm]
  · rwa [hm]

end Moves

theorem invariant_of_steps {r : σ → σ → Prop} {I : σ → Prop} (hr : ∀ s t, r s t → I s → I t)
    {s t : σ} (h : ReflTransGen r s t) (hs : I s) : I t := by
  induction h with
  | refl => exact hs
  | tail _ hstep ih => exact hr _ _ hstep ih

theorem run_append (step : ι → σ → ο × σ) (is js : List ι) (s : σ) :
    (run step (is ++ js) s).2 = (run step js (run step is s).2).2 := by
  induction is generalizing s with
  | nil => rfl
  | cons i rest ih => exact ih (step i s).2

theorem run_invariant {step : ι → σ → ο × σ} {I : σ → Prop} (hstep : ∀ i s, I s → I (step i s).2)
    (is : List ι) {s : σ} (hs : I s) : I (run step is s).2 := by
  induction is generalizing s with
  | nil => exact hs
  | cons i rest ih => exact ih (hstep i s hs)

end Ngnet.StatefulPrograms
